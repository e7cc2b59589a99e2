import SignalBridge.Proofs.Bridge.HostCode
import SignalBridge.Proofs.Bridge.Prototypes

namespace SignalBridge

/-- What the package of C functions has from the start: conversions and the function that frees. -/
def ownNames : List String :=
  ["C.CString", "C.GoString", "C.double", "C.free", "C.int", "C.longlong"]

/-- Whether a C function is called that the header has to declare. -/
def HostCall.isWrapper (call : HostCall) : Bool :=
  "C.".toList.isPrefixOf call.function.toList && !ownNames.contains call.function

/-- The calls in a function that the header has to declare. -/
def HostFunction.wrapperCalls (g : HostFunction) : List HostCall :=
  g.hostCalls.filter HostCall.isWrapper

/-- The call of a C function with as many arguments as it has parameters. -/
def Prototype.call (p : Prototype) : HostCall :=
  ⟨"C." ++ p.name, p.parameters.length⟩

section OwnCalls

-- What Go defines itself, what C brings along and conversions between the two.

@[simp] theorem isWrapper_own (arity : Nat) :
    HostCall.isWrapper ⟨"mocCallback", arity⟩ = false ∧
      HostCall.isWrapper ⟨"mocConnect", arity⟩ = false ∧
      HostCall.isWrapper ⟨"mocDisconnect", arity⟩ = false ∧
      HostCall.isWrapper ⟨"mocForget", arity⟩ = false ∧
      HostCall.isWrapper ⟨"unsafe.Pointer", arity⟩ = false := by
  simp [HostCall.isWrapper]

@[simp] theorem filter_isWrapper_goToC (boundary : Boundary) :
    (boundary.goToC.filterMap Code.Conversion.hostCall?).filter HostCall.isWrapper = [] := by
  cases boundary <;> rfl

@[simp] theorem filter_isWrapper_goFromC (boundary : Boundary) :
    (boundary.goFromC.filterMap Code.Conversion.hostCall?).filter HostCall.isWrapper = [] := by
  cases boundary <;> rfl

@[simp] theorem filter_isWrapper_freeLater (name : String) :
    (freeLater name).hostCalls.filter HostCall.isWrapper = [] := by
  rw [freeLater, hostCalls_defer, hostCalls_converted, hostCalls_named]
  rfl

end OwnCalls

@[simp] theorem isWrapper_underscored (owner stem : String) (arity : Nat) :
    HostCall.isWrapper ⟨"C." ++ underscored owner stem, arity⟩ := by
  have hown : ∀ name ∈ ownNames, '_' ∉ name.toList := by decide
  have hmem : "C." ++ underscored owner stem ∉ ownNames := by
    intro h
    apply hown _ h
    simp [underscored]
  simp [HostCall.isWrapper, hmem]

namespace Binding

variable (b : Binding)

@[simp] theorem filter_isWrapper_cArguments :
    (b.cArguments.flatMap Code.Argument.hostCalls).filter HostCall.isWrapper = [] := by
  rw [cArguments, List.flatMap_map, List.filter_flatMap, List.flatMap_eq_nil_iff]
  intro p hp
  split
  · rfl
  · rw [hostCalls_argument, List.filter_reverse, filter_isWrapper_goToC, List.reverse_nil]

@[simp] theorem filter_isWrapper_cStrings :
    (b.cStrings.flatMap HostStatement.hostCalls).filter HostCall.isWrapper = [] := by
  rw [cStrings, List.flatMap_assoc, List.filter_flatMap, List.flatMap_eq_nil_iff]
  intro p hp
  simp only [List.flatMap_cons, List.flatMap_nil, List.append_nil, List.filter_append,
    hostCalls_assign, hostCalls_converted, hostCalls_named, List.filter_reverse,
    filter_isWrapper_goToC, filter_isWrapper_freeLater, List.reverse_nil]

@[simp] theorem filter_isWrapper_handlerCall :
    b.handlerCall.hostCalls.filter HostCall.isWrapper = [] := by
  have hown (types result : String) (arity : Nat) :
      HostCall.isWrapper ⟨s!"f.(func({types}){result})", arity⟩ = false := by
    simp [HostCall.isWrapper, toString]
  rw [handlerCall, hostCalls_call, List.filter_cons_of_neg (by simp only [hown]; decide),
    List.flatMap_map, List.filter_flatMap, List.flatMap_eq_nil_iff]
  intro p hp
  rw [hostCalls_argument, List.filter_reverse, filter_isWrapper_goFromC, List.reverse_nil]

@[simp] theorem length_cArguments : b.cArguments.length = b.parameters.length :=
  List.length_map _

theorem wrapperCalls_createFunction : b.createFunction.wrapperCalls =
    [⟨"C." ++ b.wrapperName, b.parameters.length⟩] := by
  simp [HostFunction.wrapperCalls, HostFunction.hostCalls_eq, createFunction, b.wrapperName_eq]

theorem wrapperCalls_deleteFunction : b.deleteFunction.wrapperCalls =
    [⟨"C." ++ b.wrapperName, 1⟩] := by
  simp [HostFunction.wrapperCalls, HostFunction.hostCalls_eq, deleteFunction, b.wrapperName_eq,
    Code.Expression.call]

theorem wrapperCalls_forgetFunction : b.forgetFunction.wrapperCalls = [] := by
  simp [HostFunction.wrapperCalls, HostFunction.hostCalls_eq, forgetFunction, Code.Expression.call]

theorem wrapperCalls_connectFunction : b.connectFunction.wrapperCalls =
    if b.isSignal then [⟨"C." ++ b.connectName, 1⟩] else [] := by
  cases h : b.isSignal <;>
    simp [HostFunction.wrapperCalls, HostFunction.hostCalls_eq, connectFunction, linkCall, h,
      b.connectName_eq, Code.Expression.call, keyArgument]

theorem wrapperCalls_disconnectFunction : b.disconnectFunction.wrapperCalls =
    if b.isSignal then [⟨"C." ++ b.disconnectName, 1⟩] else [] := by
  cases h : b.isSignal <;>
    simp [HostFunction.wrapperCalls, HostFunction.hostCalls_eq, disconnectFunction, linkCall, h,
      b.disconnectName_eq, Code.Expression.call, keyArgument]

theorem wrapperCalls_callFunction : b.callFunction.wrapperCalls =
    [⟨"C." ++ b.wrapperName, b.parameters.length + 1⟩] := by
  cases hv : b.returnsValue <;> cases hs : b.result.isCString <;>
    simp [HostFunction.wrapperCalls, HostFunction.hostCalls_eq, callFunction, wrapperResult,
      wrapperCall, b.wrapperName_eq, hv, hs]

theorem wrapperCalls_callbackFunction : b.callbackFunction.wrapperCalls = [] := by
  cases hv : b.returnsValue <;>
    simp [HostFunction.wrapperCalls, HostFunction.hostCalls_eq, callbackFunction, hv,
      Code.Expression.named, -List.filter_eq_nil_iff]

/-- The Go functions of a member call the C functions of the member, each once, with as many
arguments as it takes. -/
theorem wrapperCalls_eq (h : b.member.category = .destructor → b.parameters = []) :
    b.hostFunctions.flatMap HostFunction.wrapperCalls = b.prototypes.map Prototype.call := by
  cases hk : b.member.category with
  | constructor =>
    simp [hostFunctions, prototypes, Prototype.call, hk, b.wrapperName_eq,
      wrapperCalls_createFunction]
  | destructor =>
    simp [hostFunctions, prototypes, Prototype.call, hk, h hk, b.wrapperName_eq,
      wrapperCalls_deleteFunction, wrapperCalls_forgetFunction]
  | signal =>
    simp [hostFunctions, prototypes, Prototype.call, hk, isSignal, b.wrapperName_eq,
      b.connectName_eq, b.disconnectName_eq, wrapperCalls_connectFunction,
      wrapperCalls_disconnectFunction, wrapperCalls_callFunction, wrapperCalls_callbackFunction]
  | slot =>
    simp [hostFunctions, prototypes, Prototype.call, hk, isSignal, b.wrapperName_eq,
      wrapperCalls_connectFunction, wrapperCalls_disconnectFunction, wrapperCalls_callFunction,
      wrapperCalls_callbackFunction]

end Binding

end SignalBridge
