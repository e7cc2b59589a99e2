import Mathlib.Data.List.Forall2
import Mathlib.Data.List.Perm.Basic
import SignalBridge.Bridge.HostFunction
import SignalBridge.Bridge.NativeClass

namespace SignalBridge

open List (Forall₂ Perm)

/-- The type of a C++ value before and after a conversion. -/
inductive Code.Conversion.Gives : Conversion → String → String → Prop
  | toUtf8 : Gives (.method "toUtf8") "QString" "QByteArray"
  | constData : Gives (.method "constData") "QByteArray" "const char*"
  | joinList : Gives (.call "moc_join_list") "QStringList" "QByteArray"
  | constCast : Gives (.call "const_cast<char*>") "const char*" "char*"
  | staticCast {type : String} : Gives (.call "static_cast<long long>") type "long long"
  | copy {name : String} : Gives (.call ("new " ++ name)) name (name ++ "*")

/-- The type of a C++ value before and after some conversions. -/
inductive Code.Converts : List Conversion → String → String → Prop
  | nil {type : String} : Converts [] type type
  | cons {conversion : Conversion} {conversions : List Conversion} {type next last : String} :
    conversion.Gives type next → Converts conversions next last →
      Converts (conversion :: conversions) type last

/-- The C types as which a C++ value passes. An object of a class passes by its address, whatever
the class. -/
inductive Registry.Passes (r : Registry) : String → CType → Prop
  | string : r.Passes "char*" .string
  | bool : r.Passes "bool" .char
  | int : r.Passes "int" .int
  | real : r.Passes "qreal" .double
  | int64 : r.Passes "qint64" .longLong
  | longLong : r.Passes "long long" .longLong
  | address : r.Passes "void*" .pointer
  | object {name : String} : r.contains name → r.Passes (name ++ "*") .pointer

/-- The C types that an argument has where some variables are declared. -/
inductive Registry.HasCType (r : Registry) (scope : List Code.TypedName) :
    Code.Argument → CType → Prop
  | this : r.HasCType scope ⟨"this", []⟩ .pointer
  | converted {v : Code.TypedName} {conversions : List Code.Conversion} {type : String}
    {t : CType} : v ∈ scope → Code.Converts conversions v.type type → r.Passes type t →
      r.HasCType scope ⟨v.name, conversions⟩ t

/-- A call in the body of a member. -/
structure BodyCall where
  /-- The parameters of the member. -/
  scope : List Code.TypedName
  function : String
  arguments : List Code.Argument
deriving DecidableEq, Repr

def Code.Statement.expression : Statement → Expression
  | run e | give e => e

/-- The call of which a statement consists. What converts the arguments and the result is either a
part of C++ or a function of the source itself. -/
def Code.Statement.call? (s : Statement) (scope : List TypedName) : Option BodyCall :=
  match s.expression.subject with
  | .named _ => none
  | .call function arguments => some ⟨scope, function, arguments⟩

def ClassMember.call? : ClassMember → Option BodyCall
  | .destructor body => body.call? []
  | .method _ _ parameters body => body.call? parameters
  | .constructor _ | .signal _ _ => none

def NativeClass.calls (c : NativeClass) : List BodyCall :=
  (c.members ++ c.signals ++ c.slots).filterMap ClassMember.call?

def HostFunction.isExported (g : HostFunction) : Bool :=
  g.heading = .exported

/-- The Go functions that can be called from C. -/
def BoundClass.exports (c : BoundClass) : List HostFunction :=
  c.hostFunctions.filter HostFunction.isExported

/-- How Go names a type of C. -/
def cgoName (type : String) : String :=
  let joined (type : List Char) := String.ofList (type.filter (· ≠ ' '))
  if type = "void*" then "unsafe.Pointer"
  else
    match pointee? type.toList with
    | some type => "*C." ++ joined type
    | none => "C." ++ joined type.toList

theorem CType.cgoText_eq (t : CType) : t.cgoText = cgoName t.text := by
  cases t <;> decide

/-- The call is one of the function, and what it hands over is what the function takes. -/
structure Registry.Fits (r : Registry) (g : HostFunction) (call : BodyCall) : Prop where
  name : g.name = call.function
  arguments : Forall₂ (fun p a => ∃ t, r.HasCType call.scope a t ∧ p.type = cgoName t.text)
    g.parameters call.arguments

section Passing

variable {r : Registry} {native name : String}

/-- The class of the objects or values that pass. -/
def Boundary.className? : Boundary → Option String
  | .object name | .value name => some name
  | _ => none

theorem contains_of_classBoundary (h : (r.classBoundary native).className? = some name) :
    r.contains name := by
  unfold Registry.classBoundary at h
  split at h
  · cases h
  split at h <;> split at h
  · cases h
    assumption
  · cases h
  · rename_i hany
    cases h
    cases hf : r.find? native with
    | none => simp [hf] at hany
    | some c => simp [Registry.contains, hf]
  · cases h

theorem contains_of_boundary (h : (r.boundary native).className? = some name) :
    r.contains name := by
  unfold Registry.boundary at h
  split at h
  all_goals first
    | exact contains_of_classBoundary h
    | cases h

/-- What the conversions make of a value passes as the C type of its boundary. -/
theorem Boundary.exists_passes {boundary : Boundary}
    (h : ∀ name, boundary.className? = some name → r.contains name) :
    ∃ type, Code.Converts (boundary.cppToC false) boundary.cppType type ∧
      r.Passes type boundary.cType := by
  cases boundary with
  | text => exact ⟨"char*", .cons .toUtf8 (.cons .constData (.cons .constCast .nil)), .string⟩
  | textList => exact ⟨"char*", .cons .joinList (.cons .constData (.cons .constCast .nil)), .string⟩
  | bool => exact ⟨"bool", .nil, .bool⟩
  | int => exact ⟨"int", .nil, .int⟩
  | real => exact ⟨"qreal", .nil, .real⟩
  | int64 => exact ⟨"qint64", .nil, .int64⟩
  | rawPointer | untyped => exact ⟨"void*", .nil, .address⟩
  | object name => exact ⟨name ++ "*", .nil, .object (h name rfl)⟩
  | value name => exact ⟨name ++ "*", .cons .copy .nil, .object (h name rfl)⟩
  | nested name => exact ⟨"long long", .cons .staticCast .nil, .longLong⟩

end Passing

namespace Binding

variable {r : Registry} {b : Binding}

/-- The Go functions of a member that can be called from C. -/
def exports (b : Binding) : List HostFunction :=
  b.hostFunctions.filter HostFunction.isExported

/-- What the C++ class states for a member. -/
def nativeMembers (b : Binding) : List ClassMember :=
  b.publicMember?.toList ++ b.signal?.toList ++ b.slot?.toList

/-- The calls in the C++ class on account of a member. -/
def calls (b : Binding) : List BodyCall :=
  b.nativeMembers.filterMap ClassMember.call?

/-- The call that hands over the object and all parameters. -/
def callback (b : Binding) : BodyCall where
  scope := b.cppParameters
  function := b.callbackName
  arguments := ⟨"this", []⟩ :: b.parameters.map fun p => ⟨p.name, p.boundary.cppToC false⟩

/-- The call that tells of the end of the object. -/
def farewell (b : Binding) : BodyCall where
  scope := []
  function := b.callbackName
  arguments := [⟨"this", []⟩]

theorem exports_eq (b : Binding) : b.exports =
    match b.member.category with
    | .constructor => []
    | .destructor => [b.forgetFunction]
    | .signal | .slot => [b.callbackFunction] := by
  cases hk : b.member.category with
  | constructor => simp [exports, hostFunctions, createFunction, HostFunction.isExported, hk]
  | destructor =>
    simp [exports, hostFunctions, deleteFunction, forgetFunction, HostFunction.isExported, hk]
  | signal | slot =>
    simp [exports, hostFunctions, connectFunction, disconnectFunction, callFunction,
      callbackFunction, HostFunction.isExported, hk]

theorem calls_eq (b : Binding) : b.calls =
    match b.member.category with
    | .constructor => []
    | .destructor => [b.farewell]
    | .signal | .slot => [b.callback] := by
  cases hk : b.member.category with
  | constructor =>
    simp [calls, nativeMembers, publicMember?, signal?, slot?, ClassMember.call?, hk]
  | destructor =>
    simp [calls, nativeMembers, publicMember?, signal?, slot?, ClassMember.call?, hk, farewell,
      Code.Statement.call?, Code.Statement.expression, Code.Expression.call]
  | signal =>
    simp [calls, nativeMembers, publicMember?, signal?, slot?, ClassMember.call?, hk, callback,
      Code.Statement.call?, Code.Statement.expression, callbackCall]
  | slot =>
    by_cases hv : b.returnsValue <;>
      simp [calls, nativeMembers, publicMember?, signal?, slot?, ClassMember.call?, hk, hv,
        callback, Code.Statement.call?, Code.Statement.expression, callbackCall]

theorem fits_farewell (r : Registry) (b : Binding) : r.Fits b.forgetFunction b.farewell :=
  ⟨rfl, .cons ⟨.pointer, .this, CType.pointer.cgoText_eq⟩ .nil⟩

theorem fits_callback (h : ∀ p ∈ b.parameters, ∃ native, p.boundary = r.boundary native) :
    r.Fits b.callbackFunction b.callback := by
  refine ⟨rfl, .cons ⟨.pointer, .this, CType.pointer.cgoText_eq⟩ ?_⟩
  rw [List.forall₂_map_left_iff, List.forall₂_map_right_iff, List.forall₂_same]
  intro p hp
  obtain ⟨native, hn⟩ := h p hp
  obtain ⟨type, hconverts, hpasses⟩ := (r.boundary native).exists_passes (r := r)
    fun name => contains_of_boundary
  rw [← hn] at hconverts hpasses
  exact ⟨p.boundary.cType, .converted (v := ⟨p.name, p.boundary.cppType⟩)
    (List.mem_map_of_mem hp) hconverts hpasses, p.boundary.cType.cgoText_eq⟩

/-- Each function of a member that can be called from C has one call on its account. -/
theorem exports_fit (h : ∀ p ∈ b.parameters, ∃ native, p.boundary = r.boundary native) :
    Forall₂ r.Fits b.exports b.calls := by
  rw [exports_eq, calls_eq]
  cases b.member.category with
  | constructor => exact .nil
  | destructor => exact .cons (fits_farewell r b) .nil
  | signal | slot => exact .cons (fits_callback h) .nil

end Binding

section Classes

variable {r : Registry}

theorem exists_bind_of_mem_bindAll {owner : String} {built : Nat} {ms : List Member} {b : Binding}
    (hb : b ∈ r.bindAll owner built ms) : ∃ m ∈ ms, ∃ built, b = r.bind owner built m := by
  induction ms generalizing built with
  | nil => cases hb
  | cons m ms ih =>
    rcases List.mem_cons.mp hb with rfl | hb
    · exact ⟨m, List.mem_cons_self, built, rfl⟩
    · obtain ⟨m', hm, hbind⟩ := ih hb
      exact ⟨m', List.mem_cons_of_mem m hm, hbind⟩

theorem exists_boundary_of_mem_bindAll {owner : String} {built : Nat} {ms : List Member}
    {b : Binding} (hb : b ∈ r.bindAll owner built ms) :
    ∀ p ∈ b.parameters, ∃ native, p.boundary = r.boundary native := by
  obtain ⟨m, -, built, rfl⟩ := exists_bind_of_mem_bindAll hb
  intro p hp
  obtain ⟨i, hi, rfl⟩ := List.mem_mapIdx.mp hp
  exact ⟨_, rfl⟩

theorem BoundClass.exports_eq (c : BoundClass) :
    c.exports = c.bindings.flatMap Binding.exports := by
  rw [exports, hostFunctions, List.filter_flatMap]
  rfl

/-- The sections of a class sort its members, nothing is lost. -/
theorem BoundClass.calls_perm (c : BoundClass) :
    Perm (c.bindings.flatMap Binding.calls) c.native.calls := by
  have hmembers : Perm (c.native.members ++ c.native.signals ++ c.native.slots)
      (c.bindings.flatMap Binding.nativeMembers) := by
    simp only [native, List.filterMap_eq_flatMap_toList]
    exact ((List.flatMap_append_perm ..).append_right _).trans (List.flatMap_append_perm ..)
  have := (hmembers.filterMap ClassMember.call?).symm
  rwa [List.filterMap_flatMap] at this

/-- For each Go function of a class that can be called from C there is one call in the bodies of
the C++ class, and there are no others. -/
theorem Registry.exports_fit (r : Registry) (c : MetaClass) :
    ∃ calls, calls.Perm (r.boundClass c).native.calls ∧
      Forall₂ r.Fits (r.boundClass c).exports calls := by
  refine ⟨_, (r.boundClass c).calls_perm, ?_⟩
  rw [BoundClass.exports_eq]
  have hsame : Forall₂ (fun a b => a = b ∧ a ∈ (r.boundClass c).bindings)
      (r.boundClass c).bindings (r.boundClass c).bindings :=
    List.forall₂_same.mpr fun b hb => ⟨rfl, hb⟩
  apply List.rel_flatMap hsame
  rintro b b' ⟨rfl, hb⟩
  exact Binding.exports_fit (exists_boundary_of_mem_bindAll hb)

end Classes

end SignalBridge
