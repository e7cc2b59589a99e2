import SignalBridge.Bridge.NativeClass
import SignalBridge.Proofs.Bridge.Callbacks
import SignalBridge.Proofs.Code.Marked

namespace SignalBridge

open Code (Marked MarkedCall)

namespace NativeClass

def parameterText (parameters : List Code.TypedName) : String :=
  ", ".intercalate (parameters.map fun p => p.type ++ " " ++ p.name)

variable (c : NativeClass)

/-- The line of a member. -/
def markedMember : ClassMember → Marked
  | .constructor parameters =>
    .plain (c.name ++ "(" ++ parameterText parameters ++ ") : " ++ c.base ++ "(" ++
      ", ".intercalate (parameters.map Code.TypedName.name) ++ ") \x7b\x7d;")
  | .destructor body =>
    .beside (.plain ("~" ++ c.name ++ "() \x7b ")) (.beside body.marked (.plain "; \x7d;"))
  | .method result name parameters body =>
    .beside (.plain (result ++ " " ++ name ++ "(" ++ parameterText parameters ++ ") \x7b "))
      (.beside body.marked (.plain "; \x7d;"))
  | .signal name parameters =>
    .plain ("void " ++ name ++ "(" ++ parameterText parameters ++ ");")

/-- A section of the class body; one without members is left out. -/
def markedSection (label : String) : List ClassMember → List Marked
  | [] => []
  | m :: ms => .plain label :: (m :: ms).map fun m => (c.markedMember m).indented

/-- The lines of a class. -/
def marked : List Marked :=
  ["class " ++ c.name ++ ": public " ++ c.base, "\x7b", "Q_OBJECT", "public:"].map .plain ++
    c.members.map (fun m => (c.markedMember m).indented) ++
    c.markedSection "signals:" c.signals ++
    c.markedSection "public slots:" c.slots ++
    [.plain "\x7d;"]

section Printing

variable (label : String) (ms : List ClassMember)

theorem text_markedMember (m : ClassMember) : (c.markedMember m).text = c.memberLine m := by
  cases m with
  | constructor parameters | signal name parameters =>
    apply String.toList_injective
    simp [markedMember, memberLine, parameterList, parameterText, Code.commaList,
      Function.comp_def, Code.TypedName.typeFirst, toString]
  | destructor body | method result name parameters body =>
    apply String.toList_injective
    simp [markedMember, memberLine, parameterList, parameterText, Code.commaList,
      Function.comp_def, Code.TypedName.typeFirst, toString]

theorem map_text_members : (ms.map fun m => (c.markedMember m).indented).map Marked.text =
    Code.indent (ms.map c.memberLine) := by
  simp [Code.indent, text_markedMember]

theorem map_text_section :
    (c.markedSection label ms).map Marked.text = c.sectionLines label ms := by
  cases ms with
  | nil => rfl
  | cons m ms =>
    rw [markedSection, List.map_cons, map_text_members, Marked.text_plain]
    rfl

theorem map_text_marked : c.marked.map Marked.text = c.lines := by
  simp only [marked, List.map_append, Marked.map_text_plain, map_text_members, map_text_section,
    List.map_singleton, Marked.text_plain]
  rfl

end Printing

end NativeClass

section Calls

/-- The functions of the Go side have names of their own kind. -/
def isCallback (function : String) : Bool :=
  "callback".toList.isPrefixOf function.toList

/-- The calls of functions of the Go side in a part of a line. -/
def Code.Marked.callbacks (m : Marked) : List MarkedCall :=
  m.calls.filter fun call => isCallback call.function

/-- The calls of functions of the Go side in the lines of a class. -/
def NativeClass.callbacks (c : NativeClass) : List MarkedCall :=
  c.marked.flatMap Marked.callbacks

/-- The call as it stands in a line. -/
def BodyCall.marked (call : BodyCall) : MarkedCall :=
  ⟨call.function, call.arguments.map Code.Argument.marked⟩

section Parts

variable (t : String) (left right m : Marked) (ms : List Marked)

@[simp] theorem callbacks_plain : (Marked.plain t).callbacks = [] := by
  rw [Marked.callbacks, Marked.calls_plain, List.filter_nil]

@[simp] theorem callbacks_beside :
    (Marked.beside left right).callbacks = left.callbacks ++ right.callbacks := by
  rw [Marked.callbacks, Marked.calls_beside, List.filter_append]
  rfl

theorem callbacks_call {function : String} (h : isCallback function) :
    (Marked.call function ms).callbacks = ⟨function, ms⟩ :: ms.flatMap Marked.callbacks := by
  rw [Marked.callbacks, Marked.calls_call,
    List.filter_cons_of_pos (p := fun call : MarkedCall => isCallback call.function) h,
    List.filter_flatMap]
  rfl

@[simp] theorem callbacks_indented : m.indented.callbacks = m.callbacks := by
  rw [Marked.callbacks, Marked.calls_indented, Marked.callbacks]

/-- Whether conversions call functions of the Go side. -/
def CallsBack (conversions : List Code.Conversion) : Prop :=
  ∃ function ∈ conversions.filterMap Code.Conversion.function?, isCallback function = true

theorem callbacks_conversions {conversions : List Code.Conversion} (h : ¬ CallsBack conversions) :
    (conversions.foldl Code.Conversion.marked m).callbacks = m.callbacks :=
  Code.Conversion.filter_calls
    (fun function hf => Bool.eq_false_iff.mpr fun hc => h ⟨function, hf, hc⟩) m

theorem callbacks_argument {a : Code.Argument} (h : ¬ CallsBack a.conversions) :
    a.marked.callbacks = [] := by
  rw [Code.Argument.marked, callbacks_conversions _ h, callbacks_plain]

/-- The statement is a call of a function of the Go side, and nothing else in it is. -/
theorem callbacks_statement {s : Code.Statement} {scope : List Code.TypedName} {call : BodyCall}
    (h : s.call? scope = some call) (hc : isCallback call.function)
    (harguments : ∀ a ∈ call.arguments, ¬ CallsBack a.conversions)
    (hresult : ¬ CallsBack s.expression.conversions) : s.marked.callbacks = [call.marked] := by
  have hexpression : s.marked.callbacks = s.expression.subject.marked.callbacks := by
    cases s with
    | run e => exact callbacks_conversions _ hresult
    | give e =>
      rw [Code.Statement.marked, callbacks_beside, callbacks_plain, List.nil_append]
      exact callbacks_conversions _ hresult
  rw [hexpression]
  cases hs : s.expression.subject with
  | named name => simp [Code.Statement.call?, hs] at h
  | call function arguments =>
    simp only [Code.Statement.call?, hs, Option.some.injEq] at h
    subst h
    have hnone : (arguments.map Code.Argument.marked).flatMap Marked.callbacks = [] := by
      rw [List.flatMap_map, List.flatMap_eq_nil_iff]
      exact fun a ha => callbacks_argument (harguments a ha)
    rw [Code.Subject.marked, callbacks_call _ hc, hnone, BodyCall.marked]

end Parts

section Members

theorem not_callsBack_nil : ¬ CallsBack [] :=
  fun ⟨_, hf, _⟩ => List.not_mem_nil hf

theorem Boundary.not_callsBack_cppToC (boundary : Boundary) (given : Bool) :
    ¬ CallsBack (boundary.cppToC given) := by
  cases boundary <;> cases given <;>
    simp [CallsBack, cppToC, Code.Conversion.function?, isCallback]

theorem Boundary.not_callsBack_cppFromC (boundary : Boundary) (taken : Bool) :
    ¬ CallsBack (boundary.cppFromC taken) := by
  cases boundary <;> cases taken <;>
    simp [CallsBack, cppFromC, Code.Conversion.function?, isCallback, toString]

namespace Binding

variable (b : Binding)

theorem isCallback_callbackName : isCallback b.callbackName := by
  simp [isCallback, callbackName, toString]

theorem callbacks_callback {s : Code.Statement} (h : s.call? b.cppParameters = some b.callback)
    (hresult : ¬ CallsBack s.expression.conversions) :
    s.marked.callbacks = [b.callback.marked] := by
  apply callbacks_statement h b.isCallback_callbackName _ hresult
  intro a ha
  rcases List.mem_cons.mp ha with rfl | ha
  · exact not_callsBack_nil
  · obtain ⟨p, -, rfl⟩ := List.mem_map.mp ha
    exact p.boundary.not_callsBack_cppToC false

theorem callbacks_farewell {s : Code.Statement} (h : s.call? [] = some b.farewell)
    (hresult : ¬ CallsBack s.expression.conversions) :
    s.marked.callbacks = [b.farewell.marked] := by
  apply callbacks_statement h b.isCallback_callbackName _ hresult
  intro a ha
  obtain rfl := List.mem_singleton.mp ha
  exact not_callsBack_nil

theorem callbacks_method (c : NativeClass) {result name : String} {s : Code.Statement}
    (h : s.call? b.cppParameters = some b.callback)
    (hresult : ¬ CallsBack s.expression.conversions) :
    (c.markedMember (.method result name b.cppParameters s)).callbacks = [b.callback.marked] := by
  rw [NativeClass.markedMember, callbacks_beside, callbacks_plain, callbacks_beside,
    callbacks_plain, b.callbacks_callback h hresult, List.nil_append, List.append_nil]

theorem callbacks_destructor (c : NativeClass) {s : Code.Statement}
    (h : s.call? [] = some b.farewell) (hresult : ¬ CallsBack s.expression.conversions) :
    (c.markedMember (.destructor s)).callbacks = [b.farewell.marked] := by
  rw [NativeClass.markedMember, callbacks_beside, callbacks_plain, callbacks_beside,
    callbacks_plain, b.callbacks_farewell h hresult, List.nil_append, List.append_nil]

/-- The line of a member has the call of which the body consists, and no other of the Go side. -/
theorem callbacks_markedMember (c : NativeClass) {member : ClassMember}
    (h : member ∈ b.nativeMembers) :
    (c.markedMember member).callbacks = (member.call?.map BodyCall.marked).toList := by
  cases hk : b.member.category with
  | constructor =>
    obtain rfl : member = .constructor b.cppParameters := by
      simpa [nativeMembers, publicMember?, signal?, slot?, hk] using h
    exact callbacks_plain _
  | destructor =>
    obtain rfl : member = .destructor (.run (.call b.callbackName [⟨"this", []⟩])) := by
      simpa [nativeMembers, publicMember?, signal?, slot?, hk] using h
    exact b.callbacks_destructor c rfl not_callsBack_nil
  | signal =>
    have hmember : member = .method "void" s!"Signal_{b.suffix}" b.cppParameters
        (.run ⟨b.callbackCall, []⟩) ∨ member = .signal b.member.name b.cppParameters := by
      simpa [nativeMembers, publicMember?, signal?, slot?, hk] using h
    rcases hmember with rfl | rfl
    · exact b.callbacks_method c rfl not_callsBack_nil
    · exact callbacks_plain _
  | slot =>
    cases hv : b.returnsValue with
    | true =>
      obtain rfl : member = .method b.result.cppType b.member.name b.cppParameters
          (.give ⟨b.callbackCall, b.result.cppFromC true⟩) := by
        simpa [nativeMembers, publicMember?, signal?, slot?, hk, hv] using h
      exact b.callbacks_method c rfl (b.result.not_callsBack_cppFromC true)
    | false =>
      obtain rfl : member = .method "void" b.member.name b.cppParameters
          (.run ⟨b.callbackCall, []⟩) := by
        simpa [nativeMembers, publicMember?, signal?, slot?, hk, hv] using h
      exact b.callbacks_method c rfl not_callsBack_nil

end Binding

theorem NativeClass.callbacks_members (c : NativeClass) {ms : List ClassMember}
    (h : ∀ m ∈ ms, (c.markedMember m).callbacks = (m.call?.map BodyCall.marked).toList) :
    (ms.map fun m => (c.markedMember m).indented).flatMap Marked.callbacks =
      (ms.filterMap ClassMember.call?).map BodyCall.marked := by
  induction ms with
  | nil => rfl
  | cons m ms ih =>
    rw [List.forall_mem_cons] at h
    rw [List.map_cons, List.flatMap_cons, ih h.2, callbacks_indented, h.1]
    cases hm : m.call? <;> simp [hm]

theorem NativeClass.callbacks_section (c : NativeClass) (label : String) {ms : List ClassMember}
    (h : ∀ m ∈ ms, (c.markedMember m).callbacks = (m.call?.map BodyCall.marked).toList) :
    (c.markedSection label ms).flatMap Marked.callbacks =
      (ms.filterMap ClassMember.call?).map BodyCall.marked := by
  cases ms with
  | nil => rfl
  | cons m ms =>
    rw [markedSection, List.flatMap_cons, callbacks_plain, List.nil_append]
    exact c.callbacks_members h

/-- The calls of functions of the Go side in the lines of a class are those of which the bodies of
its members consist. -/
theorem BoundClass.callbacks_native (c : BoundClass) :
    c.native.callbacks = c.native.calls.map BodyCall.marked := by
  have hcall : ∀ member ∈ c.native.members ++ c.native.signals ++ c.native.slots,
      (c.native.markedMember member).callbacks = (member.call?.map BodyCall.marked).toList := by
    intro member hmember
    have hbinding : ∃ b ∈ c.bindings, member ∈ b.nativeMembers := by
      simp only [native, List.mem_append, List.mem_filterMap] at hmember
      rcases hmember with (⟨b, hb, hm⟩ | ⟨b, hb, hm⟩) | ⟨b, hb, hm⟩ <;>
        exact ⟨b, hb, by simp [Binding.nativeMembers, hm]⟩
    obtain ⟨b, -, hm⟩ := hbinding
    exact b.callbacks_markedMember c.native hm
  simp only [List.forall_mem_append] at hcall
  obtain ⟨⟨hmembers, hsignals⟩, hslots⟩ := hcall
  rw [NativeClass.callbacks, NativeClass.marked, List.flatMap_append, List.flatMap_append,
    List.flatMap_append, List.flatMap_append, c.native.callbacks_members hmembers,
    c.native.callbacks_section _ hsignals, c.native.callbacks_section _ hslots, NativeClass.calls,
    List.filterMap_append, List.filterMap_append, List.map_append, List.map_append]
  simp

end Members

end Calls

end SignalBridge
