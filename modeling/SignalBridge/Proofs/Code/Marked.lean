import SignalBridge.Code.Expression

/-!
Lines of generated code with the calls in them told from the rest. Printed, such a line is the line
that the file has (`Statement.text_marked`); the names between the calls are whatever the classes
bring along, so from a text alone the calls could not be read.
-/

namespace SignalBridge.Code

/-- A part of a line. -/
inductive Marked where
  | plain (text : String)
  | beside (left right : Marked)
  | call (function : String) (arguments : List Marked)

/-- A call in a line. -/
structure MarkedCall where
  function : String
  arguments : List Marked

namespace Marked

mutual

/-- The part as it is printed. -/
def text : Marked → String
  | plain text => text
  | beside left right => left.text ++ right.text
  | call function arguments => function ++ "(" ++ ", ".intercalate (texts arguments) ++ ")"

def texts : List Marked → List String
  | [] => []
  | m :: ms => m.text :: texts ms

end

mutual

/-- The calls in a part, each before those in its arguments. -/
def calls : Marked → List MarkedCall
  | plain _ => []
  | beside left right => left.calls ++ right.calls
  | call function arguments => ⟨function, arguments⟩ :: callsIn arguments

def callsIn : List Marked → List MarkedCall
  | [] => []
  | m :: ms => m.calls ++ callsIn ms

end

/-- A line one level further in. -/
def indented (m : Marked) : Marked :=
  beside (plain "\t") m

variable (t function : String) (left right m : Marked) (ms : List Marked)

theorem texts_eq : texts ms = ms.map text := by
  induction ms with
  | nil => rfl
  | cons m ms ih => rw [texts, List.map_cons, ih]

theorem callsIn_eq : callsIn ms = ms.flatMap calls := by
  induction ms with
  | nil => rfl
  | cons m ms ih => rw [callsIn, List.flatMap_cons, ih]

@[simp] theorem text_plain : (plain t).text = t := by rw [text]

@[simp] theorem text_beside : (beside left right).text = left.text ++ right.text := by rw [text]

@[simp] theorem text_call : (call function ms).text =
    function ++ "(" ++ ", ".intercalate (ms.map text) ++ ")" := by
  rw [text, texts_eq]

@[simp] theorem text_indented : m.indented.text = "\t" ++ m.text := by
  rw [indented, text_beside, text_plain]

theorem map_text_plain (texts : List String) : (texts.map plain).map text = texts := by
  simp [List.map_map, Function.comp_def]

theorem map_text_indented : (ms.map indented).map text = indent (ms.map text) := by
  simp [indent]

@[simp] theorem calls_plain : (plain t).calls = [] := by rw [calls]

@[simp] theorem calls_beside : (beside left right).calls = left.calls ++ right.calls := by
  rw [calls]

@[simp] theorem calls_call : (call function ms).calls = ⟨function, ms⟩ :: ms.flatMap calls := by
  rw [calls, callsIn_eq]

@[simp] theorem calls_indented : m.indented.calls = m.calls := by
  rw [indented, calls_beside, calls_plain, List.nil_append]

end Marked

def Conversion.marked (value : Marked) : Conversion → Marked
  | call function => .call function [value]
  | method name => .beside value (.plain ("." ++ name ++ "()"))
  | mark sign => .beside (.plain sign) value
  | nonzero => .beside value (.plain " != 0")

def Argument.marked (a : Argument) : Marked :=
  a.conversions.foldl Conversion.marked (.plain a.name)

def Subject.marked : Subject → Marked
  | named name => .plain name
  | call function arguments => .call function (arguments.map Argument.marked)

def Expression.marked (e : Expression) : Marked :=
  e.conversions.foldl Conversion.marked e.subject.marked

def Statement.marked : Statement → Marked
  | run e => e.marked
  | give e => .beside (.plain "return ") e.marked

section Printing

/-- Conversions are printed around what they convert. -/
theorem text_conversions (conversions : List Conversion) (value : Marked) :
    (conversions.foldl Conversion.marked value).text =
      conversions.foldl Conversion.apply value.text := by
  induction conversions generalizing value with
  | nil => rfl
  | cons c cs ih =>
    have hc : (c.marked value).text = c.apply value.text := by
      cases c <;> simp [Conversion.marked, Conversion.apply, toString, String.append_assoc]
    rw [List.foldl_cons, List.foldl_cons, ih, hc]

theorem Argument.text_marked (a : Argument) : a.marked.text = a.text := by
  rw [marked, text_conversions, Marked.text_plain, text]

theorem Subject.text_marked (s : Subject) : s.marked.text = s.text := by
  cases s with
  | named name => exact Marked.text_plain name
  | call function arguments =>
    have harguments :
        (arguments.map Argument.marked).map Marked.text = arguments.map Argument.text := by
      rw [List.map_map]
      exact List.map_congr_left fun a _ => a.text_marked
    rw [marked, Marked.text_call, harguments]
    rfl

theorem Expression.text_marked (e : Expression) : e.marked.text = e.text := by
  rw [marked, text_conversions, e.subject.text_marked, text]

@[simp] theorem Statement.text_marked (s : Statement) : s.marked.text = s.text := by
  cases s with
  | run e => exact e.text_marked
  | give e => rw [marked, Marked.text_beside, Marked.text_plain, e.text_marked, text]

end Printing

section Calls

/-- The function of which the conversion is a call. -/
def Conversion.function? : Conversion → Option String
  | call function => some function
  | method _ | mark _ | nonzero => none

/-- Conversions call nothing but their own functions. -/
theorem Conversion.filter_calls {p : String → Bool} {conversions : List Conversion}
    (h : ∀ f ∈ conversions.filterMap Conversion.function?, p f = false) (value : Marked) :
    (conversions.foldl Conversion.marked value).calls.filter (fun c => p c.function) =
      value.calls.filter fun c => p c.function := by
  induction conversions generalizing value with
  | nil => rfl
  | cons c cs ih =>
    rw [List.foldl_cons]
    cases c with
    | call f =>
      simp only [List.filterMap_cons, function?, List.forall_mem_cons] at h
      rw [ih h.2, Conversion.marked, Marked.calls_call, List.filter_cons_of_neg (by simp [h.1]),
        List.flatMap_singleton]
    | method name | mark sign | nonzero =>
      simp only [List.filterMap_cons, function?] at h
      rw [ih h]
      simp [Conversion.marked]

end Calls

end SignalBridge.Code
