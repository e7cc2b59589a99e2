import SignalBridge.Bridge.HostFunction
import SignalBridge.Proofs.Code.Marked

namespace SignalBridge

open Code (Marked)

/-- A call in Go. -/
structure HostCall where
  function : String
  arity : Nat
deriving DecidableEq, Repr

def Code.Marked.hostCalls (m : Marked) : List HostCall :=
  m.calls.map fun c => ⟨c.function, c.arguments.length⟩

/-- The lines of a statement. -/
def HostStatement.marked : HostStatement → List Marked
  | act s => [s.marked]
  | assign name value => [.beside (.plain (name ++ " := ")) value.marked]
  | defer e => [.beside (.plain "defer ") e.marked]
  | declare name type => [.plain ("var " ++ name ++ " " ++ type)]
  | withHandler key s =>
    [.beside (.plain "if f, ok := ")
        (.beside (.call "mocCallback" [.plain "ptr", .plain ("\"" ++ key ++ "\"")])
          (.plain "; ok \x7b")),
      s.marked.indented, .plain "\x7d"]

namespace HostFunction

/-- The line before a function, if there is one. -/
def marker : HostFunction → List String
  | ⟨.bare, _, _, _, _⟩ => []
  | ⟨.remark text, _, _, _, _⟩ => ["// " ++ text]
  | ⟨.exported, name, _, _, _⟩ => ["//export " ++ name]

/-- The line that a function begins with. -/
def opening (g : HostFunction) : String :=
  "func " ++ g.name ++
    "(" ++ ", ".intercalate (g.parameters.map fun p => p.name ++ " " ++ p.type) ++ ")" ++
    (g.result.map fun type => " " ++ type).getD "" ++ " \x7b"

/-- The lines of a function. -/
def marked (g : HostFunction) : List Marked :=
  g.marker.map .plain ++ [.plain g.opening] ++
    (g.body.flatMap HostStatement.marked).map Marked.indented ++ [.plain "\x7d"]

end HostFunction

section Printing

theorem HostStatement.map_text_marked (s : HostStatement) : s.marked.map Marked.text = s.lines := by
  cases s with
  | act s => simp [marked, lines]
  | assign name value => simp [marked, lines, Code.Expression.text_marked, toString]
  | defer e => simp [marked, lines, Code.Expression.text_marked]
  | declare name type => simp [marked, lines, toString]
  | withHandler key s =>
    have hopening : "if f, ok := mocCallback(ptr, \"" ++ key ++ "\"); ok \x7b" =
        s!"if f, ok := mocCallback(ptr, {goQuoted key}); ok" ++ " \x7b" := by
      simp [← String.toList_inj, goQuoted, toString]
    have hmarked : "if f, ok := " ++ ("mocCallback(" ++ ("ptr, " ++ ("\"" ++ key ++ "\"")) ++ ")" ++
        "; ok \x7b") = "if f, ok := mocCallback(ptr, \"" ++ key ++ "\"); ok \x7b" := by
      simp [← String.toList_inj]
    simp [marked, lines, Code.block, Code.indent, ← hopening, hmarked]

theorem HostFunction.headingLines_eq (g : HostFunction) : g.headingLines = g.marker := by
  obtain ⟨heading, name, parameters, result, body⟩ := g
  cases heading <;> rfl

theorem HostFunction.map_text_marked (g : HostFunction) : g.marked.map Marked.text = g.lines := by
  have hbody : (g.body.flatMap HostStatement.marked).map Marked.text =
      g.body.flatMap HostStatement.lines := by
    simp only [List.map_flatMap, HostStatement.map_text_marked]
  rw [lines, marked, List.map_append, List.map_append, List.map_append, Marked.map_text_plain,
    Marked.map_text_indented, hbody, g.headingLines_eq, List.append_assoc, List.append_assoc]
  simp only [List.map_singleton, Marked.text_plain]
  rfl

end Printing

section Calls

def Code.Conversion.hostCall? : Conversion → Option HostCall
  | .call function => some ⟨function, 1⟩
  | .method _ | .mark _ | .nonzero => none

def Code.Argument.hostCalls (a : Argument) : List HostCall :=
  a.marked.hostCalls

def Code.Subject.hostCalls (s : Subject) : List HostCall :=
  s.marked.hostCalls

def Code.Expression.hostCalls (e : Expression) : List HostCall :=
  e.marked.hostCalls

def Code.Statement.hostCalls (s : Statement) : List HostCall :=
  s.marked.hostCalls

def HostStatement.hostCalls (s : HostStatement) : List HostCall :=
  s.marked.flatMap Marked.hostCalls

/-- The calls in the lines of a function. -/
def HostFunction.hostCalls (g : HostFunction) : List HostCall :=
  g.marked.flatMap Marked.hostCalls

variable (t name function type key : String) (left right m : Marked) (ms : List Marked)
  (arguments : List Code.Argument) (subject : Code.Subject) (conversions : List Code.Conversion)
  (e : Code.Expression) (s : Code.Statement)

@[simp] theorem Code.Marked.hostCalls_plain : (plain t).hostCalls = [] := by
  rw [hostCalls, calls_plain, List.map_nil]

@[simp] theorem Code.Marked.hostCalls_beside :
    (beside left right).hostCalls = left.hostCalls ++ right.hostCalls := by
  rw [hostCalls, calls_beside, List.map_append]
  rfl

@[simp] theorem Code.Marked.hostCalls_call :
    (call function ms).hostCalls = ⟨function, ms.length⟩ :: ms.flatMap hostCalls := by
  rw [hostCalls, calls_call, List.map_cons, List.map_flatMap]
  rfl

@[simp] theorem Code.Marked.hostCalls_indented : m.indented.hostCalls = m.hostCalls := by
  rw [hostCalls, calls_indented, hostCalls]

/-- The last conversion stands outermost. -/
theorem hostCalls_conversions : (conversions.foldl Code.Conversion.marked m).hostCalls =
    (conversions.filterMap Code.Conversion.hostCall?).reverse ++ m.hostCalls := by
  induction conversions generalizing m with
  | nil => rfl
  | cons c cs ih =>
    rw [List.foldl_cons, ih]
    cases c <;>
      simp [Code.Conversion.marked, Code.Conversion.hostCall?, List.filterMap_cons]

@[simp] theorem hostCall?_call : (Code.Conversion.call function).hostCall? = some ⟨function, 1⟩ :=
  rfl

@[simp] theorem hostCalls_argument : Code.Argument.hostCalls ⟨name, conversions⟩ =
    (conversions.filterMap Code.Conversion.hostCall?).reverse := by
  rw [Code.Argument.hostCalls, Code.Argument.marked, hostCalls_conversions,
    Code.Marked.hostCalls_plain, List.append_nil]

@[simp] theorem hostCalls_named : (Code.Subject.named name).hostCalls = [] :=
  Code.Marked.hostCalls_plain name

@[simp] theorem hostCalls_call : (Code.Subject.call function arguments).hostCalls =
    ⟨function, arguments.length⟩ :: arguments.flatMap Code.Argument.hostCalls := by
  rw [Code.Subject.hostCalls, Code.Subject.marked, Code.Marked.hostCalls_call, List.length_map,
    List.flatMap_map]
  rfl

@[simp] theorem hostCalls_converted : Code.Expression.hostCalls ⟨subject, conversions⟩ =
    (conversions.filterMap Code.Conversion.hostCall?).reverse ++ subject.hostCalls :=
  hostCalls_conversions subject.marked conversions

@[simp] theorem hostCalls_run : (Code.Statement.run e).hostCalls = e.hostCalls := rfl

@[simp] theorem hostCalls_give : (Code.Statement.give e).hostCalls = e.hostCalls := by
  rw [Code.Statement.hostCalls, Code.Statement.marked, Code.Marked.hostCalls_beside,
    Code.Marked.hostCalls_plain, List.nil_append]
  rfl

@[simp] theorem hostCalls_act : (HostStatement.act s).hostCalls = s.hostCalls := by
  simp [HostStatement.hostCalls, HostStatement.marked, Code.Statement.hostCalls]

@[simp] theorem hostCalls_assign : (HostStatement.assign name e).hostCalls = e.hostCalls := by
  simp [HostStatement.hostCalls, HostStatement.marked, Code.Expression.hostCalls]

@[simp] theorem hostCalls_defer : (HostStatement.defer e).hostCalls = e.hostCalls := by
  simp [HostStatement.hostCalls, HostStatement.marked, Code.Expression.hostCalls]

@[simp] theorem hostCalls_declare : (HostStatement.declare name type).hostCalls = [] := by
  simp [HostStatement.hostCalls, HostStatement.marked]

@[simp] theorem hostCalls_withHandler : (HostStatement.withHandler key s).hostCalls =
    ⟨"mocCallback", 2⟩ :: s.hostCalls := by
  simp [HostStatement.hostCalls, HostStatement.marked, Code.Statement.hostCalls]

/-- The calls of a function are those of its body. -/
theorem HostFunction.hostCalls_eq (g : HostFunction) :
    g.hostCalls = g.body.flatMap HostStatement.hostCalls := by
  have hmarker : (g.marker.map Marked.plain).flatMap Marked.hostCalls = [] := by
    simp [List.flatMap_map]
  rw [hostCalls, marked, List.flatMap_append, List.flatMap_append, List.flatMap_append, hmarker,
    List.flatMap_map]
  simp [List.flatMap_assoc]
  rfl

end Calls

end SignalBridge
