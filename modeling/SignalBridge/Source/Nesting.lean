import SignalBridge.Outcome
import SignalBridge.Source.Fault

/-!
Nesting of delimiters. Every part of the declaration reader that passes over tokens follows the
open delimiters with `Nesting.step`, so a file that is read has them balanced.
-/

namespace SignalBridge.Source

/-- The delimiters open at some place, innermost first. -/
abbrev Nesting := List Delimiter

/-- The nesting after one more token. -/
def Nesting.step (nesting : Nesting) (t : Token) : Except SyntaxFault Nesting :=
  match t.kind with
  | .opener d => .ok (d :: nesting)
  | .closer d =>
    match nesting with
    | [] => .error ⟨.declaration, some t⟩
    | innermost :: outer =>
      if d = innermost then .ok outer else .error ⟨.closer innermost, some t⟩
  | _ => .ok nesting

/-- Splits the tokens before the first one outside all delimiters that satisfies `stop`. -/
def takeUntil (stop : Token.Kind → Bool) :
    Nesting → List Token → Except SyntaxFault (List Token × List Token)
  | [], [] => .ok ([], [])
  | _ :: _, [] => .error ⟨.closingDelimiter, none⟩
  | nesting, t :: ts =>
    if nesting.isEmpty && stop t.kind then .ok ([], t :: ts)
    else do
      let nesting ← nesting.step t
      let (taken, rest) ← takeUntil stop nesting ts
      return (t :: taken, rest)

/-- Splits the tokens after the one that closes the outermost open delimiter. -/
def takeGroup : Nesting → List Token → Except SyntaxFault (List Token × List Token)
  | [], ts => .ok ([], ts)
  | _ :: _, [] => .error ⟨.closingDelimiter, none⟩
  | innermost :: outer, t :: ts => do
    let nesting ← Nesting.step (innermost :: outer) t
    let (taken, rest) ← takeGroup nesting ts
    return (t :: taken, rest)

theorem takeUntil_append {stop : Token.Kind → Bool} {nesting : Nesting}
    {ts taken rest : List Token} (h : takeUntil stop nesting ts = .ok (taken, rest)) :
    taken ++ rest = ts := by
  induction ts generalizing nesting taken with
  | nil =>
    cases nesting <;> simp [takeUntil] at h
    simp [h]
  | cons t ts ih =>
    rw [takeUntil] at h
    split at h
    · simp only [Except.ok.injEq, Prod.mk.injEq] at h
      simp [← h.1, ← h.2]
    · obtain ⟨_, -, h⟩ := bind_eq_ok_iff.1 h
      obtain ⟨⟨_, _⟩, hr, h⟩ := bind_eq_ok_iff.1 h
      simp only [pure_eq_ok, Except.ok.injEq, Prod.mk.injEq] at h
      obtain ⟨rfl, rfl⟩ := h
      rw [List.cons_append, ih hr]

theorem takeGroup_append {nesting : Nesting} {ts taken rest : List Token}
    (h : takeGroup nesting ts = .ok (taken, rest)) : taken ++ rest = ts := by
  induction ts generalizing nesting taken with
  | nil =>
    cases nesting <;> simp [takeGroup] at h
    simp [h]
  | cons t ts ih =>
    cases nesting with
    | nil =>
      simp only [takeGroup, Except.ok.injEq, Prod.mk.injEq] at h
      simp [← h.1, ← h.2]
    | cons d outer =>
      rw [takeGroup] at h
      obtain ⟨_, -, h⟩ := bind_eq_ok_iff.1 h
      obtain ⟨⟨_, _⟩, hr, h⟩ := bind_eq_ok_iff.1 h
      simp only [pure_eq_ok, Except.ok.injEq, Prod.mk.injEq] at h
      obtain ⟨rfl, rfl⟩ := h
      rw [List.cons_append, ih hr]

end SignalBridge.Source
