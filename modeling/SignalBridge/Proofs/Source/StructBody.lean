import Mathlib.Data.List.Forall2
import SignalBridge.Proofs.Source.Nested

namespace SignalBridge.Source

/-- The field without its place in the source. -/
def Field.unplaced (f : Field) : Field :=
  { f with span := ⟨0, 0⟩ }

/-- Lexemes that declare a field when they stand on a line of their own. -/
structure FieldLine (ls : List Lexeme) (field : Field) : Prop where
  enclosed : Enclosed false (ls.filterMap Lexeme.kind)
  token : ∃ l ∈ ls, l.kind.isSome
  reads : ∀ ts next, Spelled ls ts → ∃ f, Field.ofTokens ts next = .ok f ∧ f.unplaced = field

/-- The body, read field by field. -/
theorem structBody_eq (ts : List Token) : structBody ts =
    match dropSeparators ts with
    | [] => .error ⟨.closer .curly, none⟩
    | t :: rest =>
      if t.kind = .closer .curly then .ok ([], t, rest)
      else do
        let (taken, after) ← takeField t rest
        let field ← Field.ofTokens taken after.head?
        let (fields, brace, after) ← structBody after
        return (field :: fields, brace, after) := by
  rw [structBody]
  split
  · rename_i hd
    rw [hd]
  · rename_i t rest hd
    simp only [hd]
    split
    · rfl
    · split
      · rename_i hf
        rw [hf]
        rfl
      · rename_i hf
        rw [hf]
        rfl

section Reading

variable {t brace : Token} {ts rest : List Token} {line : List Lexeme} {ls : List Lexeme}
  {lines : List (List Lexeme)} {field : Field} {fields : List Field}

theorem structBody_brace (hd : dropSeparators ts = brace :: rest)
    (hb : brace.kind = .closer .curly) : structBody ts = .ok ([], brace, rest) := by
  simp only [structBody_eq ts, hd, hb, ↓reduceIte]

theorem structBody_takeField {us taken : List Token} (hd : dropSeparators ts = t :: us)
    (hb : t.kind ≠ .closer .curly) (h : takeField t us = .ok (taken, rest)) :
    structBody ts = do
      let field ← Field.ofTokens taken rest.head?
      let (fields, brace, after) ← structBody rest
      return (field :: fields, brace, after) := by
  simp only [structBody_eq ts, hd, hb, ↓reduceIte, h]
  rfl

theorem takeField_eq (h : t.kind.endsField = false) :
    takeField t ts = takeUntil Token.Kind.endsField [] (t :: ts) := by
  rw [takeUntil, h]
  rfl

theorem endsField_cases (k : Token.Kind) (h : k.endsField) :
    k.isSeparator ∨ ∃ d, k = .closer d := by
  simp only [Token.Kind.endsField, Bool.or_eq_true, decide_eq_true_eq] at h
  rcases h with h | h
  · exact .inl h
  · exact .inr ⟨_, h⟩

theorem endsField_eq_false {k : Token.Kind} (hs : k.isSeparator = false)
    (hc : k ≠ .closer .curly) : k.endsField = false := by
  simp [Token.Kind.endsField, hs, hc]

/-- The first of enclosed tokens ends no field. -/
theorem endsField_head (h : Enclosed false ((t :: ts).map Token.kind)) :
    t.kind.endsField = false := by
  rw [List.map_cons] at h
  generalize t.kind = k at h
  generalize ts.map Token.kind = ks at h
  cases h with
  | plain hs hd _ => exact endsField_eq_false (by simpa using hs) (hd .curly).2
  | group _ _ => rfl

/-- A line of the body is taken as one field. -/
theorem takeField_line (rest : List Token) (h : FieldLine line field) (hs : Spelled line ts)
    (ht : t.kind.isSeparator) : ∃ u us, ts = u :: us ∧ u.kind.endsField = false ∧
      takeField u (us ++ t :: rest) = .ok (ts, t :: rest) := by
  cases ts with
  | nil =>
    obtain ⟨l, hl, hk⟩ := h.token
    obtain ⟨k, hk⟩ := Option.isSome_iff_exists.mp hk
    have : k ∈ line.filterMap Lexeme.kind := List.mem_filterMap.mpr ⟨l, hl, hk⟩
    rw [← hs.kinds] at this
    simp at this
  | cons u us =>
    have henc := h.enclosed
    rw [← hs.kinds] at henc
    have hu := endsField_head henc
    have hstop : takeUntil Token.Kind.endsField [] (t :: rest) = .ok ([], t :: rest) := by
      rw [takeUntil, Token.Kind.endsField, ht]
      rfl
    refine ⟨u, us, rfl, hu, ?_⟩
    rw [takeField_eq hu, ← List.cons_append,
      takeUntil_enclosed henc rfl (.inr ⟨rfl, endsField_cases⟩), hstop]
    simp [Except.map]

/-- The lines of a struct after the line break behind its opening brace. -/
def bodyLines (lines : List (List Lexeme)) : List Lexeme :=
  .line :: lines.flatMap (· ++ [.line])

theorem bodyLines_cons (line : List Lexeme) (lines : List (List Lexeme)) :
    bodyLines (line :: lines) = .line :: (line ++ bodyLines lines) := by
  simp [bodyLines]

theorem written_bodyLines (lines : List (List Lexeme)) :
    written (bodyLines lines) = '\n' :: (lines.map written).flatMap (· ++ ['\n']) := by
  induction lines with
  | nil => rfl
  | cons line lines ih =>
    rw [bodyLines_cons, written_cons, written_append, ih]
    simp [Lexeme.line]

theorem spaced_bodyLines {rest : List Char}
    (h : ∀ line ∈ lines, ∀ rest, Spaced line ('\n' :: rest)) : Spaced (bodyLines lines) rest := by
  induction lines with
  | nil => exact ⟨readBefore_line, trivial⟩
  | cons line lines ih =>
    rw [bodyLines_cons]
    refine ⟨readBefore_line, ?_⟩
    rw [spaced_append]
    refine ⟨h line List.mem_cons_self _, ?_⟩
    apply ih
    intro l hl
    exact h l (List.mem_cons_of_mem _ hl)

/-- The fields of a struct are those of its lines. -/
theorem structBody_spelled (h : List.Forall₂ FieldLine lines fields)
    (hs : Spelled (bodyLines lines ++ .closer .curly :: ls) ts) :
    ∃ fs brace rest, structBody ts = .ok (fs, brace, rest) ∧ fs.map Field.unplaced = fields ∧
      Spelled ls rest := by
  induction h generalizing ts with
  | nil =>
    obtain ⟨t, ts, rfl, ht, -, hs⟩ := hs.token rfl
    obtain ⟨brace, rest, rfl, hb, -, hs⟩ := hs.token rfl
    refine ⟨[], brace, rest, structBody_brace ?_ hb, rfl, hs⟩
    simp [dropSeparators, ht, hb, Token.Kind.isSeparator]
  | @cons line field lines fields hl _ ih =>
    rw [bodyLines_cons, List.cons_append, List.append_assoc] at hs
    obtain ⟨t, ts, rfl, ht, -, hs⟩ := hs.token rfl
    obtain ⟨ts₁, ts₂, rfl, hs₁, hs₂⟩ := hs.append
    obtain ⟨fs, brace, rest, hfs, hmap, hrest⟩ := ih hs₂
    obtain ⟨t', ts₂, rfl, ht', -, -⟩ := hs₂.token rfl
    obtain ⟨u, us, rfl, hu, htake⟩ :=
      takeField_line ts₂ hl hs₁ (show t'.kind.isSeparator by rw [ht']; rfl)
    obtain ⟨f, hf, hunplaced⟩ := hl.reads _ (some t') hs₁
    simp only [Token.Kind.endsField, Bool.or_eq_false_iff, decide_eq_false_iff_not] at hu
    have hline : t.kind.isSeparator := by rw [ht]; rfl
    have hd : dropSeparators (t :: (u :: us ++ t' :: ts₂)) = u :: (us ++ t' :: ts₂) := by
      simp [dropSeparators, hline, hu.1]
    refine ⟨f :: fs, brace, rest, ?_, by rw [List.map_cons, hunplaced, hmap], hrest⟩
    rw [structBody_takeField hd hu.2 htake, List.head?_cons, hf, hfs]
    rfl

end Reading

end SignalBridge.Source
