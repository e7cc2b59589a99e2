import SignalBridge.Proofs.Source.Spelling
import SignalBridge.Text.Blank

namespace SignalBridge.Text

variable {c : Char} {text : List Char}

/-- No white space at either end. -/
structure Trimmed (text : List Char) : Prop where
  head : ∀ c ∈ text.head?, isBlank c = false
  last : ∀ c ∈ text.getLast?, isBlank c = false

instance (text : List Char) : Decidable (Trimmed text) :=
  decidable_of_iff (text.head?.all (!isBlank ·) ∧ text.getLast?.all (!isBlank ·))
    ⟨fun h => ⟨by simpa [Option.all_eq_true] using h.1, by simpa [Option.all_eq_true] using h.2⟩,
      fun h => ⟨by simpa [Option.all_eq_true] using h.head,
        by simpa [Option.all_eq_true] using h.last⟩⟩

theorem trimStart_of_head (h : ∀ c ∈ text.head?, isBlank c = false) : trimStart text = text := by
  cases text with
  | nil => rfl
  | cons c cs => simp [trimStart, h c rfl]

theorem trimEnd_of_last (h : ∀ c ∈ text.getLast?, isBlank c = false) : trimEnd text = text := by
  rw [trimEnd, ← trimStart, trimStart_of_head (by simpa using h), List.reverse_reverse]

theorem trim_of_trimmed (h : Trimmed text) : trim text = text := by
  rw [trim, trimStart_of_head h.head, trimEnd_of_last h.last]

theorem trim_cons (h : isBlank c) : trim (c :: text) = trim text := by
  simp [trim, trimStart, h]

theorem isBlank_of_isInlineBlank (h : Source.Lexeme.isInlineBlank c) : isBlank c := by
  simp only [Source.Lexeme.isInlineBlank, Bool.or_eq_true, decide_eq_true_eq] at h
  rcases h with ((rfl | rfl) | rfl) | rfl <;> rfl

/-- No white space goes on with a word. -/
theorem isBlank_of_isIdentPart (h : Source.Lexeme.isIdentPart c) : isBlank c = false := by
  have htable : ∀ range ∈ blankRanges, ∀ n ∈ List.range' range.1 (range.2 - range.1 + 1),
      Source.Lexeme.isIdentPart (Char.ofNat n) = false := by
    decide +kernel
  cases hb : isBlank c with
  | false => rfl
  | true =>
    obtain ⟨range, hr, hc⟩ := List.any_eq_true.mp hb
    simp only [Bool.and_eq_true, decide_eq_true_eq] at hc
    have := htable range hr c.toNat (List.mem_range'_1.mpr ⟨hc.1, by omega⟩)
    rw [Char.ofNat_toNat, h] at this
    cases this

theorem isIdentPart_ne {d : Char} (h : Source.Lexeme.isIdentPart c)
    (hd : Source.Lexeme.isIdentPart d = false) : c ≠ d := by
  rintro rfl
  simp [h] at hd

/-- White space and nothing else. -/
def AllBlank (text : List Char) : Prop :=
  ∀ c ∈ text, isBlank c

instance (text : List Char) : Decidable (AllBlank text) :=
  decidable_of_iff (text.all isBlank) List.all_eq_true

section Trimming

variable {before after rest : List Char}

theorem trimStart_append (h : AllBlank before) (rest : List Char) :
    trimStart (before ++ rest) = trimStart rest := by
  induction before with
  | nil => rfl
  | cons c cs ih =>
    rw [List.cons_append, trimStart, List.dropWhile_cons, if_pos (h c List.mem_cons_self)]
    exact ih fun d hd => h d (List.mem_cons_of_mem _ hd)

theorem trimStart_allBlank (h : AllBlank text) : trimStart text = [] := by
  have he := trimStart_append h []
  rw [List.append_nil] at he
  exact he

theorem trimStart_cons (h : isBlank c = false) (rest : List Char) :
    trimStart (c :: rest) = c :: rest := by
  rw [trimStart, List.dropWhile_cons, h]
  rfl

/-- What stands before a character that is no white space is trimmed as if it stood alone. -/
theorem trimStart_append_cons (h : isBlank c = false) (text rest : List Char) :
    trimStart (text ++ c :: rest) = trimStart text ++ c :: rest := by
  induction text with
  | nil => exact trimStart_cons h rest
  | cons d ds ih =>
    rw [List.cons_append, trimStart, trimStart, List.dropWhile_cons, List.dropWhile_cons]
    split
    · exact ih
    · rfl

theorem AllBlank.reverse (h : AllBlank text) : AllBlank text.reverse :=
  fun c hc => h c (List.mem_reverse.mp hc)

theorem trimEnd_eq (text : List Char) : trimEnd text = (trimStart text.reverse).reverse := rfl

theorem trimEnd_append (h : AllBlank after) (text : List Char) :
    trimEnd (text ++ after) = trimEnd text := by
  rw [trimEnd_eq, List.reverse_append, trimStart_append h.reverse, trimEnd_eq]

theorem trimEnd_allBlank (h : AllBlank text) : trimEnd text = [] := by
  rw [trimEnd_eq, trimStart_allBlank h.reverse, List.reverse_nil]

theorem trimEnd_append_cons (h : isBlank c = false) (text rest : List Char) :
    trimEnd (text ++ c :: rest) = text ++ c :: trimEnd rest := by
  have hr : (text ++ c :: rest).reverse = rest.reverse ++ c :: text.reverse := by simp
  rw [trimEnd_eq, hr, trimStart_append_cons h, trimEnd_eq]
  simp

theorem allBlank_or_split (text : List Char) : AllBlank text ∨
    ∃ before c rest, AllBlank before ∧ isBlank c = false ∧ text = before ++ c :: rest := by
  induction text with
  | nil => exact .inl fun c hc => absurd hc List.not_mem_nil
  | cons c cs ih =>
    cases hc : isBlank c with
    | false => exact .inr ⟨[], c, cs, fun d hd => absurd hd List.not_mem_nil, hc, rfl⟩
    | true =>
      rcases ih with h | ⟨before, d, rest, hb, hd, rfl⟩
      · exact .inl (List.forall_mem_cons.mpr ⟨hc, h⟩)
      · exact .inr ⟨c :: before, d, rest, List.forall_mem_cons.mpr ⟨hc, hb⟩, hd, rfl⟩

/-- The ends may be trimmed in either order. -/
theorem trimStart_trimEnd (text : List Char) : trimStart (trimEnd text) = trim text := by
  rcases allBlank_or_split text with h | ⟨before, c, rest, hb, hc, rfl⟩
  · rw [trim, trimEnd_allBlank h, trimStart_allBlank h]
    rfl
  · rw [trim, trimEnd_append_cons hc, trimStart_append hb, trimStart_append hb,
      trimStart_cons hc, trimStart_cons hc]
    exact (trimEnd_append_cons hc [] rest).symm

theorem trim_eq_nil : trim text = [] ↔ AllBlank text := by
  constructor
  · intro h
    refine (allBlank_or_split text).resolve_right ?_
    rintro ⟨before, c, rest, hb, hc, rfl⟩
    rw [trim, trimStart_append hb, trimStart_cons hc] at h
    have := trimEnd_append_cons hc [] rest
    rw [List.nil_append, h] at this
    cases this
  · intro h
    rw [trim, trimStart_allBlank h]
    rfl

/-- White space around a text is trimmed with that at its ends. -/
theorem trim_append (hb : AllBlank before) (ha : AllBlank after) (text : List Char) :
    trim (before ++ (text ++ after)) = trim text := by
  rw [trim, trimStart_append hb, trim]
  rcases allBlank_or_split text with ht | ⟨start, c, rest, hs, hc, rfl⟩
  · rw [trimStart_append ht, trimStart_allBlank ha, trimStart_allBlank ht]
  · rw [List.append_assoc, trimStart_append hs, trimStart_append hs, List.cons_append,
      trimStart_cons hc, trimStart_cons hc, ← List.cons_append, trimEnd_append ha]

end Trimming

end SignalBridge.Text
