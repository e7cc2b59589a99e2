import Mathlib.Data.List.Basic
import SignalBridge.Proofs.Source.Nested
import SignalBridge.Proofs.Text.Blank

namespace SignalBridge.Source

open Text (Trimmed)

variable {ls ls' : List Lexeme} {l : Lexeme} {items : List (List Lexeme)} {rest : List Char}

/-- A token without blanks at its ends. -/
structure Lexeme.IsInk (l : Lexeme) : Prop where
  token : l.kind.isSome
  ne_nil : l.text ≠ []
  trimmed : Trimmed l.text

structure Inked (ls : List Lexeme) : Prop where
  head : ∃ l ∈ ls.head?, l.IsInk
  last : ∃ l ∈ ls.getLast?, l.IsInk

namespace Inked

theorem single (h : l.IsInk) : Inked [l] :=
  ⟨⟨l, rfl, h⟩, ⟨l, rfl, h⟩⟩

/-- Whatever stands between. -/
theorem span (ls : List Lexeme) (h : l.IsInk) (h' : Inked ls') : Inked (l :: (ls ++ ls')) := by
  obtain ⟨l', hl', hi'⟩ := h'.last
  have hlast : (l :: (ls ++ ls')).getLast? = some l' := by
    rw [← List.cons_append, List.getLast?_append, Option.mem_def.mp hl']
    rfl
  exact ⟨⟨l, rfl, h⟩, ⟨l', hlast, hi'⟩⟩

theorem cons (h : l.IsInk) (h' : Inked ls) : Inked (l :: ls) :=
  span [] h h'

theorem bounded (h : Inked ls) : Bounded ls := by
  obtain ⟨⟨l, hl, hi⟩, l', hl', hi'⟩ := h
  simp [Bounded, Option.mem_def.mp hl, Option.mem_def.mp hl', hi.token, hi'.token]

theorem ne_nil (h : Inked ls) : written ls ≠ [] := by
  obtain ⟨l, hl, hi⟩ := h.head
  obtain ⟨ls, rfl⟩ := List.head?_eq_some_iff.mp hl
  simp [hi.ne_nil]

theorem trimmed (h : Inked ls) : Trimmed (written ls) := by
  obtain ⟨⟨l, hl, hi⟩, l', hl', hi'⟩ := h
  constructor
  · obtain ⟨ls, rfl⟩ := List.head?_eq_some_iff.mp hl
    intro c hc
    rw [written_cons, List.head?_append_of_ne_nil _ hi.ne_nil] at hc
    exact hi.trimmed.head c hc
  · obtain ⟨ls, rfl⟩ := List.getLast?_eq_some_iff.mp hl'
    intro c hc
    rw [written_append, written_cons, written_nil, List.append_nil,
      List.getLast?_append_of_ne_nil _ hi'.ne_nil] at hc
    exact hi'.trimmed.last c hc

/-- Ink ends a run of blanks. -/
theorem endsBlank (h : Inked ls) : EndsBlank (written ls ++ rest) := by
  intro c hc
  rw [List.head?_append_of_ne_nil _ h.ne_nil] at hc
  have := h.trimmed.head c hc
  cases hb : Lexeme.isInlineBlank c with
  | false => rfl
  | true => simp [Text.isBlank_of_isInlineBlank hb] at this

end Inked

section Kinds

variable {text : List Char} {kind : Token.Kind} {c : Char}

theorem toNat_lt_of_isAlphanum (h : c.isAlphanum) : c.toNat < 0x80 := by
  rw [Char.isAlphanum, Bool.or_eq_true] at h
  rcases h with h | h
  · have := Pattern.isAlpha_iff.mp h
    omega
  · have hd : 48 ≤ c.toNat ∧ c.toNat ≤ 57 := Char.isDigit_iff_toNat.mp h
    omega

theorem isIdentPart_of_isAlphanum (h : c.isAlphanum) : Lexeme.isIdentPart c := by
  have hl := toNat_lt_of_isAlphanum h
  rw [Char.isAlphanum, Bool.or_eq_true] at h
  simpa [Lexeme.isIdentPart, Text.isLetter, Text.isNumber, hl] using .inl h

/-- The characters of a number are letters, digits, underscores and points. -/
theorem number_part (h : Pattern.number.Matches text) :
    ∀ c ∈ text, Lexeme.isIdentPart c ∨ c = '.' := by
  obtain ⟨d, ds, rfl, hd, hds⟩ := h
  intro c hc
  rcases List.mem_cons.mp hc with rfl | hc
  · exact .inl (isIdentPart_of_isAlphanum (by simp [Char.isAlphanum, hd]))
  · have := hds c hc
    simp only [Lexeme.isNumberPart, Bool.or_eq_true, decide_eq_true_eq] at this
    rcases this with (h | rfl) | rfl
    · exact .inl (isIdentPart_of_isAlphanum h)
    · exact .inl rfl
    · exact .inr rfl

theorem isInk_mark (h : Text.isBlank c = false) : (⟨some kind, [c]⟩ : Lexeme).IsInk :=
  ⟨rfl, List.cons_ne_nil _ _, by simpa using h, by simpa using h⟩

theorem isInk_of_parts (hn : text ≠ []) (h : ∀ c ∈ text, Lexeme.isIdentPart c ∨ c = '.') :
    (⟨some kind, text⟩ : Lexeme).IsInk := by
  have hb : ∀ c ∈ text, Text.isBlank c = false := by
    intro c hc
    rcases h c hc with hp | rfl
    · exact Text.isBlank_of_isIdentPart hp
    · rfl
  exact ⟨rfl, hn, fun c hc => hb c (List.mem_of_head? hc),
    fun c hc => hb c (List.mem_of_getLast? hc)⟩

theorem ident_keyword (k : Keyword) : Pattern.ident.Matches k.text.toList :=
  Pattern.keyword_matches_ident rfl

theorem isInk_word (h : Pattern.ident.Matches text) : (Lexeme.word text).IsInk :=
  isInk_of_parts h.ne_nil fun _ hc => .inl (isIdentPart_of_mem h hc)

theorem endsBlank_of_ident (h : Pattern.ident.Matches text) : EndsBlank (text ++ rest) := by
  have : EndsBlank (written [Lexeme.word text] ++ rest) :=
    (Inked.single (isInk_word h)).endsBlank
  simpa [Lexeme.word] using this

theorem isPlain_text (h : ∀ c ∈ text, Lexeme.isIdentPart c ∨ c = '.') :
    ∀ c ∈ text, Signature.opens c = false ∧ Signature.closes c = false ∧ c ≠ ',' := by
  intro c hc
  rcases h c hc with hp | rfl
  · have hne : ∀ d, Lexeme.isIdentPart d = false → c ≠ d := fun d => Text.isIdentPart_ne hp
    refine ⟨?_, ?_, hne ',' rfl⟩
    · simp [Signature.opens, hne '(' rfl, hne '[' rfl, hne '\x7b' rfl]
    · simp [Signature.closes, hne ')' rfl, hne ']' rfl, hne '\x7d' rfl]
  · decide

theorem isPlain_word (h : Pattern.ident.Matches text) : (Lexeme.word text).IsPlain where
  text := isPlain_text fun _ hc => .inl (isIdentPart_of_mem h hc)
  kind := by
    intro k hk
    obtain rfl : Token.Kind.ofWord text = k := Option.some.inj hk
    unfold Token.Kind.ofWord
    split
    · exact ⟨rfl, by simp⟩
    · exact ⟨rfl, by simp⟩

theorem isPlain_number (h : Pattern.number.Matches text) : (Lexeme.number text).IsPlain where
  text := isPlain_text (number_part h)
  kind := by simp [Lexeme.number, Token.Kind.isSeparator]

theorem isPlain_star : Lexeme.star.IsPlain where
  text := by simp [Lexeme.star, Signature.opens, Signature.closes]
  kind := by simp [Lexeme.star, Token.Kind.isSeparator]

theorem isPlain_dot : Lexeme.dot.IsPlain where
  text := by simp [Lexeme.dot, Signature.opens, Signature.closes]
  kind := by simp [Lexeme.dot, Token.Kind.isSeparator]

end Kinds

/-- A list is read item by item where its items are. -/
theorem spaced_listed (hi : ∀ i ∈ items, Inked i)
    (hs : ∀ i ∈ items, ∀ rest, EndsWord rest → Spaced i rest) (hr : EndsWord rest) :
    Spaced (listed items) rest := by
  induction items with
  | nil => exact spaced_nil rest
  | cons item items ih =>
    cases items with
    | nil => simpa [listed] using hs item List.mem_cons_self rest hr
    | cons item' items =>
      have hrest := ih (fun i h => hi i (List.mem_cons_of_mem _ h))
        (fun i h => hs i (List.mem_cons_of_mem _ h))
      rw [listed_cons_cons, spaced_append]
      refine ⟨hs item List.mem_cons_self _ (endsWord_cons.mpr rfl), readBefore_mark rfl,
        readBefore_blank rfl ?_, hrest⟩
      obtain ⟨more, hmore⟩ := listed_cons item' items
      rw [hmore, written_append, List.append_assoc]
      exact (hi item' (List.mem_cons_of_mem _ List.mem_cons_self)).endsBlank

end SignalBridge.Source
