import Mathlib.Data.List.Basic
import SignalBridge.Proofs.Source.Tokenization
import SignalBridge.Proofs.Source.Spelling

/-!
How far the reader of lexemes looks ahead: one character past a lexeme. So a text that is read to
its end is read the same before another text, if it ends with a line break or a blank follows.
-/

namespace SignalBridge.Source

variable {l : Lexeme} {ls : List Lexeme} {c : Char} {taken rest rest' text : List Char}

/-- A character that ends every token before it. -/
def breaksToken (c : Char) : Bool :=
  Lexeme.isInlineBlank c || c = '\n'

theorem split_of_takeWhile {p : Char → Bool} (h : (taken ++ rest).takeWhile p = taken) :
    (∀ c ∈ taken, p c) ∧ ∀ c ∈ rest.head?, p c = false := by
  induction taken with
  | nil =>
    refine ⟨by simp, ?_⟩
    intro c hc
    obtain ⟨more, rfl⟩ := List.head?_eq_some_iff.mp hc
    rw [List.nil_append, List.takeWhile_cons] at h
    split at h
    · cases h
    · simpa using ‹¬ p c = true›
  | cons d taken ih =>
    rw [List.cons_append, List.takeWhile_cons] at h
    split at h
    · obtain ⟨ht, hr⟩ := ih (List.cons.inj h).2
      exact ⟨List.forall_mem_cons.mpr ⟨‹_›, ht⟩, hr⟩
    · cases h

theorem breaksToken_cases (h : breaksToken c) :
    Lexeme.isIdentPart c = false ∧ Lexeme.isNumberPart c = false ∧ c ≠ '/' ∧ c ≠ '*' := by
  simp only [breaksToken, Lexeme.isInlineBlank, Bool.or_eq_true, decide_eq_true_eq] at h
  rcases h with (((rfl | rfl) | rfl) | rfl) | rfl <;> decide

/-- A reader of runs stops at the same place. -/
theorem run_congr {p : Char → Bool} (ht : (taken ++ rest).takeWhile p = taken)
    (hh : ∀ c ∈ rest'.head?, c ∈ rest.head? ∨ p c = false) :
    (taken ++ rest').takeWhile p = taken ∧ (taken ++ rest').dropWhile p = rest' := by
  obtain ⟨hall, hr⟩ := split_of_takeWhile ht
  exact takeWhile_append_of_head hall fun c hc => (hh c hc).elim (hr c) id

theorem quoted?_congr {quote : Char} (hq : quote ≠ '\\')
    (h : Lexeme.quoted? quote (taken ++ rest) = some (taken, rest)) :
    Lexeme.quoted? quote (taken ++ rest') = some (taken, rest') := by
  obtain ⟨body, rfl, hb⟩ := Lexeme.quoted?_body h
  rw [List.append_assoc]
  exact Lexeme.quoted?_complete hq hb

theorem raw?_congr (h : Lexeme.raw? (taken ++ rest) = some (taken, rest)) :
    Lexeme.raw? (taken ++ rest') = some (taken, rest') := by
  obtain ⟨body, rfl, hb⟩ := Lexeme.raw?_body h
  rw [List.append_assoc]
  exact Lexeme.raw?_complete hb

theorem blockComment?_congr (h : Lexeme.blockComment? (taken ++ rest) = some (taken, rest)) :
    Lexeme.blockComment? (taken ++ rest') = some (taken, rest') := by
  obtain ⟨body, rfl, hb⟩ := Lexeme.blockComment?_body h
  rw [List.append_assoc]
  exact Lexeme.blockComment?_complete hb

/-- `rest'` may follow where `rest` does: it is empty, it starts with the same character, or with
one that ends the token before it. -/
def MayFollow (kind : Option Token.Kind) (rest rest' : List Char) : Prop :=
  ∀ c ∈ rest'.head?, c ∈ rest.head? ∨ kind.isSome ∧ breaksToken c

theorem read_slash_op (hs : rest.head? ≠ some '/') (hb : rest.head? ≠ some '*') :
    Lead.read .slash c rest = .ok (some .op, [], rest) :=
  Lead.read.eq_5 c rest (fun _ h => hs (h ▸ rfl)) (fun _ h => hb (h ▸ rfl))

theorem read_slash_congr {kind : Option Token.Kind}
    (h : Lead.read .slash c (taken ++ rest) = .ok (kind, taken, rest))
    (hf : MayFollow kind rest rest') :
    Lead.read .slash c (taken ++ rest') = .ok (kind, taken, rest') := by
  cases taken with
  | nil =>
    rw [List.nil_append] at h
    have hs : rest.head? ≠ some '/' := by
      intro hd
      obtain ⟨us, rfl⟩ := List.head?_eq_some_iff.mp hd
      simp [Lead.read] at h
    have hb : rest.head? ≠ some '*' := by
      intro hd
      obtain ⟨us, rfl⟩ := List.head?_eq_some_iff.mp hd
      simp only [Lead.read] at h
      split at h
      · simp at h
      · cases h
    rw [read_slash_op hs hb] at h
    have hne : ∀ d ∈ rest'.head?, d ≠ '/' ∧ d ≠ '*' := by
      intro d hd
      rcases hf d hd with he | ⟨-, he⟩
      · exact ⟨fun e => hs (e ▸ he), fun e => hb (e ▸ he)⟩
      · exact (breaksToken_cases he).2.2
    cases h
    exact read_slash_op (fun e => (hne '/' e).1 rfl) (fun e => (hne '*' e).2 rfl)
  | cons d taken =>
    rw [List.cons_append] at h ⊢
    by_cases hs : d = '/'
    · subst hs
      simp only [Lead.read, Except.ok.injEq, Prod.mk.injEq, List.cons.injEq, true_and] at h ⊢
      obtain ⟨rfl, htake, -⟩ := h
      exact ⟨rfl, run_congr htake fun c hc => (hf c hc).imp_right (by simp)⟩
    by_cases hb : d = '*'
    · subst hb
      simp only [Lead.read] at h ⊢
      split at h
      · rename_i body after hblock
        simp only [Except.ok.injEq, Prod.mk.injEq, List.cons.injEq, true_and] at h
        obtain ⟨rfl, rfl, rfl⟩ := h
        rw [blockComment?_congr hblock]
      · cases h
    rw [read_slash_op (by simpa using hs) (by simpa using hb)] at h
    simp at h

theorem literal_congr {k : Token.Kind} {kind : Option Token.Kind} {missing : LexCause}
    {tail : List Char → Option (List Char × List Char)}
    (ht : tail (taken ++ rest) = some (taken, rest) → tail (taken ++ rest') = some (taken, rest'))
    (h : Lexeme.literal k missing (tail (taken ++ rest)) = .ok (kind, taken, rest)) :
    Lexeme.literal k missing (tail (taken ++ rest')) = .ok (kind, taken, rest') := by
  obtain ⟨rfl, htail⟩ := literal_eq_ok h
  rw [ht htail]
  rfl

/-- A lexeme is read the same before any text that may follow it. -/
theorem Lexeme.ReadBefore.congr (h : l.ReadBefore rest) (hf : MayFollow l.kind rest rest') :
    l.ReadBefore rest' := by
  obtain ⟨c, taken, ht, hn⟩ := h
  refine ⟨c, taken, ht, ?_⟩
  rw [Lexeme.next_eq_read] at hn ⊢
  generalize Lead.of c = lead at hn
  generalize l.kind = kind at hn hf
  cases lead with
  | newline =>
    cases taken with
    | nil => cases hn; rfl
    | cons d taken => cases hn
  | blank =>
    simp only [Lead.read, Except.ok.injEq, Prod.mk.injEq] at hn ⊢
    obtain ⟨rfl, htake, -⟩ := hn
    exact ⟨rfl, run_congr htake fun c hc => (hf c hc).imp_right (by simp)⟩
  | slash => exact read_slash_congr hn hf
  | quote => exact literal_congr (quoted?_congr (by decide)) hn
  | tick => exact literal_congr (quoted?_congr (by decide)) hn
  | rawQuote => exact literal_congr raw?_congr hn
  | word =>
    simp only [Lead.read, Except.ok.injEq, Prod.mk.injEq] at hn ⊢
    obtain ⟨rfl, htake, -⟩ := hn
    have := run_congr htake fun c hc => (hf c hc).imp_right fun h => (breaksToken_cases h.2).1
    exact ⟨by rw [htake, this.1], this⟩
  | digit =>
    simp only [Lead.read, Except.ok.injEq, Prod.mk.injEq] at hn ⊢
    obtain ⟨rfl, htake, -⟩ := hn
    exact ⟨rfl, run_congr htake fun c hc =>
      (hf c hc).imp_right fun h => (breaksToken_cases h.2).2.1⟩
  | mark kind' =>
    cases taken with
    | nil => cases hn; rfl
    | cons d taken => cases hn
  | nothing => cases hn

/-- Lexemes are read the same before any text that may follow the last of them. -/
theorem Spaced.congr (h : Spaced ls rest)
    (hf : ∀ l ∈ ls.getLast?, MayFollow l.kind rest rest') : Spaced ls rest' := by
  induction ls with
  | nil => trivial
  | cons l ls ih =>
    obtain ⟨hl, hs⟩ := h
    cases ls with
    | nil => exact ⟨hl.congr (hf l rfl), trivial⟩
    | cons k ls =>
      refine ⟨hl.congr ?_, ih hs hf⟩
      obtain ⟨c, taken, hk, -⟩ := hs.1
      intro d hd
      rw [written_cons, hk] at hd ⊢
      exact .inl hd

/-- What the reader of lexemes reads to the end is how they were written. -/
theorem spaced_of_lexemes {offset : Nat} (h : lexemes offset text = .ok ls) :
    written ls = text ∧ Spaced ls [] := by
  fun_induction lexemes offset text generalizing ls with
  | case1 =>
    cases h
    exact ⟨rfl, trivial⟩
  | case2 => cases h
  | case3 offset c cs kind taken after hn ih =>
    obtain ⟨rest, hr, h⟩ := bind_eq_ok_iff.mp h
    cases h
    obtain ⟨hw, hs⟩ := ih hr
    have happend := Lexeme.next_append hn
    rw [written_cons, hw, List.cons_append, happend]
    refine ⟨rfl, ⟨c, taken, rfl, ?_⟩, hs⟩
    rw [hw, List.append_nil, happend]
    exact hn

/-- A lexeme that ends with a line break is that line break. -/
theorem Pattern.Matches.eq_newline {p : Pattern} (h : p.Matches text)
    (hl : text.getLast? = some '\n') : p = .newline := by
  have hmem : '\n' ∈ text := List.mem_of_getLast? hl
  cases p with
  | newline => rfl
  | blank => exact absurd (h.2 _ hmem) (by decide)
  | lineComment =>
    obtain ⟨body, rfl, hb⟩ := h
    simp [hb] at hmem
  | keyword word =>
    obtain rfl := h
    cases word <;> simp [Keyword.text] at hmem
  | ident =>
    exact absurd (isIdentPart_of_mem h hmem) (by decide)
  | number =>
    obtain ⟨c, cs, rfl, hc, hcs⟩ := h
    rcases List.mem_cons.mp hmem with rfl | hmem
    · simp at hc
    · exact absurd (hcs _ hmem) (by decide)
  | blockComment | string | rawString | rune =>
    obtain ⟨body, rfl, -⟩ := h
    simp [List.getLast?_cons, Lexeme.rawQuote] at hl
  | opener d | closer d =>
    obtain rfl := h
    cases d <;> simp [Delimiter.openChar, Delimiter.closeChar] at hmem
  | comma | semicolon | dot | star =>
    obtain rfl := h
    simp at hmem
  | op =>
    obtain ⟨c, hc, rfl⟩ := h
    obtain rfl := List.mem_singleton.mp hmem
    exact absurd hc (by decide)

/-- Where a text ends with a line break, its last lexeme is that line break. -/
theorem Spaced.eq_append_line (h : Spaced ls []) (hl : (written ls).getLast? = some '\n') :
    ∃ init, ls = init ++ [.line] := by
  rcases List.eq_nil_or_concat ls with rfl | ⟨init, l, rfl⟩
  · simp at hl
  · rw [List.concat_eq_append] at h hl ⊢
    obtain ⟨-, ⟨c, taken, ht, hn⟩, -⟩ := spaced_append.mp h
    obtain ⟨p, hlongest, hk⟩ := next_isLongest hn
    rw [← ht] at hlongest hk
    rw [written_append, written_cons, written_nil, List.append_nil,
      List.getLast?_append_of_ne_nil _ hlongest.ne_nil] at hl
    obtain rfl := hlongest.starts.1.eq_newline hl
    obtain ⟨kind, text⟩ := l
    obtain rfl : text = ['\n'] := hlongest.starts.1
    obtain rfl : some Token.Kind.newline = kind := hk
    exact ⟨init, rfl⟩

end SignalBridge.Source
