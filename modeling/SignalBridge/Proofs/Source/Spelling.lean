import SignalBridge.Outcome
import SignalBridge.Proofs.Source.NextLexeme

namespace SignalBridge.Source

namespace Lexeme

def word (text : List Char) : Lexeme :=
  ⟨some (.ofWord text), text⟩

def number (text : List Char) : Lexeme :=
  ⟨some .number, text⟩

def opener (d : Delimiter) : Lexeme :=
  ⟨some (.opener d), [d.openChar]⟩

def closer (d : Delimiter) : Lexeme :=
  ⟨some (.closer d), [d.closeChar]⟩

def comma : Lexeme := ⟨some .comma, [',']⟩

def dot : Lexeme := ⟨some .dot, ['.']⟩

def star : Lexeme := ⟨some .star, ['*']⟩

def space : Lexeme := ⟨none, [' ']⟩

def tab : Lexeme := ⟨none, ['\t']⟩

def line : Lexeme := ⟨some .newline, ['\n']⟩

/-- A raw string with its quotes. -/
def raw (body : List Char) : Lexeme :=
  ⟨some .rawString, rawQuote :: (body ++ [rawQuote])⟩

end Lexeme

/-- How lexemes are written. -/
def written (ls : List Lexeme) : List Char :=
  ls.flatMap Lexeme.text

@[simp] theorem written_nil : written [] = [] := rfl

@[simp] theorem written_cons (l : Lexeme) (ls : List Lexeme) :
    written (l :: ls) = l.text ++ written ls := rfl

@[simp] theorem written_append (ls ls' : List Lexeme) :
    written (ls ++ ls') = written ls ++ written ls' :=
  List.flatMap_append

theorem written_flatten (lss : List (List Lexeme)) :
    written lss.flatten = (lss.map written).flatten := by
  induction lss with
  | nil => rfl
  | cons ls lss ih => rw [List.flatten_cons, written_append, ih, List.map_cons, List.flatten_cons]

/-- Before `rest`, the reader reads just this lexeme. -/
def Lexeme.ReadBefore (l : Lexeme) (rest : List Char) : Prop :=
  ∃ c taken, l.text = c :: taken ∧ Lexeme.next c (taken ++ rest) = .ok (l.kind, taken, rest)

/-- Each lexeme is read as it is written before the ones after it, and the last before `rest`. -/
def Spaced : List Lexeme → List Char → Prop
  | [], _ => True
  | l :: ls, rest => l.ReadBefore (written ls ++ rest) ∧ Spaced ls rest

@[simp] theorem spaced_nil (rest : List Char) : Spaced [] rest := trivial

@[simp] theorem spaced_cons {l : Lexeme} {ls : List Lexeme} {rest : List Char} :
    Spaced (l :: ls) rest ↔ l.ReadBefore (written ls ++ rest) ∧ Spaced ls rest :=
  Iff.rfl

@[simp] theorem spaced_append {ls ls' : List Lexeme} {rest : List Char} :
    Spaced (ls ++ ls') rest ↔ Spaced ls (written ls' ++ rest) ∧ Spaced ls' rest := by
  induction ls with
  | nil => simp
  | cons l ls ih =>
    simp only [List.cons_append, spaced_cons, written_append, List.append_assoc, ih, and_assoc]

theorem lexemes_of_spaced {ls : List Lexeme} {offset : Nat} (h : Spaced ls []) :
    lexemes offset (written ls) = .ok ls := by
  induction ls generalizing offset with
  | nil => rw [written_nil, lexemes.eq_1]
  | cons l ls ih =>
    obtain ⟨⟨c, taken, ht, hn⟩, hs⟩ := h
    rw [List.append_nil] at hn
    rw [written_cons, ht, List.cons_append, lexemes.eq_2]
    split
    · rename_i cause he
      rw [hn] at he
      cases he
    · rename_i kind taken' after he
      rw [hn] at he
      cases he
      rw [ih hs, ← ht]
      rfl

section Reading

variable {c : Char} {text rest : List Char} {kind : Token.Kind}

open Pattern

theorem isIdentPart_of_isIdentStart (h : Lexeme.isIdentStart c) : Lexeme.isIdentPart c := by
  simp only [Lexeme.isIdentStart, Lexeme.isIdentPart, Bool.or_eq_true] at h ⊢
  rcases h with h | h
  · exact .inl (.inl h)
  · exact .inr h

theorem isIdentPart_of_mem (h : ident.Matches text) (hc : c ∈ text) : Lexeme.isIdentPart c := by
  obtain ⟨d, ds, rfl, hd, hds⟩ := h
  rcases List.mem_cons.mp hc with rfl | hc
  · exact isIdentPart_of_isIdentStart hd
  · exact hds c hc

/-- Nothing that stands here goes on with a word before it. -/
def EndsWord (rest : List Char) : Prop :=
  ∀ c ∈ rest.head?, Lexeme.isIdentPart c = false

@[simp] theorem endsWord_cons : EndsWord (c :: rest) ↔ Lexeme.isIdentPart c = false := by
  simp [EndsWord]

/-- Nothing that stands here goes on with the blanks before it. -/
def EndsBlank (rest : List Char) : Prop :=
  ∀ c ∈ rest.head?, Lexeme.isInlineBlank c = false

@[simp] theorem endsBlank_cons : EndsBlank (c :: rest) ↔ Lexeme.isInlineBlank c = false := by
  simp [EndsBlank]

theorem takeWhile_append_of_head {p : Char → Bool} (ht : ∀ c ∈ text, p c)
    (hr : ∀ c ∈ rest.head?, p c = false) :
    (text ++ rest).takeWhile p = text ∧ (text ++ rest).dropWhile p = rest := by
  rw [List.takeWhile_append_of_pos ht, List.dropWhile_append_of_pos ht]
  cases rest with
  | nil => simp
  | cons c rest => simp [hr c rfl]

theorem readBefore_word (h : ident.Matches text) (hr : EndsWord rest) :
    (Lexeme.word text).ReadBefore rest := by
  obtain ⟨c, cs, rfl, hc, hcs⟩ := h
  obtain ⟨ht, hd⟩ := takeWhile_append_of_head hcs hr
  refine ⟨c, cs, rfl, ?_⟩
  rw [Lexeme.next_eq_read, lead_of_identStart hc, Lead.read, ht, hd]
  rfl

theorem readBefore_number (h : Pattern.number.Matches text)
    (hr : ∀ c ∈ rest.head?, Lexeme.isNumberPart c = false) :
    (Lexeme.number text).ReadBefore rest := by
  obtain ⟨c, cs, rfl, hc, hcs⟩ := h
  obtain ⟨ht, hd⟩ := takeWhile_append_of_head hcs hr
  refine ⟨c, cs, rfl, ?_⟩
  rw [Lexeme.next_eq_read, lead_of_isDigit hc, Lead.read, ht, hd]
  rfl

theorem readBefore_mark (h : Lead.of c = .mark kind) :
    (⟨some kind, [c]⟩ : Lexeme).ReadBefore rest :=
  ⟨c, [], rfl, by rw [Lexeme.next_eq_read, h]; rfl⟩

theorem readBefore_blank (h : Lexeme.isInlineBlank c) (hr : EndsBlank rest) :
    (⟨none, [c]⟩ : Lexeme).ReadBefore rest := by
  obtain ⟨ht, hd⟩ := @takeWhile_append_of_head [] rest Lexeme.isInlineBlank (by simp) hr
  refine ⟨c, [], rfl, ?_⟩
  rw [Lexeme.next_eq_read, lead_of_isInlineBlank h, Lead.read, ht, hd]

theorem readBefore_line : Lexeme.line.ReadBefore rest :=
  ⟨'\n', [], rfl, rfl⟩

theorem readBefore_string {body : List Char} (h : QuotedBody '"' body) :
    (⟨some .string, '"' :: (body ++ ['"'])⟩ : Lexeme).ReadBefore rest := by
  refine ⟨'"', body ++ ['"'], rfl, ?_⟩
  rw [Lexeme.next_eq_read, List.append_assoc]
  change Lexeme.literal _ _ (Lexeme.quoted? '"' (body ++ '"' :: rest)) = _
  rw [Lexeme.quoted?_complete (by decide) h]
  rfl

theorem readBefore_raw {body : List Char} (h : Lexeme.rawQuote ∉ body) :
    (Lexeme.raw body).ReadBefore rest := by
  refine ⟨Lexeme.rawQuote, body ++ [Lexeme.rawQuote], rfl, ?_⟩
  rw [Lexeme.next_eq_read, List.append_assoc]
  change Lexeme.literal _ _ (Lexeme.raw? (body ++ Lexeme.rawQuote :: rest)) = _
  rw [Lexeme.raw?_complete h]
  rfl

end Reading

/-! The tokens among lexemes. -/

section Tokens

variable {offset : Nat} {leading : List Char} {ls ls' : List Lexeme} {l : Lexeme}
  {kind : Token.Kind} {ts : List Token}

/-- The tokens of lexemes somewhere in a source. -/
def Spelled (ls : List Lexeme) (ts : List Token) : Prop :=
  ∃ offset leading, ts = Token.ofLexemes offset leading ls

theorem ofLexemes_append (offset : Nat) (leading : List Char) (ls ls' : List Lexeme) :
    ∃ offset' leading',
    Token.ofLexemes offset leading (ls ++ ls') =
      Token.ofLexemes offset leading ls ++ Token.ofLexemes offset' leading' ls' := by
  induction ls generalizing offset leading with
  | nil => exact ⟨offset, leading, rfl⟩
  | cons l ls ih =>
    rw [List.cons_append, Token.ofLexemes, Token.ofLexemes]
    cases l.kind with
    | none => exact ih _ _
    | some kind =>
      obtain ⟨offset', leading', h⟩ := ih (offset + byteLength l.text) []
      exact ⟨offset', leading', by simp only [h, List.cons_append]⟩

theorem Spelled.append (h : Spelled (ls ++ ls') ts) :
    ∃ ts₁ ts₂, ts = ts₁ ++ ts₂ ∧ Spelled ls ts₁ ∧ Spelled ls' ts₂ := by
  obtain ⟨offset, leading, rfl⟩ := h
  obtain ⟨offset', leading', h⟩ := ofLexemes_append offset leading ls ls'
  exact ⟨_, _, h, ⟨_, _, rfl⟩, ⟨_, _, rfl⟩⟩

theorem Spelled.nil (h : Spelled [] ts) : ts = [] := by
  obtain ⟨_, _, rfl⟩ := h
  rfl

theorem Spelled.blank (h : Spelled (l :: ls) ts) (hk : l.kind = none) : Spelled ls ts := by
  obtain ⟨offset, leading, rfl⟩ := h
  refine ⟨offset + byteLength l.text, leading ++ l.text, ?_⟩
  rw [Token.ofLexemes, hk]

theorem Spelled.token (h : Spelled (l :: ls) ts) (hk : l.kind = some kind) :
    ∃ t ts', ts = t :: ts' ∧ t.kind = kind ∧ t.text = l.text ∧ Spelled ls ts' := by
  obtain ⟨offset, leading, rfl⟩ := h
  rw [Token.ofLexemes, hk]
  exact ⟨_, _, rfl, rfl, rfl, _, _, rfl⟩

theorem Spelled.kinds (h : Spelled ls ts) : ts.map Token.kind = ls.filterMap Lexeme.kind := by
  obtain ⟨offset, leading, rfl⟩ := h
  induction ls generalizing offset leading with
  | nil => rfl
  | cons l ls ih =>
    rw [Token.ofLexemes]
    cases hk : l.kind with
    | none =>
      rw [List.filterMap_cons_none hk]
      exact ih _ _
    | some kind =>
      rw [List.filterMap_cons_some hk, List.map_cons, ih]

/-- Up to a token at the end nothing of the source is lost. -/
theorem flatMap_ofLexemes (hl : l.kind.isSome) :
    (Token.ofLexemes offset leading (ls ++ [l])).flatMap (fun t => t.leading ++ t.text) =
      leading ++ written (ls ++ [l]) := by
  induction ls generalizing offset leading with
  | nil =>
    obtain ⟨kind, hk⟩ := Option.isSome_iff_exists.mp hl
    simp [Token.ofLexemes, hk]
  | cons k ls ih =>
    rw [List.cons_append, Token.ofLexemes]
    cases hk : k.kind with
    | none => simp only [ih, written_cons, List.append_assoc]
    | some kind =>
      simp only [List.flatMap_cons, ih, written_cons, List.nil_append, List.append_assoc]

/-- Lexemes with a token at each end. -/
def Bounded (ls : List Lexeme) : Prop :=
  ls.head?.any (·.kind.isSome) ∧ ls.getLast?.any (·.kind.isSome)

theorem Spelled.sourceText (h : Spelled ls ts) (hb : Bounded ls) :
    Token.sourceText ts = written ls := by
  obtain ⟨offset, leading, rfl⟩ := h
  obtain ⟨hhead, hlast⟩ := hb
  cases ls with
  | nil => simp at hhead
  | cons first rest =>
    obtain ⟨kind, hk⟩ := Option.isSome_iff_exists.mp (show first.kind.isSome by simpa using hhead)
    rw [Token.ofLexemes, hk]
    simp only [Token.sourceText, written_cons, List.append_cancel_left_eq]
    rcases List.eq_nil_or_concat rest with rfl | ⟨init, last, rfl⟩
    · rfl
    · have hl : last.kind.isSome := by simpa [List.getLast?_cons] using hlast
      simp only [List.concat_eq_append]
      rw [flatMap_ofLexemes hl, List.nil_append]

end Tokens

end SignalBridge.Source
