import SignalBridge.Source.Lexeme

/-!
The token grammar, said without the reader: which texts each pattern matches, which pattern wins at
a place, and what it means to read a text from left to right as longest lexemes.
-/

namespace SignalBridge.Source

/-- The patterns a text is read by. Blank runs and line comments never become tokens. -/
inductive Pattern where
  | blank
  | lineComment
  | blockComment
  | newline
  | keyword (word : Keyword)
  | ident
  | number
  | string
  | rawString
  | rune
  | opener (d : Delimiter)
  | closer (d : Delimiter)
  | comma
  | semicolon
  | dot
  | star
  | op
deriving DecidableEq, Repr

def Delimiter.openChar : Delimiter → Char
  | round => '('
  | square => '['
  | curly => '\x7b'

def Delimiter.closeChar : Delimiter → Char
  | round => ')'
  | square => ']'
  | curly => '\x7d'

/-- The inside of a literal: a backslash takes the next character along, and neither the quote nor
a line break stands there unescaped. -/
inductive QuotedBody (quote : Char) : List Char → Prop where
  | nil : QuotedBody quote []
  | plain {c : Char} {cs : List Char} (notQuote : c ≠ quote) (notBackslash : c ≠ '\\')
      (notBreak : c ≠ '\n') (tail : QuotedBody quote cs) : QuotedBody quote (c :: cs)
  | escape {c : Char} {cs : List Char} (notBreak : c ≠ '\n')
      (tail : QuotedBody quote cs) : QuotedBody quote ('\\' :: c :: cs)

namespace Pattern

def opChars : List Char :=
  ['+', '-', '/', '%', '&', '|', '^', '<', '>', '=', '!', ':', '~']

/-- The texts of a pattern. A block comment ends at the first `*/` after its opening. -/
def Matches : Pattern → List Char → Prop
  | blank, text => text ≠ [] ∧ ∀ c ∈ text, Lexeme.isInlineBlank c
  | lineComment, text => ∃ body, text = '/' :: '/' :: body ∧ '\n' ∉ body
  | blockComment, text =>
    ∃ body, text = '/' :: '*' :: (body ++ ['*', '/']) ∧ ¬ ['*', '/'] <:+: body
  | newline, text => text = ['\n']
  | keyword word, text => text = word.text.toList
  | ident, text =>
    ∃ c cs, text = c :: cs ∧ Lexeme.isIdentStart c ∧ ∀ d ∈ cs, Lexeme.isIdentPart d
  | number, text => ∃ c cs, text = c :: cs ∧ c.isDigit ∧ ∀ d ∈ cs, Lexeme.isNumberPart d
  | string, text => ∃ body, text = '"' :: (body ++ ['"']) ∧ QuotedBody '"' body
  | rune, text => ∃ body, text = '\'' :: (body ++ ['\'']) ∧ QuotedBody '\'' body
  | rawString, text =>
    ∃ body, text = Lexeme.rawQuote :: (body ++ [Lexeme.rawQuote]) ∧ Lexeme.rawQuote ∉ body
  | opener d, text => text = [d.openChar]
  | closer d, text => text = [d.closeChar]
  | comma, text => text = [',']
  | semicolon, text => text = [';']
  | dot, text => text = ['.']
  | star, text => text = ['*']
  | op, text => ∃ c ∈ opChars, text = [c]

/-- The token a match becomes, if it becomes one. A block comment over a line break stands for
that line break. -/
def kind? : Pattern → List Char → Option Token.Kind
  | blank, _ => none
  | lineComment, _ => none
  | blockComment, text => if '\n' ∈ text then some .newline else none
  | newline, _ => some .newline
  | keyword word, _ => some (.keyword word)
  | ident, _ => some .ident
  | number, _ => some .number
  | string, _ => some .string
  | rune, _ => some .rune
  | rawString, _ => some .rawString
  | opener d, _ => some (.opener d)
  | closer d, _ => some (.closer d)
  | comma, _ => some .comma
  | semicolon, _ => some .semicolon
  | dot, _ => some .dot
  | star, _ => some .star
  | op, _ => some .op

/-- What may stand between tokens. -/
def IsGap (p : Pattern) (text : List Char) : Prop :=
  p = blank ∨ p = lineComment ∨ (p = blockComment ∧ '\n' ∉ text)

theorem isGap_of_kind_none {p : Pattern} {text : List Char} (h : p.kind? text = none) :
    p.IsGap text := by
  cases p <;> simp [kind?] at h
  · exact .inl rfl
  · exact .inr (.inl rfl)
  · exact .inr (.inr ⟨rfl, h⟩)

/-- Whether a lexeme `text` of the pattern may start before `rest`. Where `/*` stands only a block
comment does: one that never ends is no pair of operators. -/
def Starts (p : Pattern) (text rest : List Char) : Prop :=
  p.Matches text ∧ (['/', '*'] <+: text ++ rest → p = blockComment)

/-- The lexeme read where `text ++ rest` stands: none that starts there is longer, and the text of
a keyword is that keyword. -/
structure IsLongest (p : Pattern) (text rest : List Char) : Prop where
  starts : p.Starts text rest
  longest : ∀ q s t, s ++ t = text ++ rest → Starts q s t → s.length ≤ text.length
  keyword : ∀ word : Keyword, text = word.text.toList → p = .keyword word

theorem Matches.ne_nil {p : Pattern} {text : List Char} (h : p.Matches text) : text ≠ [] := by
  rintro rfl
  cases p <;> simp [Matches] at h
  case keyword word => cases word <;> simp [Keyword.text] at h

theorem IsLongest.ne_nil {p : Pattern} {text rest : List Char} (h : p.IsLongest text rest) :
    text ≠ [] :=
  h.starts.1.ne_nil

/-- Two longest lexemes at one place are the same text. -/
theorem IsLongest.unique {p q : Pattern} {s t s' t' : List Char} (h : p.IsLongest s t)
    (h' : q.IsLongest s' t') (he : s ++ t = s' ++ t') : s = s' ∧ t = t' := by
  have hl := h'.longest p s t he h.starts
  have hl' := h.longest q s' t' he.symm h'.starts
  exact List.append_inj he (Nat.le_antisymm hl hl')

end Pattern

/-- A piece of the text and the pattern it was read by. -/
abbrev Piece := Pattern × List Char

/-- `Reads text pieces rest`: from the left, `text` is read as longest lexemes up to `rest`. -/
inductive Reads : List Char → List Piece → List Char → Prop where
  | done {rest : List Char} : Reads rest [] rest
  | step {p : Pattern} {s t rest : List Char} {pieces : List Piece}
      (first : p.IsLongest s t) (tail : Reads t pieces rest) :
      Reads (s ++ t) ((p, s) :: pieces) rest

namespace Reads

theorem text_eq {text rest : List Char} {pieces : List Piece} (h : Reads text pieces rest) :
    text = pieces.flatMap Prod.snd ++ rest := by
  induction h with
  | done => rfl
  | step first tail ih => rw [List.flatMap_cons, List.append_assoc, ← ih]

theorem matches_of_mem {text rest : List Char} {pieces : List Piece}
    (h : Reads text pieces rest) : ∀ piece ∈ pieces, piece.1.Matches piece.2 := by
  induction h with
  | done => simp
  | step first tail ih =>
    intro piece hm
    rcases List.mem_cons.mp hm with rfl | hm
    · exact first.starts.1
    · exact ih piece hm

/-- A reading is cut after any of its pieces. -/
theorem of_append {text rest : List Char} {before after : List Piece}
    (h : Reads text (before ++ after) rest) :
    Reads text before (after.flatMap Prod.snd ++ rest) ∧
      Reads (after.flatMap Prod.snd ++ rest) after rest := by
  induction before generalizing text with
  | nil => exact ⟨h.text_eq ▸ .done, h.text_eq ▸ h⟩
  | cons piece before ih =>
    cases h with
    | step first tail => exact ⟨.step first (ih tail).1, (ih tail).2⟩

/-- The piece at any place of a reading is the longest lexeme there. -/
theorem isLongest_of_append {text rest : List Char} {before after : List Piece} {piece : Piece}
    (h : Reads text (before ++ piece :: after) rest) :
    piece.1.IsLongest piece.2 (after.flatMap Prod.snd ++ rest) := by
  obtain ⟨-, h⟩ := h.of_append
  generalize hs : (piece :: after).flatMap Prod.snd ++ rest = s at h
  cases h with
  | step first tail => exact tail.text_eq ▸ first

/-- What is read to the end cannot also be read to a place where no lexeme starts. -/
theorem not_stuck {text rest : List Char} {pieces all : List Piece} (h : Reads text pieces rest)
    (stuck : rest ≠ [] ∧ ∀ p s t, s ++ t = rest → ¬ Pattern.Starts p s t) :
    ¬ Reads text all [] := by
  induction h generalizing all with
  | done =>
    intro ha
    generalize he : ([] : List Char) = e at ha
    cases ha with
    | done => exact stuck.1 he.symm
    | step first tail => exact stuck.2 _ _ _ rfl first.starts
  | @step p s t rest pieces first tail ih =>
    intro ha
    generalize hs : s ++ t = text at ha
    cases ha with
    | done => exact first.ne_nil (List.append_eq_nil_iff.mp hs).1
    | step first' tail' =>
      obtain ⟨-, rfl⟩ := first.unique first' hs
      exact ih stuck tail'

end Reads

end SignalBridge.Source
