import SignalBridge.Source.Fault
import SignalBridge.Text.Letter
import SignalBridge.Text.Number

/-!
Lexemes: a source text read from left to right as the longest pieces that are blank runs,
comments or tokens. Each piece is cut off the front of what is left (`next_append`), which is also
why the reader ends.
-/

namespace SignalBridge.Source

structure Lexeme where
  /-- The kind of token it is; blank runs and most comments are none. -/
  kind : Option Token.Kind
  text : List Char
deriving DecidableEq, Repr

namespace Lexeme

def isInlineBlank (c : Char) : Bool :=
  c = ' ' || c = '\t' || c = '\r' || c = '\x0c'

def isIdentStart (c : Char) : Bool :=
  Text.isLetter c || c = '_'

def isIdentPart (c : Char) : Bool :=
  Text.isLetter c || Text.isNumber c || c = '_'

/-- What may follow the first digit of a number; nothing here checks that the number makes sense. -/
def isNumberPart (c : Char) : Bool :=
  c.isAlphanum || c = '_' || c = '.'

/-- The tokens of one character. -/
def punctuation? (c : Char) : Option Token.Kind :=
  match c with
  | '(' => some (.opener .round)
  | ')' => some (.closer .round)
  | '{' => some (.opener .curly)
  | '}' => some (.closer .curly)
  | '[' => some (.opener .square)
  | ']' => some (.closer .square)
  | ',' => some .comma
  | ';' => some .semicolon
  | '.' => some .dot
  | '*' => some .star
  | c => if c ∈ ['+', '-', '/', '%', '&', '|', '^', '<', '>', '=', '!', ':', '~'] then some .op else none

/-- A block comment after its opening, up to and with its end, and what follows. -/
def blockComment? : List Char → Option (List Char × List Char)
  | '*' :: '/' :: cs => some (['*', '/'], cs)
  | c :: cs => (blockComment? cs).map fun (body, after) => (c :: body, after)
  | [] => none

/-- A literal after its opening quote, up to and with the closing one, and what follows. A
backslash takes the next character along; no line break may stand inside. -/
def quoted? (quote : Char) : List Char → Option (List Char × List Char)
  | [] => none
  | '\\' :: c :: cs =>
    if c = '\n' then none
    else (quoted? quote cs).map fun (body, after) => ('\\' :: c :: body, after)
  | c :: cs =>
    if c = quote then some ([c], cs)
    else if c = '\n' || c = '\\' then none
    else (quoted? quote cs).map fun (body, after) => (c :: body, after)

/-- The quote of raw strings, U+0060. -/
def rawQuote : Char := '\x60'

/-- A raw string after its opening quote, up to and with the closing one, and what follows. -/
def raw? : List Char → Option (List Char × List Char)
  | [] => none
  | c :: cs =>
    if c = rawQuote then some ([c], cs)
    else (raw? cs).map fun (body, after) => (c :: body, after)

/-- A literal of some kind, or the fault that it does not end. -/
def literal (kind : Token.Kind) (missing : LexCause) (tail : Option (List Char × List Char)) :
    Except LexCause (Option Token.Kind × List Char × List Char) :=
  match tail with
  | some (body, after) => .ok (some kind, body, after)
  | none => .error missing

/-- The lexeme that starts with `c`: its kind, its characters after `c`, and what follows it. A
block comment over a line break stands for that line break. -/
def next (c : Char) (cs : List Char) :
    Except LexCause (Option Token.Kind × List Char × List Char) :=
  if c = '\n' then .ok (some .newline, [], cs)
  else if isInlineBlank c then .ok (none, cs.takeWhile isInlineBlank, cs.dropWhile isInlineBlank)
  else if c = '/' ∧ cs.head? = some '/' then
    .ok (none, cs.takeWhile (· ≠ '\n'), cs.dropWhile (· ≠ '\n'))
  else if c = '/' ∧ cs.head? = some '*' then
    match blockComment? cs.tail with
    | some (body, after) =>
      .ok (if '\n' ∈ body then some .newline else none, '*' :: body, after)
    | none => .error .unterminatedComment
  else if c = '"' then literal .string .unterminatedString (quoted? c cs)
  else if c = '\'' then literal .rune .malformedRune (quoted? c cs)
  else if c = rawQuote then literal .rawString .unterminatedRawString (raw? cs)
  else if isIdentStart c then
    .ok (some (.ofWord (c :: cs.takeWhile isIdentPart)), cs.takeWhile isIdentPart,
      cs.dropWhile isIdentPart)
  else if c.isDigit then
    .ok (some .number, cs.takeWhile isNumberPart, cs.dropWhile isNumberPart)
  else
    match punctuation? c with
    | some kind => .ok (some kind, [], cs)
    | none => .error (.unexpected c)

theorem blockComment?_append {cs body after : List Char}
    (h : blockComment? cs = some (body, after)) : body ++ after = cs := by
  fun_induction blockComment? cs generalizing body with
  | case1 cs =>
    simp only [Option.some.injEq, Prod.mk.injEq] at h
    obtain ⟨rfl, rfl⟩ := h
    rfl
  | case2 c cs _ ih =>
    obtain ⟨⟨b, a⟩, hb, he⟩ := Option.map_eq_some_iff.1 h
    simp only [Prod.mk.injEq] at he
    obtain ⟨rfl, rfl⟩ := he
    simp [ih hb]
  | case3 => simp at h

theorem quoted?_append {quote : Char} {cs body after : List Char}
    (h : quoted? quote cs = some (body, after)) : body ++ after = cs := by
  fun_induction quoted? quote cs generalizing body with
  | case1 => simp at h
  | case2 => simp at h
  | case3 c cs _ ih =>
    obtain ⟨⟨b, a⟩, hb, he⟩ := Option.map_eq_some_iff.1 h
    simp only [Prod.mk.injEq] at he
    obtain ⟨rfl, rfl⟩ := he
    simp [ih hb]
  | case4 =>
    simp only [Option.some.injEq, Prod.mk.injEq] at h
    obtain ⟨rfl, rfl⟩ := h
    rfl
  | case5 => simp at h
  | case6 c cs _ _ _ ih =>
    obtain ⟨⟨b, a⟩, hb, he⟩ := Option.map_eq_some_iff.1 h
    simp only [Prod.mk.injEq] at he
    obtain ⟨rfl, rfl⟩ := he
    simp [ih hb]

theorem raw?_append {cs body after : List Char}
    (h : raw? cs = some (body, after)) : body ++ after = cs := by
  fun_induction raw? cs generalizing body with
  | case1 => simp at h
  | case2 =>
    simp only [Option.some.injEq, Prod.mk.injEq] at h
    obtain ⟨rfl, rfl⟩ := h
    rfl
  | case3 c cs _ ih =>
    obtain ⟨⟨b, a⟩, hb, he⟩ := Option.map_eq_some_iff.1 h
    simp only [Prod.mk.injEq] at he
    obtain ⟨rfl, rfl⟩ := he
    simp [ih hb]

theorem literal_append {kind : Token.Kind} {missing : LexCause} {cs : List Char}
    {tail : Option (List Char × List Char)} {k : Option Token.Kind} {taken after : List Char}
    (ht : ∀ body rest, tail = some (body, rest) → body ++ rest = cs)
    (h : literal kind missing tail = .ok (k, taken, after)) : taken ++ after = cs := by
  unfold literal at h
  split at h
  · rename_i body rest he
    simp only [Except.ok.injEq, Prod.mk.injEq] at h
    obtain ⟨-, rfl, rfl⟩ := h
    exact ht _ _ rfl
  · simp at h

/-- Nothing is lost: the rest of a lexeme and what follows it are the text given. -/
theorem next_append {c : Char} {cs taken after : List Char} {kind : Option Token.Kind}
    (h : next c cs = .ok (kind, taken, after)) : taken ++ after = cs := by
  unfold next at h
  split at h
  · simp_all
  split at h
  · simp only [Except.ok.injEq, Prod.mk.injEq] at h
    obtain ⟨-, rfl, rfl⟩ := h
    exact List.takeWhile_append_dropWhile
  split at h
  · simp only [Except.ok.injEq, Prod.mk.injEq] at h
    obtain ⟨-, rfl, rfl⟩ := h
    exact List.takeWhile_append_dropWhile
  split at h
  · rename_i hc
    split at h
    · rename_i body rest hb
      simp only [Except.ok.injEq, Prod.mk.injEq] at h
      obtain ⟨-, rfl, rfl⟩ := h
      have hcs : cs = '*' :: cs.tail := by
        cases cs <;> simp_all
      rw [hcs, List.cons_append, blockComment?_append hb]
    · simp at h
  split at h
  · exact literal_append (fun _ _ => quoted?_append) h
  split at h
  · exact literal_append (fun _ _ => quoted?_append) h
  split at h
  · exact literal_append (fun _ _ => raw?_append) h
  split at h
  · simp only [Except.ok.injEq, Prod.mk.injEq] at h
    obtain ⟨-, rfl, rfl⟩ := h
    exact List.takeWhile_append_dropWhile
  split at h
  · simp only [Except.ok.injEq, Prod.mk.injEq] at h
    obtain ⟨-, rfl, rfl⟩ := h
    exact List.takeWhile_append_dropWhile
  · split at h
    · simp_all
    · simp at h

theorem length_le_of_next {c : Char} {cs taken after : List Char} {kind : Option Token.Kind}
    (h : next c cs = .ok (kind, taken, after)) : after.length ≤ cs.length := by
  rw [← next_append h, List.length_append]
  exact Nat.le_add_left _ _

end Lexeme

/-- The lexemes of a text that starts at byte `offset`. -/
def lexemes (offset : Nat) (text : List Char) : Except LexFault (List Lexeme) :=
  match text with
  | [] => .ok []
  | c :: cs =>
    match _h : Lexeme.next c cs with
    | .error cause => .error ⟨offset, cause⟩
    | .ok (kind, taken, after) => do
      let ls ← lexemes (offset + byteLength (c :: taken)) after
      return ⟨kind, c :: taken⟩ :: ls
termination_by text.length
decreasing_by
  have := Lexeme.length_le_of_next ‹_›
  simp only [List.length_cons]
  omega

/-- The tokens among lexemes that start at byte `offset`, where `leading` is the blank text
before them. -/
def Token.ofLexemes (offset : Nat) (leading : List Char) : List Lexeme → List Token
  | [] => []
  | l :: ls =>
    match l.kind with
    | some kind =>
      ⟨kind, offset, leading, l.text⟩ :: ofLexemes (offset + byteLength l.text) [] ls
    | none => ofLexemes (offset + byteLength l.text) (leading ++ l.text) ls

def tokens (text : List Char) : Except LexFault (List Token) :=
  (lexemes 0 text).map (Token.ofLexemes 0 [])

/-- The tokens of a source file. -/
def tokenize (source : String) : Except ScanError (List Token) :=
  (tokens source.toList).mapError (.ofLexFault source.toList)

end SignalBridge.Source
