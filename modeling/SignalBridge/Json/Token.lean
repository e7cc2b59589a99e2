/-!
Tokens of a JSON text. The rules are strict: no comments, no byte-order mark, blanks are the four
of the standard, numbers have no leading zeros, strings no raw control characters.
-/

namespace SignalBridge.Json

inductive Token where
  | beginObject
  | endObject
  | beginArray
  | endArray
  | comma
  | colon
  | null
  | bool (b : Bool)
  | number (literal : String)
  | string (content : Option String)
deriving DecidableEq, Repr

namespace Token

def isBlank (c : Char) : Bool :=
  c = ' ' || c = '\t' || c = '\n' || c = '\r'

def hexValue? (c : Char) : Option Nat :=
  if c.isDigit then some (c.toNat - '0'.toNat)
  else if 'a' ≤ c ∧ c ≤ 'f' then some (c.toNat - 'a'.toNat + 10)
  else if 'A' ≤ c ∧ c ≤ 'F' then some (c.toNat - 'A'.toNat + 10)
  else none

/-- The number that hexadecimal digits write, the most significant first. -/
def hexNumber? (digits : List Char) : Option Nat := do
  let values ← digits.mapM hexValue?
  return values.foldl (fun n d => 16 * n + d) 0

/-- The escapes of two characters. -/
def shortEscape? (c : Char) : Option Char :=
  match c with
  | '"' => some '"'
  | '\\' => some '\\'
  | '/' => some '/'
  | 'b' => some '\x08'
  | 'f' => some '\x0c'
  | 'n' => some '\n'
  | 'r' => some '\r'
  | 't' => some '\t'
  | _ => none

/-- A piece of a string: a character, or an escaped half of a surrogate pair. -/
inductive Piece where
  | char (c : Char)
  | surrogate (unit : Nat)
deriving DecidableEq, Repr

def Piece.ofUnit (unit : Nat) : Piece :=
  if 0xD800 ≤ unit ∧ unit < 0xE000 then .surrogate unit else .char (Char.ofNat unit)

/-- The pieces of a string after its opening quote, and what follows the closing one. -/
def pieces? : List Char → Option (List Piece × List Char)
  | [] => none
  | '\\' :: 'u' :: a :: b :: c :: d :: cs => do
    let unit ← hexNumber? [a, b, c, d]
    let (ps, rest) ← pieces? cs
    return (.ofUnit unit :: ps, rest)
  | '\\' :: c :: cs => do
    let e ← shortEscape? c
    let (ps, rest) ← pieces? cs
    return (.char e :: ps, rest)
  | c :: cs =>
    if c = '"' then some ([], cs)
    else if c = '\\' ∨ c.toNat < 0x20 then none
    else do
      let (ps, rest) ← pieces? cs
      return (.char c :: ps, rest)

/-- Puts surrogate pairs together; `none` if a half stands alone. -/
def joinPieces? : List Piece → Option (List Char)
  | [] => some []
  | .char c :: ps => (joinPieces? ps).map (c :: ·)
  | .surrogate high :: .surrogate low :: ps =>
    if high < 0xDC00 ∧ 0xDC00 ≤ low then
      (joinPieces? ps).map (Char.ofNat (0x10000 + (high - 0xD800) * 0x400 + (low - 0xDC00)) :: ·)
    else none
  | .surrogate _ :: _ => none

/-- One digit or more, and what follows. -/
def digits? (cs : List Char) : Option (List Char × List Char) :=
  if (cs.takeWhile Char.isDigit).isEmpty then none
  else some (cs.takeWhile Char.isDigit, cs.dropWhile Char.isDigit)

/-- A whole part without leading zeros, and what follows. -/
def integer? : List Char → Option (List Char × List Char)
  | '0' :: cs => some (['0'], cs)
  | cs => digits? cs

/-- A fraction, which may be missing. -/
def fraction? : List Char → Option (List Char × List Char)
  | '.' :: cs => (digits? cs).map fun (ds, rest) => ('.' :: ds, rest)
  | cs => some ([], cs)

/-- The sign of an exponent, which may be missing. -/
def exponentSign : List Char → List Char × List Char
  | '+' :: cs => (['+'], cs)
  | '-' :: cs => (['-'], cs)
  | cs => ([], cs)

/-- An exponent, which may be missing. -/
def exponent? : List Char → Option (List Char × List Char)
  | [] => some ([], [])
  | c :: cs =>
    if c = 'e' ∨ c = 'E' then
      (digits? (exponentSign cs).2).map fun (ds, rest) => (c :: (exponentSign cs).1 ++ ds, rest)
    else some ([], c :: cs)

/-- A number, and what follows. -/
def number? (cs : List Char) : Option (List Char × List Char) := do
  let (sign, cs) := match cs with
    | '-' :: cs => (['-'], cs)
    | cs => ([], cs)
  let (whole, cs) ← integer? cs
  let (fraction, cs) ← fraction? cs
  let (exponent, cs) ← exponent? cs
  return (sign ++ whole ++ fraction ++ exponent, cs)

/-- The token that a text starts with, blanks aside, and what follows it. -/
def next? (cs : List Char) : Option (Token × List Char) :=
  match cs with
  | '{' :: cs => some (beginObject, cs)
  | '}' :: cs => some (endObject, cs)
  | '[' :: cs => some (beginArray, cs)
  | ']' :: cs => some (endArray, cs)
  | ',' :: cs => some (comma, cs)
  | ':' :: cs => some (colon, cs)
  | 'n' :: 'u' :: 'l' :: 'l' :: cs => some (null, cs)
  | 't' :: 'r' :: 'u' :: 'e' :: cs => some (bool true, cs)
  | 'f' :: 'a' :: 'l' :: 's' :: 'e' :: cs => some (bool false, cs)
  | '"' :: cs =>
    (pieces? cs).map fun (ps, rest) => (string ((joinPieces? ps).map String.ofList), rest)
  | cs => (number? cs).map fun (literal, rest) => (number (String.ofList literal), rest)

theorem length_lt_of_pieces? {cs rest : List Char} {ps : List Piece}
    (h : pieces? cs = some (ps, rest)) : rest.length < cs.length := by
  fun_induction pieces? cs generalizing ps with
  | case1 => simp at h
  | case2 a b c d cs ih =>
    simp only [Option.bind_eq_bind, Option.bind_eq_some_iff, Option.pure_def, Option.some.injEq,
      Prod.mk.injEq] at h
    obtain ⟨_, -, ⟨_, _⟩, hp, -, rfl⟩ := h
    have := ih hp
    simp only [List.length_cons] at this ⊢
    omega
  | case3 c cs _ ih =>
    simp only [Option.bind_eq_bind, Option.bind_eq_some_iff, Option.pure_def, Option.some.injEq,
      Prod.mk.injEq] at h
    obtain ⟨_, -, ⟨_, _⟩, hp, -, rfl⟩ := h
    have := ih hp
    simp only [List.length_cons] at this ⊢
    omega
  | case4 =>
    simp only [Option.some.injEq, Prod.mk.injEq] at h
    rw [← h.2, List.length_cons]
    omega
  | case5 => simp at h
  | case6 c cs _ _ _ _ ih =>
    simp only [Option.bind_eq_bind, Option.bind_eq_some_iff, Option.pure_def, Option.some.injEq,
      Prod.mk.injEq] at h
    obtain ⟨⟨_, _⟩, hp, -, rfl⟩ := h
    have := ih hp
    simp only [List.length_cons] at this ⊢
    omega

theorem length_lt_of_digits? {cs ds rest : List Char} (h : digits? cs = some (ds, rest)) :
    rest.length < cs.length := by
  unfold digits? at h
  split at h
  · simp at h
  · rename_i hd
    simp only [Option.some.injEq, Prod.mk.injEq] at h
    have hl := congrArg List.length (List.takeWhile_append_dropWhile (p := Char.isDigit) (l := cs))
    rw [h.1, h.2, List.length_append] at hl
    rw [h.1] at hd
    have : 0 < ds.length := List.length_pos_iff.mpr (by simpa using hd)
    omega

theorem length_lt_of_integer? {cs ds rest : List Char} (h : integer? cs = some (ds, rest)) :
    rest.length < cs.length := by
  unfold integer? at h
  split at h
  · simp only [Option.some.injEq, Prod.mk.injEq] at h
    rw [← h.2, List.length_cons]
    omega
  · exact length_lt_of_digits? h

theorem length_le_of_fraction? {cs ds rest : List Char} (h : fraction? cs = some (ds, rest)) :
    rest.length ≤ cs.length := by
  unfold fraction? at h
  split at h
  · obtain ⟨⟨_, _⟩, hd, he⟩ := Option.map_eq_some_iff.1 h
    simp only [Prod.mk.injEq] at he
    have := length_lt_of_digits? hd
    rw [← he.2, List.length_cons]
    omega
  · simp only [Option.some.injEq, Prod.mk.injEq] at h
    exact Nat.le_of_eq (congrArg List.length h.2.symm)

theorem length_exponentSign_le (cs : List Char) : (exponentSign cs).2.length ≤ cs.length := by
  unfold exponentSign
  split <;> simp

theorem length_le_of_exponent? {cs ds rest : List Char} (h : exponent? cs = some (ds, rest)) :
    rest.length ≤ cs.length := by
  cases cs with
  | nil => simp_all [exponent?]
  | cons c cs =>
    rw [exponent?] at h
    split at h
    · obtain ⟨⟨_, _⟩, hd, he⟩ := Option.map_eq_some_iff.1 h
      simp only [Prod.mk.injEq] at he
      have h₁ := length_lt_of_digits? hd
      have h₂ := length_exponentSign_le cs
      rw [← he.2, List.length_cons]
      omega
    · simp only [Option.some.injEq, Prod.mk.injEq] at h
      exact Nat.le_of_eq (congrArg List.length h.2.symm)

theorem length_lt_of_number? {cs literal rest : List Char}
    (h : number? cs = some (literal, rest)) : rest.length < cs.length := by
  simp only [number?, Option.bind_eq_bind, Option.bind_eq_some_iff, Option.pure_def,
    Option.some.injEq, Prod.mk.injEq] at h
  obtain ⟨⟨_, _⟩, h₁, ⟨_, _⟩, h₂, ⟨_, _⟩, h₃, -, rfl⟩ := h
  have l₁ := length_lt_of_integer? h₁
  have l₂ := length_le_of_fraction? h₂
  have l₃ := length_le_of_exponent? h₃
  split at l₁ <;> simp only [List.length_cons] at * <;> omega

theorem length_lt_of_next? {cs rest : List Char} {t : Token} (h : next? cs = some (t, rest)) :
    rest.length < cs.length := by
  unfold next? at h
  split at h
  case h_10 =>
    obtain ⟨⟨_, _⟩, hp, he⟩ := Option.map_eq_some_iff.1 h
    simp only [Prod.mk.injEq] at he
    have := length_lt_of_pieces? hp
    rw [← he.2, List.length_cons]
    omega
  case h_11 =>
    obtain ⟨⟨_, _⟩, hn, he⟩ := Option.map_eq_some_iff.1 h
    simp only [Prod.mk.injEq] at he
    have := length_lt_of_number? hn
    rw [← he.2]
    exact this
  all_goals
    simp only [Option.some.injEq, Prod.mk.injEq] at h
    rw [← h.2]
    simp only [List.length_cons]
    omega

end Token

/-- The tokens of a text; `none` if a piece of it is none. -/
def tokens? (text : List Char) : Option (List Token) :=
  match text with
  | [] => some []
  | c :: cs =>
    if Token.isBlank c then tokens? cs
    else
      match _h : Token.next? (c :: cs) with
      | none => none
      | some (t, rest) => (tokens? rest).map (t :: ·)
termination_by text.length
decreasing_by
  · simp
  · exact Token.length_lt_of_next? ‹_›

end SignalBridge.Json
