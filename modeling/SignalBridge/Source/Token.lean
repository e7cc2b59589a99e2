import SignalBridge.Source.Position

/-!
Tokens of a source file. A token keeps the blank text and the comments that stand before it, so a
list of tokens still tells how the source between two of them was written.
-/

namespace SignalBridge.Source

/-- The three pairs of delimiters. -/
inductive Delimiter where
  | round
  | square
  | curly
deriving DecidableEq, Repr

/-- The words that no name may have. Other keywords of the language pass as identifiers, since
declarations are read without them. -/
inductive Keyword where
  | package
  | type
  | struct
  | interface
  | func
deriving DecidableEq, Repr

namespace Keyword

def all : List Keyword := [package, type, struct, interface, func]

def text : Keyword → String
  | package => "package"
  | type => "type"
  | struct => "struct"
  | interface => "interface"
  | func => "func"

def ofText? (word : List Char) : Option Keyword :=
  all.find? (·.text.toList == word)

end Keyword

namespace Token

inductive Kind where
  | newline
  | keyword (word : Keyword)
  | ident
  | number
  | string
  | rawString
  | rune
  | opener (d : Delimiter)
  | closer (d : Delimiter)
  | comma
  | semicolon
  | dot
  | star
  /-- Any other operator character; no declaration depends on which. -/
  | op
deriving DecidableEq, Repr

namespace Kind

def ofWord (word : List Char) : Kind :=
  match Keyword.ofText? word with
  | some k => .keyword k
  | none => .ident

def isStringLiteral (kind : Kind) : Bool :=
  kind = .string || kind = .rawString

/-- What separates declarations and fields. -/
def isSeparator (kind : Kind) : Bool :=
  kind = .newline || kind = .semicolon

end Kind

end Token

structure Token where
  kind : Token.Kind
  /-- The byte offset of the first character. -/
  start : Nat
  /-- The blank text and comments since the token before. -/
  leading : List Char
  text : List Char
deriving DecidableEq, Repr

namespace Token

def stop (t : Token) : Nat :=
  t.start + byteLength t.text

/-- How the tokens are written from the first character of the first to the last of the last. -/
def sourceText : List Token → List Char
  | [] => []
  | t :: ts => t.text ++ ts.flatMap fun u => u.leading ++ u.text

/-- Drops the line breaks; each becomes part of the blank text before the next token. -/
def joinLines (ts : List Token) : List Token :=
  go [] ts
where
  go (pending : List Char) : List Token → List Token
    | [] => []
    | t :: ts =>
      if t.kind = .newline then go (pending ++ t.leading ++ t.text) ts
      else { t with leading := pending ++ t.leading } :: go [] ts

end Token

end SignalBridge.Source
