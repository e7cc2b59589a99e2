namespace SignalBridge.Source

/-- The number of bytes of a text in UTF-8. -/
def byteLength (text : List Char) : Nat :=
  text.foldr (fun c n => c.utf8Size + n) 0

/-- The characters that lie wholly within the first `n` bytes. -/
def takeBytes (n : Nat) : List Char → List Char
  | [] => []
  | c :: cs => if c.utf8Size ≤ n then c :: takeBytes (n - c.utf8Size) cs else []

/-- A line and a column, both counted from 1; a column is a character, not a byte. -/
structure Position where
  line : Nat
  column : Nat
deriving DecidableEq, Repr

namespace Position

def start : Position := ⟨1, 1⟩

/-- The position after one more character. -/
def step (p : Position) (c : Char) : Position :=
  if c = '\n' then ⟨p.line + 1, 1⟩ else ⟨p.line, p.column + 1⟩

/-- The position at the end of a text. -/
def after (text : List Char) : Position :=
  text.foldl step start

def ofOffset (source : List Char) (offset : Nat) : Position :=
  after (takeBytes offset source)

end Position

/-- A stretch of the source, from one byte offset up to another. -/
structure Span where
  start : Nat
  stop : Nat
deriving DecidableEq, Repr

end SignalBridge.Source
