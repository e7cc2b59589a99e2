import SignalBridge.Source.Declaration

/-!
The text of a field's tag. A tag is a string literal of either form, and what it says is often
quoted once more inside (`signal:"clicked"`); the text leaves out every quote.
-/

namespace SignalBridge.Source

namespace Tag

/-- Reads the escapes of an interpreted literal. `\n` and `\t` are a line break and a tab, any
other escaped character stands for itself, and a backslash at the end is dropped. -/
def unescape : List Char → List Char
  | [] => []
  | ['\\'] => []
  | '\\' :: 'n' :: cs => '\n' :: unescape cs
  | '\\' :: 't' :: cs => '\t' :: unescape cs
  | '\\' :: c :: cs => c :: unescape cs
  | c :: cs => c :: unescape cs

def isQuote (c : Char) : Bool :=
  c = '"' || c = '\x60'

/-- Whether the text stands between two double quotes. -/
def isInterpreted (literal : List Char) : Bool :=
  2 ≤ literal.length && literal.head? = some '"' && literal.getLast? = some '"'

/-- What a tag literal says. -/
def content (literal : List Char) : List Char :=
  let inner := if isInterpreted literal then unescape literal.tail.dropLast else literal
  inner.filter (!isQuote ·)

end Tag

def Field.tagText (f : Field) : Option String :=
  f.tag.map fun literal => String.ofList (Tag.content literal.toList)

end SignalBridge.Source
