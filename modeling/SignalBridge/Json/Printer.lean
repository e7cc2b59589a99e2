import SignalBridge.Json.Value

namespace SignalBridge.Json

def escapeChar (c : Char) : List Char :=
  match c with
  | '"' => ['\\', '"']
  | '\\' => ['\\', '\\']
  | '\x08' => ['\\', 'b']
  | '\x0c' => ['\\', 'f']
  | '\n' => ['\\', 'n']
  | '\r' => ['\\', 'r']
  | '\t' => ['\\', 't']
  | c =>
    if c.toNat < 0x20 then
      ['\\', 'u', '0', '0', Nat.digitChar (c.toNat / 16), Nat.digitChar (c.toNat % 16)]
    else [c]

/-- A string between quotes. One that is no text is written as half of a surrogate pair. -/
def quoted (content : Option String) : List Char :=
  match content with
  | some s => '"' :: s.toList.flatMap escapeChar ++ ['"']
  | none => "\"\\ud800\"".toList

/-- A line break and the blanks of a level. -/
def breakLine (level : Nat) : List Char :=
  '\n' :: List.replicate (2 * level) ' '

mutual

/-- The text of a value whose first line stands at the given level. -/
def pretty (level : Nat) : Json → List Char
  | .null => "null".toList
  | .bool true => "true".toList
  | .bool false => "false".toList
  | .number literal => literal.toList
  | .string content => quoted content
  | .array [] => ['[', ']']
  | .array (v :: vs) =>
    '[' :: breakLine (level + 1) ++ pretty (level + 1) v ++ prettyItems (level + 1) vs
      ++ breakLine level ++ [']']
  | .object [] => ['{', '}']
  | .object ((k, v) :: es) =>
    '{' :: breakLine (level + 1) ++ quoted k ++ [':', ' '] ++ pretty (level + 1) v
      ++ prettyEntries (level + 1) es ++ breakLine level ++ ['}']

/-- Further items, each after a comma. -/
def prettyItems (level : Nat) : List Json → List Char
  | [] => []
  | v :: vs => ',' :: breakLine level ++ pretty level v ++ prettyItems level vs

/-- Further entries, each after a comma. -/
def prettyEntries (level : Nat) : List (Option String × Json) → List Char
  | [] => []
  | (k, v) :: es =>
    ',' :: breakLine level ++ quoted k ++ [':', ' '] ++ pretty level v ++ prettyEntries level es

end

def toText (v : Json) : String :=
  String.ofList (pretty 0 v)

end SignalBridge.Json
