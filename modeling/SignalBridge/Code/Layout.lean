namespace SignalBridge.Code

def indent (lines : List String) : List String :=
  lines.map fun line => "\t" ++ line

/-- A body whose opening brace ends the line of its head. -/
def block (head : String) (body : List String) : List String :=
  (head ++ " \x7b") :: (indent body ++ ["\x7d"])

/-- A body whose opening brace has a line of its own. -/
def definition (head : String) (body : List String) : List String :=
  head :: "\x7b" :: (indent body ++ ["\x7d"])

/-- A piece of code with a blank line before it. -/
def apart (lines : List String) : List String :=
  "" :: lines

def commaList (items : List String) : String :=
  ", ".intercalate items

/-- The text of a file: every line is ended. -/
def fileText (lines : List String) : String :=
  String.join (lines.map fun line => line ++ "\n")

end SignalBridge.Code
