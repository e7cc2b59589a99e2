import SignalBridge.Source.Token
import SignalBridge.Text.Quoted

namespace SignalBridge.Source

/-- Why no lexeme starts at some place. -/
inductive LexCause where
  | unterminatedComment
  | unterminatedString
  | unterminatedRawString
  | malformedRune
  | unexpected (c : Char)
deriving DecidableEq, Repr

def LexCause.message : LexCause → String
  | unterminatedComment => "unterminated block comment"
  | unterminatedString => "unterminated string literal"
  | unterminatedRawString => "unterminated raw string literal"
  | malformedRune => "malformed rune literal"
  | unexpected c => "unexpected character " ++ Text.quoteChar c

structure LexFault where
  offset : Nat
  cause : LexCause
deriving DecidableEq, Repr

/-- What a declaration needed at the place where it went wrong. -/
inductive Expected where
  | packageName
  | typeName
  | declaration
  | openBrace
  | closer (d : Delimiter)
  | closingDelimiter
  | field
  | fieldName
  | fieldType
deriving DecidableEq, Repr

def Expected.text : Expected → String
  | packageName => "package name"
  | typeName => "type name"
  | declaration => "declaration"
  | openBrace => "'\x7b'"
  | closer .round => "')'"
  | closer .square => "']'"
  | closer .curly => "'\x7d'"
  | closingDelimiter => "closing delimiter"
  | field => "field"
  | fieldName => "field name"
  | fieldType => "field type"

/-- A missing piece, and the token that stood in its place; `none` is the end of the file. -/
structure SyntaxFault where
  expected : Expected
  found : Option Token
deriving DecidableEq, Repr

def Token.describe (t : Token) : String :=
  if t.kind = .newline then "newline" else "'" ++ String.ofList t.text ++ "'"

def SyntaxFault.foundText (fault : SyntaxFault) : String :=
  match fault.found with
  | some t => t.describe
  | none => "end of file"

/-- The first thing wrong with a source file. -/
inductive ScanError where
  | lexical (position : Position) (cause : LexCause)
  | syntactic (position : Position) (fault : SyntaxFault)
deriving DecidableEq, Repr

namespace ScanError

/-- A lexical fault, placed in its source. -/
def ofLexFault (source : List Char) (fault : LexFault) : ScanError :=
  .lexical (.ofOffset source fault.offset) fault.cause

/-- A syntactic fault, placed in its source at the token found, or at the end. -/
def ofSyntaxFault (source : List Char) (fault : SyntaxFault) : ScanError :=
  match fault.found with
  | some t => .syntactic (.ofOffset source t.start) fault
  | none => .syntactic (.after source) fault

def position : ScanError → Position
  | lexical p _ => p
  | syntactic p _ => p

def message (e : ScanError) : String :=
  let place := s!"{e.position.line}:{e.position.column}: "
  match e with
  | lexical _ cause => place ++ cause.message
  | syntactic _ fault => place ++ s!"expected {fault.expected.text}, found {fault.foundText}"

end ScanError

end SignalBridge.Source
