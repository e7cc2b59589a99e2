import SignalBridge.Source.File

/-!
The reader of declarations as a walk over the numbered tokens of a source. A position moves from
token to token, and every loop goes on until one of its passes leaves it. Nothing in these
definitions bounds a loop or an index: that the walk ends, that it finds a token wherever it takes
one, and that it reads what `scan` reads is for theorems to say.
-/

namespace SignalBridge.Source

/-- Why a walk stops before it returns. -/
inductive Stop where
  | lexical (position : Position) (cause : LexCause)
  | refused (position : Position) (expected found : String)
  /-- A token was taken by an index at which there is none. -/
  | outOfRange
deriving DecidableEq, Repr

namespace Stop

/-- The refusal of what stands in the place of something expected; `none` is the end of the file. -/
def refusal (source : List Char) (expected : String) : Option Token → Stop
  | some t => .refused (.ofOffset source t.start) expected t.describe
  | none => .refused (.after source) expected "end of file"

def ofFault (source : List Char) (fault : SyntaxFault) : Stop :=
  refusal source fault.expected.text fault.found

def ofScanError : ScanError → Stop
  | .lexical position cause => .lexical position cause
  | .syntactic position fault => .refused position fault.expected.text fault.foundText

end Stop

namespace Cursor

/-- A reader starts at some position and ends at some position. Its outcome is `none` if it never
ends. -/
abbrev Reader (α : Type) := StateT Nat (ExceptT Stop Option) α

/-- What one pass of a loop comes to: the loop goes on, or it is left. -/
inductive Pass (σ α : Type) where
  | again (s : σ)
  | leave (a : α)

/-- A loop is told by what a pass of it does in each state. -/
abbrev Loop (σ α : Type) := σ → Reader (Pass σ α)

/-- Goes through passes until one leaves the loop or stops the walk. -/
def Loop.run {σ α : Type} (pass : Loop σ α) (s : σ) : Reader α := do
  match ← pass s with
  | .again s => pass |>.run s
  | .leave a => return a
partial_fixpoint

/-- The token at an index where the reader counts on one. -/
def item (ts : List Token) (i : Nat) : Reader Token :=
  match ts[i]? with
  | some t => return t
  | none => throw .outOfRange

/-- The tokens from an index on that the reader counts on not to lie behind the end. -/
def itemsFrom (ts : List Token) (i : Nat) : Reader (List Token) :=
  if i ≤ ts.length then return ts.drop i else throw .outOfRange

/-- What a source says from one byte offset to another. -/
def textBetween (source : List Char) (start stop : Nat) : List Char :=
  takeBytes (stop - start) (source.drop (takeBytes start source).length)

section Tokens

variable (ts : List Token)

/-- The token `n` places ahead, if there is one. -/
def ahead (n : Nat) : Reader (Option Token) := do
  return ts[(← get) + n]?

/-- Whether the next token is of this kind. -/
def atKind (kind : Token.Kind) : Reader Bool := do
  return (← ahead ts 0).any (·.kind = kind)

def separatorPass (_ : Unit) : Reader (Pass Unit Unit) := do
  if (← ahead ts 0).any (·.kind.isSeparator) then
    modify (· + 1)
    return .again ()
  else return .leave ()

def skipSeparators : Reader Unit :=
  Loop.run (separatorPass ts) ()

/-- Whether the bracket that is next opens type parameters. -/
def atTypeParameters : Reader Bool := do
  return (← ahead ts 1).any (·.kind = .ident) && !(← ahead ts 2).any (·.kind = .closer .square)

end Tokens

section Readers

variable (source : List Char) (ts : List Token)

/-- Stops at the next token, or at the end of the file. -/
def refuse {α : Type} (expected : String) : Reader α := do
  throw (.refusal source expected (← ahead ts 0))

/-- Takes the next token. -/
def bump : Reader Token := do
  match ← ahead ts 0 with
  | some t =>
    modify (· + 1)
    return t
  | none => refuse source ts "token"

def expect (kind : Token.Kind) (expected : Expected) : Reader Token := do
  if ← atKind ts kind then bump source ts else refuse source ts expected.text

/-- Takes the next token and follows the delimiters. -/
def track (nesting : Nesting) : Reader Nesting := do
  match nesting.step (← bump source ts) with
  | .ok nesting => return nesting
  | .error fault => throw (.ofFault source fault)

def typePass (nesting : Nesting) : Reader (Pass Nesting Nesting) := do
  match ← ahead ts 0 with
  | none => return .leave nesting
  | some t =>
    if nesting.isEmpty && t.kind.endsType then return .leave nesting
    else return .again (← track source ts nesting)

/-- Passes over the rest of a type that is not a struct. -/
def restOfType (nesting : Nesting) : Reader Unit := do
  if (← Loop.run (typePass source ts) nesting).isEmpty then return ()
  else refuse source ts (Expected.text .closingDelimiter)

def skipType : Reader Unit :=
  restOfType source ts []

def balancedPass (nesting : Nesting) : Reader (Pass Nesting Unit) := do
  if nesting.isEmpty then return .leave ()
  else
    match ← ahead ts 0 with
    | none => refuse source ts (Expected.text .closingDelimiter)
    | some _ => return .again (← track source ts nesting)

/-- Passes over a group, its opening delimiter being next. -/
def skipBalanced : Reader Unit := do
  Loop.run (balancedPass source ts) (← track source ts [])

/-- One token of a field, kept unless it is a line break. -/
def fieldPass (s : Nesting × List Token) :
    Reader (Pass (Nesting × List Token) (Nesting × List Token)) := do
  let (nesting, words) := s
  match ← ahead ts 0 with
  | none => return .leave (nesting, words)
  | some t =>
    if nesting.isEmpty && t.kind.endsField then return .leave (nesting, words)
    else
      let before ← get
      let nesting ← track source ts nesting
      let t ← item ts before
      return .again (nesting, if t.kind = .newline then words else words ++ [t])

/-- The words of a field, from those taken so far on. -/
def restOfField (s : Nesting × List Token) : Reader (List Token) := do
  let (nesting, words) ← Loop.run (fieldPass source ts) s
  if nesting.isEmpty then return words
  else refuse source ts (Expected.text .closingDelimiter)

def fieldWords : Reader (List Token) :=
  restOfField source ts ([], [])

/-- The name at index `i`, and whether a comma and another name follow it. -/
def namePass (words : List Token) (s : Nat × List String) :
    Reader (Pass (Nat × List String) (Nat × List String)) := do
  let (i, names) := s
  let names := names ++ [String.ofList (← item words i).text]
  if words[i + 1]?.any (·.kind = .comma) then
    match words[i + 2]? with
    | some t =>
      if t.kind = .ident then return .again (i + 2, names)
      else throw (.refusal source (Expected.text .fieldName) (some t))
    | none => refuse source ts (Expected.text .fieldName)
  else return .leave (i + 1, names)

/-- Whether the words begin with names. -/
def beginsNames (words : List Token) : Reader Bool := do
  if 1 < words.length then
    if (← item words 0).kind = .ident then return (← item words 1).kind ≠ .dot
    else return false
  else return false

/-- The names at the front, and the index where the type begins. -/
def fieldNames (words : List Token) : Reader (Nat × List String) := do
  if ← beginsNames words then Loop.run (namePass source ts words) (0, []) else return (0, [])

def fieldOf (words : List Token) : Reader Field := do
  match words.head?, words.getLast? with
  | some first, some last =>
    let tagged := 1 < words.length && last.kind.isStringLiteral
    let tag := if tagged then some (String.ofList last.text) else none
    let words := if tagged then words.dropLast else words
    let (start, names) ← fieldNames source ts words
    let type ← itemsFrom words start
    match type.head?, type.getLast? with
    | some typeFirst, some typeLast =>
      return {
        names := names
        typeText := String.ofList (textBetween source typeFirst.start typeLast.stop)
        tag := tag
        span := ⟨first.start, last.stop⟩ }
    | _, _ => refuse source ts (Expected.text .fieldType)
  | _, _ => refuse source ts (Expected.text .field)

def field : Reader Field := do
  fieldOf source ts (← fieldWords source ts)

/-- One item of a list that separators divide, or its closing delimiter. -/
def itemPass {β : Type} (d : Delimiter) (item : Reader β) (items : List β) :
    Reader (Pass (List β) (List β)) := do
  skipSeparators ts
  match ← ahead ts 0 with
  | none => refuse source ts (Expected.text (.closer d))
  | some t =>
    if t.kind = .closer d then
      let _ ← bump source ts
      return .leave items
    else return .again (items ++ [← item])

def structPass : List Field → Reader (Pass (List Field) (List Field)) :=
  itemPass source ts .curly (field source ts)

def structBody : Reader (List Field) :=
  Loop.run (structPass source ts) []

/-- Passes over the type parameters, if the next token opens any. -/
def typeParameters : Reader Unit := do
  if ← atKind ts (.opener .square) then
    if ← atTypeParameters ts then skipBalanced source ts

/-- Passes over the equals sign of an alias. -/
def aliasSign : Reader Unit := do
  if (← ahead ts 0).any fun t => t.kind = .op && t.text = ['='] then
    let _ ← bump source ts

/-- The name of a type and what is declared of it. -/
def namedBody : Reader (Token × TypeBody) := do
  let name ← expect source ts .ident .typeName
  typeParameters source ts
  aliasSign source ts
  if ← atKind ts (.keyword .struct) then
    let _ ← bump source ts
    let _ ← expect source ts (.opener .curly) .openBrace
    return (name, .struct (← structBody source ts))
  else
    skipType source ts
    return (name, .other)

def typeSpec : Reader TypeDecl := do
  let (name, body) ← namedBody source ts
  let stop := ts[(← get) - 1]?.elim name.start Token.stop
  return ⟨String.ofList name.text, body, ⟨name.start, stop⟩⟩

def groupPass : List TypeDecl → Reader (Pass (List TypeDecl) (List TypeDecl)) :=
  itemPass source ts .round (typeSpec source ts)

/-- What follows the keyword `type`, behind the declarations found before. -/
def typeDecls (decls : List TypeDecl) : Reader (List TypeDecl) := do
  if ← atKind ts (.opener .round) then
    let _ ← bump source ts
    Loop.run (groupPass source ts) decls
  else return decls ++ [← typeSpec source ts]

def filePass (s : SourceFile × Nesting) :
    Reader (Pass (SourceFile × Nesting) (SourceFile × Nesting)) := do
  let (file, nesting) := s
  match ← ahead ts 0 with
  | none => return .leave (file, nesting)
  | some t =>
    if nesting.isEmpty && file.package.isNone && t.kind = .keyword .package then
      let _ ← bump source ts
      let name ← expect source ts .ident .packageName
      return .again ({ file with package := some (String.ofList name.text) }, nesting)
    else if nesting.isEmpty && t.kind = .keyword .type then
      let _ ← bump source ts
      return .again ({ file with types := ← typeDecls source ts file.types }, nesting)
    else return .again (file, ← track source ts nesting)

/-- The rest of a file, behind what was found before. -/
def restOfFile (s : SourceFile × Nesting) : Reader SourceFile := do
  let (file, nesting) ← Loop.run (filePass source ts) s
  match nesting with
  | [] => return file
  | innermost :: _ => throw (.refusal source (Expected.text (.closer innermost)) none)

def sourceFile : Reader SourceFile :=
  restOfFile source ts (⟨none, []⟩, [])

end Readers

/-- Reads the declarations of a source file in one walk. -/
def scan (source : String) : Option (Except Stop SourceFile) :=
  match tokenize source with
  | .error e => some (.error (.ofScanError e))
  | .ok ts => (·.map Prod.fst) <$> sourceFile source.toList ts 0

end Cursor

end SignalBridge.Source
