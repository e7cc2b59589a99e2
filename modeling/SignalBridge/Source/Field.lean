import SignalBridge.Source.Declaration
import SignalBridge.Source.Fault

namespace SignalBridge.Source

namespace Field

/-- Splits off the tag: a string literal at the end, unless it is all there is. -/
def splitTag (ts : List Token) : List Token × Option Token :=
  match ts.getLast? with
  | some t =>
    if 1 < ts.length && t.kind.isStringLiteral then (ts.dropLast, some t) else (ts, none)
  | none => (ts, none)

/-- The names that follow `name`, each after a comma, and the tokens after them. A comma at the
end lacks a name in place of `next`, the token after the field. -/
def moreNames (next : Option Token) :
    List Token → Except SyntaxFault (List Token × List Token)
  | [] => .ok ([], [])
  | [t] => if t.kind = .comma then .error ⟨.fieldName, next⟩ else .ok ([], [t])
  | t :: u :: ts =>
    if t.kind = .comma then
      if u.kind = .ident then do
        let (names, type) ← moreNames next ts
        return (u :: names, type)
      else .error ⟨.fieldName, some u⟩
    else .ok ([], t :: u :: ts)

/-- Splits the names from the type. An identifier alone, or one before a dot, begins a type. -/
def splitNames (next : Option Token) :
    List Token → Except SyntaxFault (List Token × List Token)
  | t :: u :: ts =>
    if t.kind = .ident && u.kind ≠ .dot then do
      let (names, type) ← moreNames next (u :: ts)
      return (t :: names, type)
    else .ok ([], t :: u :: ts)
  | ts => .ok ([], ts)

/-- The field that the tokens `ts` declare, where `next` is the token after them. -/
def ofTokens (ts : List Token) (next : Option Token) : Except SyntaxFault Field :=
  let ts := Token.joinLines ts
  match ts.head?, ts.getLast? with
  | some first, some last => do
    let (rest, tag) := splitTag ts
    let (names, type) ← splitNames next rest
    if type.isEmpty then throw ⟨.fieldType, next⟩
    return {
      names := names.map fun t => String.ofList t.text
      typeText := String.ofList (Token.sourceText type)
      tag := tag.map fun t => String.ofList t.text
      span := ⟨first.start, last.stop⟩ }
  | _, _ => .error ⟨.field, next⟩

end Field

end SignalBridge.Source
