import SignalBridge.Member.Signature
import SignalBridge.Source.Tag

namespace SignalBridge

structure Marker where
  category : Category
  name : String
deriving DecidableEq, Repr

namespace Marker

def signalWord : List Char := "signal:".toList

def slotWord : List Char := "slot:".toList

/-- The text after the first of the two words. -/
def afterWord? : List Char → Option (List Char)
  | [] => none
  | c :: cs =>
    match (Text.dropWord? signalWord (c :: cs)).or (Text.dropWord? slotWord (c :: cs)) with
    | some rest => some rest
    | none => afterWord? cs

def isNamePart (c : Char) : Bool :=
  c ≠ ':' && !Text.isBlank c

/-- Reads the marker of a tag. The name follows the first word, but a slot's word anywhere makes
it a slot. -/
def ofTag? (tag : String) : Option Marker :=
  (afterWord? tag.toList).map fun rest => {
    category := if Text.occurs slotWord tag.toList then .slot else .signal
    name := String.ofList (rest.takeWhile isNamePart) }

end Marker

/-- Whether a text is a name in every language involved: ASCII letters, digits and underscores,
no digit first. -/
def isIdentifier : List Char → Bool
  | [] => false
  | c :: cs => (c.isAlpha || c = '_') && cs.all fun d => d.isAlphanum || d = '_'

/-- The member that a tagged field declares in a class. Its types are those of the source; they
are mapped once all classes are known. -/
def Registry.fieldMember? (r : Registry) (owner tag typeText : String) : Option Member := do
  let marker ← Marker.ofTag? tag
  guard (isIdentifier marker.name.toList)
  let signature := Signature.ofType? typeText
  return {
    name := marker.name
    fullName := qualify owner marker.name
    category := marker.category
    returnType := "void"
    hostReturn := if marker.category = .slot then signature.bind Signature.result else none
    parameters := Signature.resolve r ((signature.map Signature.entries).getD [])
    virtuality := .nonvirtual }

end SignalBridge
