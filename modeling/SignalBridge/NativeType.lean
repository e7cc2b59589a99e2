import SignalBridge.Registry.Ancestry
import SignalBridge.Text.Blank
import SignalBridge.Text.Pieces

namespace SignalBridge

inductive NativeType where
  | known (text : String)
  | unmapped
deriving DecidableEq, Repr

namespace NativeType

/-- How the type is written; a type without counterpart is `void`. -/
def text : NativeType → String
  | known t => t
  | unmapped => "void"

def isKnown : NativeType → Bool
  | known _ => true
  | unmapped => false

/-- Objects are passed by pointer. -/
def isPointer (t : NativeType) : Bool :=
  t.text.toList.getLast? = some '*'

end NativeType

def primitives : List (String × String) :=
  [("string", "QString"), ("[]string", "QStringList"), ("unsafe.Pointer", "void*"),
    ("uintptr", "void*"), ("bool", "bool"), ("int", "int"), ("float64", "qreal"),
    ("int64", "qint64")]

/-- Leaves out one star at the front. -/
def dropStar : List Char → List Char
  | '*' :: cs => cs
  | cs => cs

/-- Writes `::` for every `__`, read from the left; `none` if there is no `__`. -/
def scopes? : List Char → Option (List Char)
  | '_' :: '_' :: cs => some (':' :: ':' :: (scopes? cs).getD cs)
  | c :: cs => (scopes? cs).map (c :: ·)
  | [] => none

/-- What a type of the host language is on the Qt side. One star counts for nothing. Apart from
the primitives, a type goes by its name without the package: a name with `__` stands for a nested
name, any other has to be a class, and objects become pointers. -/
def Registry.nativeType (r : Registry) (hostType : String) : NativeType :=
  let type := dropStar (Text.trim hostType.toList)
  match primitives.lookup (String.ofList type) with
  | some t => .known t
  | none =>
    let name := Text.afterLast '.' type
    match scopes? name with
    | some nested => .known (String.ofList nested)
    | none =>
      let name := String.ofList name
      if r.contains name then .known (if r.isObjectClass name then name ++ "*" else name)
      else .unmapped

end SignalBridge
