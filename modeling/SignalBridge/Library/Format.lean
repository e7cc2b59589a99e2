import SignalBridge.Json.Printer
import SignalBridge.Json.Reader
import SignalBridge.Library.Basic

/-!
The file format of library modules. A module, a class, a member and a parameter are records: JSON
objects, or arrays of their fields in order. Most fields have a default and may be left out.
-/

namespace SignalBridge

namespace Json

def ofString (s : String) : Json :=
  .string (some s)

def text? : Json → Option String
  | .string content => content
  | _ => none

/-- A text, or null for none. -/
def optionalText? : Json → Option (Option String)
  | .null => some none
  | .string content => content.map some
  | _ => none

def list? {α : Type} (item? : Json → Option α) : Json → Option (List α)
  | .array items => items.mapM item?
  | _ => none

/-- One of some named values: its name, or an object with the name as only key and null beside
it. -/
def choice? {α : Type} (names : List (String × α)) : Json → Option α
  | .string content => content.bind fun s => names.lookup s
  | .object [(key, .null)] => key.bind fun s => names.lookup s
  | _ => none

/-- The fields that a record gives, by name. An object may hold other keys too, but no field
twice; an array gives the first fields and no more than there are. -/
def record? (fields : List String) : Json → Option (List (String × Json))
  | .array items => if items.length ≤ fields.length then some (fields.zip items) else none
  | .object entries => do
    let named ← entries.mapM fun (key, v) => key.map fun k => (k, v)
    let given := named.filter (·.1 ∈ fields)
    if (given.map Prod.fst).Nodup then some given else none
  | _ => none

end Json

/-- Reads a field that must be given. -/
def required {α : Type} (r : List (String × Json)) (field : String) (read? : Json → Option α) :
    Option α :=
  (r.lookup field).bind read?

/-- Reads a field that has a default. -/
def optional {α : Type} (r : List (String × Json)) (field : String) (default : α)
    (read? : Json → Option α) : Option α :=
  match r.lookup field with
  | some v => read? v
  | none => some default

namespace Parameter

def fields : List String := ["name", "host_type", "native_type"]

def ofJson? (v : Json) : Option Parameter := do
  let r ← v.record? fields
  return {
    name := ← required r "name" Json.text?
    hostType := ← optional r "host_type" "" Json.text?
    nativeType := ← optional r "native_type" "" Json.text? }

def toJson (p : Parameter) : Json :=
  .object [(some "name", .ofString p.name), (some "host_type", .ofString p.hostType),
    (some "native_type", .ofString p.nativeType)]

end Parameter

namespace Member

def fields : List String :=
  ["name", "fullname", "category", "return_type", "host_return", "params", "virtuality"]

def ofJson? (v : Json) : Option Member := do
  let r ← v.record? fields
  return {
    name := ← required r "name" Json.text?
    fullName := ← optional r "fullname" "" Json.text?
    category := ← required r "category" (Json.choice? Category.names)
    returnType := ← optional r "return_type" "void" Json.text?
    hostReturn := ← optional r "host_return" none Json.optionalText?
    parameters := ← optional r "params" [] (Json.list? Parameter.ofJson?)
    virtuality := ← optional r "virtuality" .nonvirtual (Json.choice? Virtuality.names) }

def toJson (m : Member) : Json :=
  .object [(some "name", .ofString m.name), (some "fullname", .ofString m.fullName),
    (some "category", .ofString m.category.text), (some "return_type", .ofString m.returnType),
    (some "host_return", (m.hostReturn.map Json.ofString).getD .null),
    (some "params", .array (m.parameters.map Parameter.toJson)),
    (some "virtuality", .ofString m.virtuality.text)]

end Member

namespace MetaClass

def fields : List String := ["name", "visibility", "module", "base", "members"]

def ofJson? (v : Json) : Option MetaClass := do
  let r ← v.record? fields
  return {
    name := ← required r "name" Json.text?
    visibility := ← optional r "visibility" .publicAccess (Json.choice? Visibility.names)
    moduleName := ← optional r "module" "" Json.text?
    base := ← optional r "base" none Json.optionalText?
    members := ← optional r "members" [] (Json.list? Member.ofJson?) }

def toJson (c : MetaClass) : Json :=
  .object [(some "name", .ofString c.name), (some "visibility", .ofString c.visibility.text),
    (some "module", .ofString c.moduleName),
    (some "base", (c.base.map Json.ofString).getD .null),
    (some "members", .array (c.members.map Member.toJson))]

end MetaClass

namespace LibraryModule

def fields : List String := ["name", "classes"]

def ofJson? (v : Json) : Option LibraryModule := do
  let r ← v.record? fields
  return {
    name := ← optional r "name" "" Json.text?
    classes := ← optional r "classes" [] (Json.list? MetaClass.ofJson?) }

def toJson (m : LibraryModule) : Json :=
  .object [(some "name", .ofString m.name), (some "classes", .array (m.classes.map MetaClass.toJson))]

/-- Reads the text of a module file. -/
def ofText? (text : String) : Option LibraryModule :=
  (Json.ofText? text).bind ofJson?

def toText (m : LibraryModule) : String :=
  m.toJson.toText

end LibraryModule

end SignalBridge
