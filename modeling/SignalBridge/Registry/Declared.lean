import SignalBridge.Member.Marker

/-!
The classes that source files declare. All of them are registered with their bases before any
member is read, so a signature can name a class of a later file.
-/

namespace SignalBridge

/-- The name of an embedded type: no star, no package. -/
def embeddedName (typeText : String) : String :=
  String.ofList (Text.afterLast '.' (Text.trimStart (dropStar (Text.trim typeText.toList))))

namespace Source.StructDecl

/-- The base of a struct is the last type it embeds. -/
def base (s : StructDecl) : Option String :=
  (s.fields.filter Field.isEmbedded).getLast?.map fun f => embeddedName f.typeText

/-- The class of a struct, before its members are read. -/
def shell (s : StructDecl) : MetaClass :=
  ⟨s.name, .publicAccess, mainModule, s.base, []⟩

/-- The members that the tagged fields with names declare. -/
def members (r : Registry) (s : StructDecl) : List Member :=
  (s.fields.filter (!·.isEmbedded)).filterMap fun f =>
    f.tagText.bind fun tag => r.fieldMember? s.name tag f.typeText

end Source.StructDecl

/-- A class declared twice, and the registry as it was when that was found. -/
structure DuplicateClass where
  name : String
  registry : Registry

namespace DuplicateClass

def text (className : String) : String :=
  s!"class {className} is declared more than once"

def message (d : DuplicateClass) : String :=
  text d.name

end DuplicateClass

namespace Registry

/-- Registers the shells of structs in turn. A class of a library may be declared anew, and the
declaration takes its place. -/
def declare : Registry → List Source.StructDecl → Except DuplicateClass Registry
  | r, [] => .ok r
  | r, s :: ss =>
    if (r.find? s.name).any MetaClass.isDeclared then .error ⟨s.name, r⟩
    else declare (r.insert s.shell) ss

/-- Adds to each class the members of the structs of its name. -/
def attach (r : Registry) (structs : List Source.StructDecl) : Registry :=
  r.mapMembers fun c =>
    c.members ++ (structs.filter (·.name = c.name)).flatMap (Source.StructDecl.members r)

/-- The registry with the classes that the files declare, and their names in order. -/
def build (r : Registry) (files : List Source.SourceFile) :
    Except DuplicateClass (Registry × List String) := do
  let structs := files.flatMap Source.SourceFile.structs
  let registered ← r.declare structs
  return (registered.attach structs, structs.map Source.StructDecl.name)

/-- The member with its types on the Qt side. -/
def mapMember (r : Registry) (m : Member) : Member :=
  { m with
    parameters := m.parameters.map fun p => { p with nativeType := (r.nativeType p.hostType).text }
    returnType := (m.hostReturn.map fun t => (r.nativeType t).text).getD m.returnType }

/-- The registry with the types of all declared members mapped. -/
def mapTypes (r : Registry) : Registry :=
  r.mapMembers fun c => if c.isDeclared then c.members.map r.mapMember else c.members

/-- How many types of declared members have no counterpart. -/
def unmappedCount (r : Registry) : Nat :=
  ((r.declared.flatMap MetaClass.members).flatMap Member.hostTypes).countP
    fun t => !(r.nativeType t).isKnown

end Registry

end SignalBridge
