namespace SignalBridge

inductive Visibility where
  | publicAccess
  | protectedAccess
  | privateAccess
deriving DecidableEq, Repr

namespace Visibility

/-- The visibilities and their names. -/
def names : List (String × Visibility) :=
  [("public", publicAccess), ("protected", protectedAccess), ("private", privateAccess)]

def text : Visibility → String
  | publicAccess => "public"
  | protectedAccess => "protected"
  | privateAccess => "private"

end Visibility

inductive Category where
  | signal
  | slot
  | constructor
  | destructor
deriving DecidableEq, Repr

namespace Category

/-- The categories and their names. -/
def names : List (String × Category) :=
  [("signal", signal), ("slot", slot), ("constructor", constructor), ("destructor", destructor)]

def text : Category → String
  | signal => "signal"
  | slot => "slot"
  | constructor => "constructor"
  | destructor => "destructor"

/-- Constructors and destructors are handed down to subclasses. -/
def isInherited (category : Category) : Bool :=
  category = .constructor || category = .destructor

end Category

inductive Virtuality where
  | nonvirtual
  | virtual
  | pureVirtual
deriving DecidableEq, Repr

namespace Virtuality

/-- The virtualities and their names. -/
def names : List (String × Virtuality) :=
  [("nonvirtual", nonvirtual), ("virtual", virtual), ("purevirtual", pureVirtual)]

def text : Virtuality → String
  | nonvirtual => "nonvirtual"
  | virtual => "virtual"
  | pureVirtual => "purevirtual"

end Virtuality

structure Parameter where
  name : String
  /-- The type as the source declares it; library members have none. -/
  hostType : String
  /-- The type on the Qt side; empty until types are mapped. -/
  nativeType : String
deriving DecidableEq, Repr

structure Member where
  name : String
  /-- The name qualified by its class, `Class::name`. -/
  fullName : String
  category : Category
  returnType : String
  /-- The result of a slot as the source declares it. -/
  hostReturn : Option String
  parameters : List Parameter
  virtuality : Virtuality
deriving DecidableEq, Repr

structure MetaClass where
  name : String
  visibility : Visibility
  moduleName : String
  base : Option String
  members : List Member
deriving DecidableEq, Repr

/-- The module of the classes that the sources declare. -/
def mainModule : String := "main"

/-- The class at the root of the object hierarchy. -/
def rootClass : String := "QObject"

def qualify (owner name : String) : String :=
  owner ++ "::" ++ name

namespace Member

/-- The text before the first `::`, or all of it. -/
def ownerText : List Char → List Char
  | [] => []
  | ':' :: ':' :: _ => []
  | c :: cs => c :: ownerText cs

/-- The class a member belongs to by its full name. -/
def ownerName (m : Member) : String :=
  String.ofList (ownerText m.fullName.toList)

/-- The name under which `derived` inherits the member: the class's own name and `~` before it
follow the class, any other name stays. -/
def nameFor (m : Member) (derived : String) : String :=
  if m.name = m.ownerName then derived
  else if m.name = "~" ++ m.ownerName then "~" ++ derived
  else m.name

/-- The member as `derived` inherits it. -/
def renamedFor (m : Member) (derived : String) : Member :=
  { m with name := m.nameFor derived, fullName := qualify derived (m.nameFor derived) }

/-- The host types that the member mentions, parameters first. -/
def hostTypes (m : Member) : List String :=
  m.parameters.map Parameter.hostType ++ m.hostReturn.toList

end Member

namespace MetaClass

def isDeclared (c : MetaClass) : Bool :=
  c.moduleName = mainModule

def hasMember (c : MetaClass) (fullName : String) : Bool :=
  c.members.any (·.fullName = fullName)

def membersOf (c : MetaClass) (category : Category) : List Member :=
  c.members.filter (·.category = category)

/-- Fills in the full names that a library file leaves out. -/
def qualifyMembers (c : MetaClass) : MetaClass :=
  { c with members := c.members.map fun m =>
      if m.fullName = "" then { m with fullName := qualify c.name m.name } else m }

end MetaClass

end SignalBridge
