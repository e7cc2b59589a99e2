import SignalBridge.Bridge.Binding

namespace SignalBridge

/-- A member as the class body states it. -/
inductive ClassMember where
  /-- Hands its parameters to the constructor of the base. -/
  | constructor (parameters : List Code.TypedName)
  | destructor (body : Code.Statement)
  | method (result name : String) (parameters : List Code.TypedName) (body : Code.Statement)
  /-- A signal has no body of its own. -/
  | signal (name : String) (parameters : List Code.TypedName)
deriving DecidableEq, Repr

structure NativeClass where
  name : String
  base : String
  members : List ClassMember
  signals : List ClassMember
  slots : List ClassMember
deriving DecidableEq, Repr

namespace NativeClass

def parameterList (parameters : List Code.TypedName) : String :=
  Code.commaList (parameters.map Code.TypedName.typeFirst)

def memberLine (c : NativeClass) : ClassMember → String
  | .constructor parameters =>
    let handed := Code.commaList (parameters.map Code.TypedName.name)
    s!"{c.name}({parameterList parameters}) : {c.base}({handed}) \x7b\x7d;"
  | .destructor body => s!"~{c.name}() \x7b {body.text}; \x7d;"
  | .method result name parameters body =>
    s!"{result} {name}({parameterList parameters}) \x7b {body.text}; \x7d;"
  | .signal name parameters => s!"void {name}({parameterList parameters});"

/-- A section of the body with its label; an empty one is left out. -/
def sectionLines (c : NativeClass) (label : String) (members : List ClassMember) : List String :=
  if members.isEmpty then [] else label :: Code.indent (members.map c.memberLine)

def lines (c : NativeClass) : List String :=
  [s!"class {c.name}: public {c.base}", "\x7b", "Q_OBJECT", "public:"] ++
    Code.indent (c.members.map c.memberLine) ++
    c.sectionLines "signals:" c.signals ++
    c.sectionLines "public slots:" c.slots ++
    ["\x7d;"]

end NativeClass

namespace Binding

def cppParameters (b : Binding) : List Code.TypedName :=
  b.parameters.map fun p => ⟨p.name, p.boundary.cppType⟩

/-- Tells Go: the object, then the parameters as C values. -/
def callbackCall (b : Binding) : Code.Subject :=
  .call b.callbackName
    (⟨"this", []⟩ :: b.parameters.map fun p => ⟨p.name, p.boundary.cppToC false⟩)

/-- What the public part of the class states for a member. -/
def publicMember? (b : Binding) : Option ClassMember :=
  match b.member.category with
  | .constructor => some (.constructor b.cppParameters)
  | .destructor => some (.destructor (.run (.call b.callbackName [⟨"this", []⟩])))
  | .signal =>
    some (.method "void" s!"Signal_{b.suffix}" b.cppParameters (.run ⟨b.callbackCall, []⟩))
  | .slot => none

def signal? (b : Binding) : Option ClassMember :=
  if b.member.category = .signal then some (.signal b.member.name b.cppParameters) else none

def slot? (b : Binding) : Option ClassMember :=
  if b.member.category = .slot then
    some (if b.returnsValue then
      .method b.result.cppType b.member.name b.cppParameters
        (.give ⟨b.callbackCall, b.result.cppFromC true⟩)
    else .method "void" b.member.name b.cppParameters (.run ⟨b.callbackCall, []⟩))
  else none

end Binding

def BoundClass.native (c : BoundClass) : NativeClass where
  name := c.name
  base := c.base
  members := c.bindings.filterMap Binding.publicMember?
  signals := c.bindings.filterMap Binding.signal?
  slots := c.bindings.filterMap Binding.slot?

end SignalBridge
