import SignalBridge.Bridge.Boundary
import SignalBridge.Text.UpperCase

namespace SignalBridge

structure BoundParameter where
  name : String
  boundary : Boundary
deriving DecidableEq, Repr

structure Binding where
  /-- The name of the class. -/
  owner : String
  member : Member
  /-- What stands for the member in the names of its functions. -/
  suffix : String
  parameters : List BoundParameter
  result : Boundary
deriving DecidableEq, Repr

structure BoundClass where
  name : String
  base : String
  bindings : List Binding
deriving DecidableEq, Repr

/-- Names that a parameter cannot have, because C++ or the generated code needs them. -/
def reservedNames : List String :=
  ["C", "alignas", "alignof", "and", "and_eq", "asm", "auto", "bitand", "bitor", "bool", "catch",
    "char", "char16_t", "char32_t", "char8_t", "class", "co_await", "co_return", "co_yield",
    "compl", "concept", "const_cast", "consteval", "constexpr", "constinit", "decltype", "delete",
    "do", "double", "dynamic_cast", "emit", "enum", "explicit", "export", "extern", "f", "float",
    "friend", "inline", "int", "long", "mocResult", "mutable", "namespace", "new", "noexcept",
    "not", "not_eq", "nullptr", "ok", "operator", "or", "or_eq", "private", "protected", "ptr",
    "public", "register", "reinterpret_cast", "requires", "short", "signals", "signed", "sizeof",
    "slots", "static", "static_assert", "static_cast", "template", "this", "thread_local", "throw",
    "try", "typedef", "typeid", "typename", "union", "unsigned", "using", "virtual", "void",
    "volatile", "wchar_t", "while", "xor", "xor_eq", "zero"]

/-- The name of the parameter at position `i`, fit for C, C++ and Go alike. -/
def boundName (name : String) (i : Nat) : String :=
  if name = "" ∨ name = "_" then s!"v{i}"
  else if name ∈ reservedNames then s!"{name}{i}"
  else name

/-- The name with an upper-case letter in front, as Go exports it. -/
def exportedName (name : String) : String :=
  String.ofList (Text.upperFirst name.toList)

/-- What stands for a member in the names of its functions. Constructors after the first carry a
number; `built` is how many come before. -/
def Member.suffix (m : Member) (owner : String) (built : Nat) : String :=
  match m.category with
  | .constructor => if built = 0 then s!"New{owner}" else s!"New{owner}{built + 1}"
  | .destructor => s!"Destroy{owner}"
  | .signal | .slot => exportedName m.name

namespace Registry

def bind (r : Registry) (owner : String) (built : Nat) (m : Member) : Binding where
  owner := owner
  member := m
  suffix := m.suffix owner built
  parameters := m.parameters.mapIdx fun i p => ⟨boundName p.name i, r.boundary p.nativeType⟩
  result := r.boundary m.returnType

def bindAll (r : Registry) (owner : String) : (built : Nat) → List Member → List Binding
  | _, [] => []
  | built, m :: ms =>
    r.bind owner built m ::
      r.bindAll owner (if m.category = .constructor then built + 1 else built) ms

def boundClass (r : Registry) (c : MetaClass) : BoundClass :=
  ⟨c.name, c.base.getD "", r.bindAll c.name 0 c.members⟩

end Registry

namespace Binding

/-- Only slots give results. -/
def returnsValue (b : Binding) : Bool :=
  b.member.category = .slot && b.member.returnType ≠ "void"

/-- The C function through which Go reaches the member. -/
def wrapperName (b : Binding) : String :=
  s!"{b.owner}_{b.suffix}"

/-- The Go function through which C++ reaches the handler of the member. -/
def callbackName (b : Binding) : String :=
  s!"callback{b.owner}_{b.suffix}"

/-- The result of the C function. -/
def cResult (b : Binding) : String :=
  if b.returnsValue then b.result.cType.text else "void"

/-- The parameters of the C function. The object comes first; a constructor has none yet. -/
def cParameterList (b : Binding) : String :=
  let own := b.parameters.map fun p => Code.TypedName.typeFirst ⟨p.name, p.boundary.cType.text⟩
  Code.commaList (if b.member.category = .constructor then own else "void* ptr" :: own)

end Binding

end SignalBridge
