import SignalBridge.Bridge.Binding

namespace SignalBridge

structure Wrapper where
  result : String
  name : String
  parameters : String
  body : Code.Statement
deriving DecidableEq, Repr

def Wrapper.lines (w : Wrapper) : List String :=
  Code.definition s!"{w.result} {w.name}({w.parameters})" [w.body.text ++ ";"]

namespace Binding

/-- The object that a wrapper is called for. -/
def object (b : Binding) : Code.Argument :=
  ⟨"ptr", [.call s!"static_cast<{b.owner}*>"]⟩

/-- The parameters of a wrapper as C++ values. -/
def cppArguments (b : Binding) : List Code.Argument :=
  b.parameters.map fun p => ⟨p.name, p.boundary.cppFromC false⟩

/-- The subject that calls the member on the object. -/
def memberCall (b : Binding) : Code.Subject :=
  .call s!"{b.object.text}->{b.member.name}" b.cppArguments

/-- Ties the signal to the method that reports it to Go, or unties it. -/
def linkWrapper (b : Binding) (verb : String) : Wrapper where
  result := "void"
  name := s!"{b.owner}_{exportedName verb}{b.suffix}"
  parameters := "void* ptr"
  body := .run (.call s!"QObject::{verb}"
    [b.object, ⟨s!"{b.owner}::{b.member.name}", [.mark "&"]⟩,
      b.object, ⟨s!"{b.owner}::Signal_{b.suffix}", [.mark "&"]⟩])

def wrappers (b : Binding) : List Wrapper :=
  match b.member.category with
  | .constructor =>
    let create := Code.Expression.call s!"new {b.owner}" b.cppArguments
    [⟨"void*", b.wrapperName, b.cParameterList, .give create⟩]
  | .destructor =>
    let delete : Code.Expression := ⟨.named b.object.text, [.mark "delete "]⟩
    [⟨"void", b.wrapperName, b.cParameterList, .run delete⟩]
  | .signal =>
    ["connect", "disconnect"].map b.linkWrapper ++
      [⟨"void", b.wrapperName, b.cParameterList, .run ⟨b.memberCall, []⟩⟩]
  | .slot =>
    let body : Code.Statement :=
      if b.returnsValue then .give ⟨b.memberCall, b.result.cppToC true⟩
      else .run ⟨b.memberCall, []⟩
    [⟨b.cResult, b.wrapperName, b.cParameterList, body⟩]

end Binding

def BoundClass.wrappers (c : BoundClass) : List Wrapper :=
  c.bindings.flatMap Binding.wrappers

end SignalBridge
