import SignalBridge.Artifact.Names
import SignalBridge.Bridge.Binding

namespace SignalBridge

/-- A C function as the header declares it. -/
structure Declaration where
  result : String
  name : String
  parameters : String
deriving DecidableEq, Repr

def Declaration.line (d : Declaration) : String :=
  s!"{d.result} {d.name}({d.parameters});"

def Binding.declarations (b : Binding) : List Declaration :=
  match b.member.category with
  | .constructor => [⟨"void*", b.wrapperName, b.cParameterList⟩]
  | .destructor => [⟨"void", b.wrapperName, b.cParameterList⟩]
  | .signal =>
    [⟨"void", s!"{b.owner}_Connect{b.suffix}", "void* ptr"⟩,
      ⟨"void", s!"{b.owner}_Disconnect{b.suffix}", "void* ptr"⟩,
      ⟨"void", b.wrapperName, b.cParameterList⟩]
  | .slot => [⟨b.cResult, b.wrapperName, b.cParameterList⟩]

def BoundClass.declarations (c : BoundClass) : List Declaration :=
  c.bindings.flatMap Binding.declarations

def headerLines (cs : List BoundClass) : List String :=
  [generatedLine, "", "#pragma once", "", "#ifndef GO_QTMOC_H", "#define GO_QTMOC_H", "",
    "#ifdef __cplusplus", "extern \"C\" \x7b", "#endif"] ++
    cs.flatMap (fun c => Code.apart (c.declarations.map Declaration.line)) ++
    ["", "#ifdef __cplusplus", "\x7d", "#endif", "", "#endif"]

end SignalBridge
