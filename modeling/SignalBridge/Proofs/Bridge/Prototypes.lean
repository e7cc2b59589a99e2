import Mathlib.Data.List.Forall2
import SignalBridge.Bridge.Wrapper
import SignalBridge.Proofs.Bridge.FunctionNames

namespace SignalBridge

open List (Forall₂)

structure Prototype where
  /-- The type of the result, if there is one. -/
  result : Option CType
  name : String
  parameters : List (String × CType)
deriving DecidableEq, Repr

namespace Prototype

def resultText (p : Prototype) : String :=
  (p.result.map CType.text).getD "void"

def parameterText (p : Prototype) : String :=
  ", ".intercalate (p.parameters.map fun (name, type) => type.text ++ " " ++ name)

def text (p : Prototype) : String :=
  p.resultText ++ " " ++ p.name ++ "(" ++ p.parameterText ++ ")"

/-- The text of a declaration. -/
def declared (p : Prototype) : String :=
  p.text ++ ";\n"

/-- A definition with a body of one statement. -/
def definition (p : Prototype) (body : String) : List String :=
  [p.text, "\x7b", "\t" ++ body ++ ";", "\x7d"]

/-- The text of such a definition, a blank line before it. -/
def defined (p : Prototype) (body : String) : String :=
  "\n" ++ p.text ++ "\n\x7b\n\t" ++ body ++ ";\n\x7d\n"

end Prototype

/-- The prototype, spelled part by part. -/
structure Prototype.Spelled (p : Prototype) (result name parameters : String) : Prop where
  result : result = p.resultText
  name : name = p.name
  parameters : parameters = p.parameterText

theorem Declaration.line_eq {d : Declaration} {p : Prototype}
    (h : p.Spelled d.result d.name d.parameters) : d.line = p.text ++ ";" := by
  apply String.toList_injective
  simp [Declaration.line, Prototype.text, h.result, h.name, h.parameters, toString]

theorem Wrapper.lines_eq {w : Wrapper} {p : Prototype}
    (h : p.Spelled w.result w.name w.parameters) :
    w.lines = p.definition w.body.text := by
  have htext : s!"{w.result} {w.name}({w.parameters})" = p.text := by
    rw [h.result, h.name, h.parameters]
    rfl
  rw [Wrapper.lines, htext, Prototype.definition, String.append_assoc]
  rfl

namespace Binding

variable (b : Binding)

/-- The C functions of a member. All but a constructor take the object first; a signal can also be
connected and disconnected, which takes nothing else. -/
def prototypes : List Prototype :=
  let object := ("ptr", CType.pointer)
  let own := b.parameters.map fun p => (p.name, p.boundary.cType)
  let name := underscored b.owner b.suffix
  match b.member.category with
  | .constructor => [⟨some .pointer, name, own⟩]
  | .destructor => [⟨none, name, object :: own⟩]
  | .signal =>
    [⟨none, underscored b.owner ("Connect" ++ b.suffix), [object]⟩,
      ⟨none, underscored b.owner ("Disconnect" ++ b.suffix), [object]⟩,
      ⟨none, name, object :: own⟩]
  | .slot =>
    [⟨if b.member.returnType = "void" then none else some b.result.cType, name, object :: own⟩]

section Parts

variable {b} {result : Option CType} {name : String}

theorem cParameterList_eq (h : b.member.category ≠ .constructor) :
    b.cParameterList = Prototype.parameterText ⟨result, name,
      ("ptr", CType.pointer) :: b.parameters.map fun p => (p.name, p.boundary.cType)⟩ := by
  rw [cParameterList, if_neg h, Prototype.parameterText, List.map_cons, List.map_map]
  rfl

theorem cParameterList_constructor (h : b.member.category = .constructor) :
    b.cParameterList = Prototype.parameterText ⟨result, name,
      b.parameters.map fun p => (p.name, p.boundary.cType)⟩ := by
  rw [cParameterList, if_pos h, Prototype.parameterText, List.map_map]
  rfl

theorem cResult_eq {parameters : List (String × CType)} (h : b.member.category = .slot) :
    b.cResult = Prototype.resultText
      ⟨if b.member.returnType = "void" then none else some b.result.cType, name, parameters⟩ := by
  by_cases hv : b.member.returnType = "void" <;>
    simp [cResult, returnsValue, h, hv, Prototype.resultText]

theorem exportedName_connect : exportedName "connect" = "Connect" := by decide +kernel

theorem exportedName_disconnect : exportedName "disconnect" = "Disconnect" := by decide +kernel

theorem linkName_eq {verb exported : String} (h : exportedName verb = exported) :
    (b.linkWrapper verb).name = underscored b.owner (exported ++ b.suffix) := by
  apply String.toList_injective
  simp [linkWrapper, underscored, h, toString]

end Parts

/-- What the header declares for a member. -/
theorem spelled_declarations :
    Forall₂ (fun d p => p.Spelled d.result d.name d.parameters) b.declarations b.prototypes := by
  have hname := b.wrapperName_eq
  cases hk : b.member.category with
  | constructor =>
    simp only [declarations, prototypes, hk]
    exact .cons ⟨rfl, hname, cParameterList_constructor hk⟩ .nil
  | destructor =>
    simp only [declarations, prototypes, hk]
    exact .cons ⟨rfl, hname, cParameterList_eq (hk ▸ by decide)⟩ .nil
  | signal =>
    simp only [declarations, prototypes, hk]
    exact .cons ⟨rfl, connect_eq .., rfl⟩ (.cons ⟨rfl, disconnect_eq .., rfl⟩
      (.cons ⟨rfl, hname, cParameterList_eq (hk ▸ by decide)⟩ .nil))
  | slot =>
    simp only [declarations, prototypes, hk]
    exact .cons ⟨cResult_eq hk, hname, cParameterList_eq (hk ▸ by decide)⟩ .nil

/-- What the source defines for a member. -/
theorem spelled_wrappers :
    Forall₂ (fun w p => p.Spelled w.result w.name w.parameters) b.wrappers b.prototypes := by
  have hname := b.wrapperName_eq
  cases hk : b.member.category with
  | constructor =>
    simp only [wrappers, prototypes, hk]
    exact .cons ⟨rfl, hname, cParameterList_constructor hk⟩ .nil
  | destructor =>
    simp only [wrappers, prototypes, hk]
    exact .cons ⟨rfl, hname, cParameterList_eq (hk ▸ by decide)⟩ .nil
  | signal =>
    simp only [wrappers, prototypes, hk]
    exact .cons ⟨rfl, linkName_eq exportedName_connect, rfl⟩
      (.cons ⟨rfl, linkName_eq exportedName_disconnect, rfl⟩
        (.cons ⟨rfl, hname, cParameterList_eq (hk ▸ by decide)⟩ .nil))
  | slot =>
    simp only [wrappers, prototypes, hk]
    exact .cons ⟨cResult_eq hk, hname, cParameterList_eq (hk ▸ by decide)⟩ .nil

end Binding

end SignalBridge
