import SignalBridge.Artifact.Basic
import SignalBridge.Proofs.Bridge.HostCode
import SignalBridge.Proofs.Bridge.NativeCode
import SignalBridge.Proofs.Bridge.Prototypes

namespace SignalBridge

open Code (Marked)
open List (Forall₂)

namespace Code

variable {α : Type}

@[simp] theorem fileText_nil : fileText [] = "" := rfl

@[simp] theorem fileText_cons (line : String) (lines : List String) :
    fileText (line :: lines) = line ++ "\n" ++ fileText lines := by
  simp [fileText]

@[simp] theorem fileText_append (lines lines' : List String) :
    fileText (lines ++ lines') = fileText lines ++ fileText lines' := by
  simp [fileText]

theorem fileText_flatMap (f : α → List String) (xs : List α) :
    fileText (xs.flatMap f) = String.join (xs.map fun x => fileText (f x)) := by
  induction xs with
  | nil => rfl
  | cons x xs ih => rw [List.flatMap_cons, fileText_append, ih, List.map_cons, String.join_cons]

end Code

namespace HostFile

/-- The function that writes a list as one text. -/
def joinList : List String :=
  ["func mocJoinList(list []string) string \x7b",
    "\tvar b strings.Builder",
    "\tfor _, s := range list \x7b",
    "\t\tb.WriteString(strconv.Itoa(len(s)))",
    "\t\tb.WriteByte(':')",
    "\t\tb.WriteString(s)",
    "\t\x7d",
    "\treturn b.String()",
    "\x7d"]

/-- The function that reads a list from one text. -/
def splitList : List String :=
  ["func mocSplitList(data string) []string \x7b",
    "\tlist := make([]string, 0)",
    "\tfor len(data) > 0 \x7b",
    "\t\tcolon := strings.IndexByte(data, ':')",
    "\t\tif colon < 0 \x7b",
    "\t\t\tbreak",
    "\t\t\x7d",
    "\t\tn, err := strconv.Atoi(data[:colon])",
    "\t\tif err != nil || n < 0 || colon+1+n > len(data) \x7b",
    "\t\t\tbreak",
    "\t\t\x7d",
    "\t\tlist = append(list, data[colon+1:colon+1+n])",
    "\t\tdata = data[colon+1+n:]",
    "\t\x7d",
    "\treturn list",
    "\x7d"]

/-- What the Go file begins with. -/
def title (package : String) (pkgConfig : List String) : List String :=
  ["// Code generated by qtmoc. DO NOT EDIT.", "", "package " ++ package, "",
    "/*",
    "#cgo CXXFLAGS: -std=c++11 -fPIC",
    "#cgo pkg-config: " ++ " ".intercalate pkgConfig,
    "#include <stdlib.h>",
    "#include \"moc.h\"",
    "*/",
    "import \"C\""]

def importLines (lists : Bool) : List String :=
  ["import ("] ++ (if lists then ["\t\"strconv\"", "\t\"strings\""] else []) ++
    ["\t\"sync\"", "\t\"unsafe\"", ")"]

/-- The table of handlers and the functions that keep it. -/
def handlerLines : List String :=
  ["",
    "var (",
    "\tmocMu        sync.Mutex",
    "\tmocCallbacks = make(map[unsafe.Pointer]map[string]interface\x7b\x7d)",
    ")",
    "",
    "func mocConnect(ptr unsafe.Pointer, name string, f interface\x7b\x7d) \x7b",
    "\tmocMu.Lock()",
    "\tdefer mocMu.Unlock()",
    "\tif mocCallbacks[ptr] == nil \x7b",
    "\t\tmocCallbacks[ptr] = make(map[string]interface\x7b\x7d)",
    "\t\x7d",
    "\tmocCallbacks[ptr][name] = f",
    "\x7d",
    "",
    "func mocDisconnect(ptr unsafe.Pointer, name string) \x7b",
    "\tmocMu.Lock()",
    "\tdefer mocMu.Unlock()",
    "\tdelete(mocCallbacks[ptr], name)",
    "\x7d",
    "",
    "func mocCallback(ptr unsafe.Pointer, name string) (interface\x7b\x7d, bool) \x7b",
    "\tmocMu.Lock()",
    "\tdefer mocMu.Unlock()",
    "\tf, ok := mocCallbacks[ptr][name]",
    "\treturn f, ok",
    "\x7d",
    "",
    "func mocForget(ptr unsafe.Pointer) \x7b",
    "\tmocMu.Lock()",
    "\tdefer mocMu.Unlock()",
    "\tdelete(mocCallbacks, ptr)",
    "\x7d",
    "",
    "func mocBool(b bool) C.char \x7b",
    "\tif b \x7b",
    "\t\treturn 1",
    "\t\x7d",
    "\treturn 0",
    "\x7d"]

def listLines (lists : Bool) : List String :=
  if lists then [""] ++ joinList ++ [""] ++ splitList else []

/-- Whether lists pass in some class. -/
def passLists (cs : List BoundClass) : Bool :=
  cs.any fun c => c.bindings.any Binding.passesList

/-- The Go file: the functions of the classes follow those that it always has or has for lists. -/
theorem lines_ofClasses (package : String) (pkgConfig : List String) (cs : List BoundClass) :
    (ofClasses package pkgConfig cs).lines =
      title package pkgConfig ++ importLines (passLists cs) ++ handlerLines ++
        listLines (passLists cs) ++
        (cs.flatMap BoundClass.hostFunctions).flatMap fun g => "" :: g.marked.map Marked.text := by
  have hfunctions : ((cs.flatMap BoundClass.hostFunctions).flatMap fun g =>
      "" :: g.marked.map Marked.text) =
        (cs.flatMap BoundClass.hostFunctions).flatMap fun g => Code.apart g.lines := by
    simp only [HostFunction.map_text_marked, Code.apart]
  rw [hfunctions, lines, ofClasses]
  change _ = _ ++ importLines (passLists cs) ++ _ ++ listLines (passLists cs) ++ _
  cases hlists : passLists cs <;> simp only [passLists] at hlists <;> simp only [hlists]
  all_goals rfl

end HostFile

/-- What the header begins with. -/
def headerTop : List String :=
  ["// Code generated by qtmoc. DO NOT EDIT.", "", "#pragma once", "", "#ifndef GO_QTMOC_H",
    "#define GO_QTMOC_H", "", "#ifdef __cplusplus", "extern \"C\" \x7b", "#endif"]

def headerEnd : List String :=
  ["", "#ifdef __cplusplus", "\x7d", "#endif", "", "#endif"]

/-- What holds member by member holds of all members of a class. -/
theorem forall₂_flatMap {α β γ : Type} {R : β → γ → Prop} {f : α → List β} {g : α → List γ}
    (h : ∀ a, Forall₂ R (f a) (g a)) (xs : List α) : Forall₂ R (xs.flatMap f) (xs.flatMap g) := by
  have hsame : Forall₂ Eq xs xs := List.forall₂_refl xs
  apply List.rel_flatMap hsame
  rintro a _ rfl
  exact h a

namespace BoundClass

variable (c : BoundClass)

/-- The C functions of a class, member by member. -/
def prototypes : List Prototype :=
  c.bindings.flatMap Binding.prototypes

/-- The statements of which the C functions of a class consist. -/
def bodies : List String :=
  c.wrappers.map fun w => w.body.text

theorem spelled_declarations :
    Forall₂ (fun d p => p.Spelled d.result d.name d.parameters) c.declarations c.prototypes :=
  forall₂_flatMap Binding.spelled_declarations c.bindings

theorem spelled_wrappers :
    Forall₂ (fun w p => p.Spelled w.result w.name w.parameters) c.wrappers c.prototypes :=
  forall₂_flatMap Binding.spelled_wrappers c.bindings

theorem length_bodies : c.bodies.length = c.prototypes.length := by
  rw [bodies, List.length_map, c.spelled_wrappers.length_eq]

theorem map_line :
    c.declarations.map Declaration.line = c.prototypes.map fun p => p.text ++ ";" := by
  rw [← List.forall₂_eq_eq_eq, List.forall₂_map_left_iff, List.forall₂_map_right_iff]
  exact c.spelled_declarations.imp fun _ _ => Declaration.line_eq

theorem map_lines : c.wrappers.map Wrapper.lines =
    List.zipWith Prototype.definition c.prototypes c.bodies := by
  have hspelled := c.spelled_wrappers
  rw [bodies]
  generalize c.wrappers = wrappers, c.prototypes = prototypes at hspelled
  induction hspelled with
  | nil => rfl
  | cons h _ ih =>
    rw [List.map_cons, List.map_cons, List.zipWith_cons_cons, ih, Wrapper.lines_eq h]

end BoundClass

/-- The header: the prototypes of each class in turn. -/
theorem headerLines_eq (cs : List BoundClass) : headerLines cs =
    headerTop ++ cs.flatMap (fun c => "" :: c.prototypes.map fun p => p.text ++ ";") ++
      headerEnd := by
  simp only [headerLines, BoundClass.map_line, Code.apart]
  rfl

namespace NativeSource

def includeClass (name : String) : String :=
  s!"#include <{name}>"

theorem includeClass_injective : Function.Injective includeClass := by
  intro a b h
  have h : "#include <" ++ a ++ ">" = "#include <" ++ b ++ ">" := h
  exact (String.append_right_inj _).mp ((String.append_left_inj _).mp h)

def announce (name : String) : String :=
  s!"class {name};"

/-- What stands before the first class body. -/
def preamble (includes names : List String) : List String :=
  [generatedLine, "", includeLine headerName, includeLine "_cgo_export.h", ""] ++
    includes.map includeClass ++ helpers.flatMap Code.apart ++ Code.apart (names.map announce)

theorem lines_eq (r : Registry) (includes : List String) (cs : List MetaClass) :
    lines includes (cs.map r.boundClass) =
      preamble includes (cs.map MetaClass.name) ++ (cs.map r.boundClass).flatMap classLines ++
        Code.apart [includeLine metadataName] := by
  simp only [lines, preamble, List.map_map, List.append_assoc]
  rfl

/-- A class in the source, with a function under each of its prototypes. -/
theorem classLines_eq (c : BoundClass) : classLines c =
    "" :: c.native.marked.map Marked.text ++
      (List.zipWith Prototype.definition c.prototypes c.bodies).flatMap
        fun lines => "" :: lines := by
  rw [classLines, ← c.map_lines, List.flatMap_map, NativeClass.map_text_marked]
  rfl

end NativeSource

end SignalBridge
