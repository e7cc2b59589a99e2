import SignalBridge.Proofs.Artifact.Printed

namespace SignalBridge

open Code (Marked)

namespace BoundClass

variable (c : BoundClass)

theorem fileText_prototypes :
    Code.fileText ("" :: c.prototypes.map fun p => p.text ++ ";") =
      "\n" ++ String.join (c.prototypes.map Prototype.declared) := by
  have hline (p : Prototype) : p.text ++ ";" ++ "\n" = p.declared := String.append_assoc
  rw [Code.fileText_cons, Code.fileText, List.map_map]
  simp only [Function.comp_def, hline]
  rfl

theorem fileText_definition (p : Prototype) (body : String) :
    Code.fileText ("" :: p.definition body) = p.defined body := by
  apply String.toList_injective
  simp [Prototype.definition, Prototype.defined]

theorem fileText_definitions (prototypes : List Prototype) (bodies : List String) :
    Code.fileText
        ((List.zipWith Prototype.definition prototypes bodies).flatMap fun lines => "" :: lines) =
      String.join (List.zipWith Prototype.defined prototypes bodies) := by
  rw [Code.fileText_flatMap, List.map_zipWith]
  simp only [fileText_definition]

end BoundClass

namespace Registry

/-- The header of some classes. -/
def headerText (r : Registry) (cs : List MetaClass) : String :=
  Code.fileText (headerLines (cs.map r.boundClass))

/-- The source of some classes. -/
def sourceText (r : Registry) (cs : List MetaClass) : String :=
  Code.fileText (NativeSource.lines (r.includes cs) (cs.map r.boundClass))

variable (r : Registry) (cs : List MetaClass)

/-- The header is the declarations of each class in turn, between texts that are always the same. -/
theorem headerText_eq : r.headerText cs =
    Code.fileText headerTop ++
      String.join (cs.map fun c =>
        "\n" ++ String.join ((r.boundClass c).prototypes.map Prototype.declared)) ++
      Code.fileText headerEnd := by
  rw [headerText, headerLines_eq, Code.fileText_append, Code.fileText_append, Code.fileText_flatMap,
    List.map_map]
  simp only [Function.comp_def, BoundClass.fileText_prototypes]

/-- The source is each class in turn with its definitions behind it. What stands before depends on
the includes and the names of the classes only, what stands behind is always the same. -/
theorem sourceText_eq : r.sourceText cs =
    Code.fileText (NativeSource.preamble (r.includes cs) (cs.map MetaClass.name)) ++
      String.join (cs.map fun c =>
        Code.fileText ("" :: (r.boundClass c).native.marked.map Marked.text) ++
          String.join (List.zipWith Prototype.defined (r.boundClass c).prototypes
            (r.boundClass c).bodies)) ++
      "\n#include \"moc_moc.h\"\n" := by
  rw [sourceText, NativeSource.lines_eq, Code.fileText_append, Code.fileText_append,
    Code.fileText_flatMap, List.map_map]
  simp only [Function.comp_def, NativeSource.classLines_eq, Code.fileText_append,
    BoundClass.fileText_definitions]
  rfl

/-- For each class there is one list of prototypes: the header has their declarations, and the
source has under each of them, in the same order, a function whose body is one statement. -/
theorem header_source_prototypes :
    r.headerText cs = Code.fileText headerTop ++
      String.join (cs.map fun c =>
        "\n" ++ String.join ((r.boundClass c).prototypes.map Prototype.declared)) ++
      Code.fileText headerEnd ∧
    r.sourceText cs =
      Code.fileText (NativeSource.preamble (r.includes cs) (cs.map MetaClass.name)) ++
        String.join (cs.map fun c =>
          Code.fileText ("" :: (r.boundClass c).native.marked.map Marked.text) ++
            String.join (List.zipWith Prototype.defined (r.boundClass c).prototypes
              (r.boundClass c).bodies)) ++
        "\n#include \"moc_moc.h\"\n" ∧
    ∀ c, (r.boundClass c).bodies.length = (r.boundClass c).prototypes.length :=
  ⟨r.headerText_eq cs, r.sourceText_eq cs, fun c => (r.boundClass c).length_bodies⟩

end Registry

end SignalBridge
