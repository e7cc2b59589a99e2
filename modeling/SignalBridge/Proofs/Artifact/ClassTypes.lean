import Mathlib.Data.List.DropRight
import SignalBridge.Proofs.Artifact.Printed
import SignalBridge.Proofs.Bridge.Callbacks
import SignalBridge.Proofs.Bridge.MappedTypes
import SignalBridge.Proofs.Run.Emission

/-!
Class types of the C++ source. A type that a class is written with and that is not one of the
primitives or a nested name names a class or points to one, and this class is included or announced
before the first class body (`Registry.classTypes_declared`). The scope of a nested name is not
looked at.
-/

namespace SignalBridge

namespace ClassMember

/-- The types that the member is written with. -/
def types : ClassMember → List String
  | constructor parameters | signal _ parameters => parameters.map Code.TypedName.type
  | destructor _ => []
  | method result _ parameters _ => result :: parameters.map Code.TypedName.type

end ClassMember

namespace NativeClass

/-- The types that the members of a class are written with. -/
def types (c : NativeClass) : List String :=
  (c.members ++ c.signals ++ c.slots).flatMap ClassMember.types

end NativeClass

namespace NativeSource

theorem includeClass_mem_preamble {includes names : List String} {name : String}
    (h : name ∈ includes) : includeClass name ∈ preamble includes names := by
  have := List.mem_map_of_mem (f := includeClass) h
  simp [preamble, this]

theorem announce_mem_preamble {includes names : List String} {name : String}
    (h : name ∈ names) : announce name ∈ preamble includes names := by
  have := List.mem_map_of_mem (f := announce) h
  simp [preamble, Code.apart, this]

end NativeSource

section Stars

variable {type name : String}

theorem dropStars_eq (type : String) :
    dropStars type = String.ofList (type.toList.rdropWhile (· = '*')) := rfl

theorem dropStars_append_star (name : String) : dropStars (name ++ "*") = dropStars name := by
  rw [dropStars_eq, String.toList_append]
  exact congrArg String.ofList (List.rdropWhile_concat_pos _ _ _ rfl)

/-- A name without stars at its end is what its own type and its pointer type come down to. -/
theorem dropStars_of_name (hn : dropStars name = name) (h : type = name ∨ type = name ++ "*") :
    dropStars type = name := by
  rcases h with rfl | rfl
  · exact hn
  · rw [dropStars_append_star, hn]

end Stars

namespace Registry

variable {r : Registry} {cs : List MetaClass} {c d : MetaClass} {native name type : String}

section Includes

theorem libraryClass?_eq_some_iff : r.libraryClass? type = some name ↔
    name = dropStars type ∧ ∃ d ∈ r.classes, d.isDeclared = false ∧ d.name = name := by
  simp only [libraryClass?, Option.map_eq_some_iff, Option.filter_eq_some_iff, find?_eq_some_iff,
    Bool.not_eq_true']
  constructor
  · rintro ⟨d, ⟨⟨hd, hn⟩, hl⟩, rfl⟩
    exact ⟨hn, d, hd, hl, rfl⟩
  · rintro ⟨hn, d, hd, hl, rfl⟩
    exact ⟨d, ⟨⟨hd, hn⟩, hl⟩, rfl⟩

/-- What is included: some files always, and the library classes whose names the types that the
classes mention come down to without their stars. -/
theorem mem_includes_iff : name ∈ r.includes cs ↔ name ∈ fixedIncludes ∨
    (∃ d ∈ r.classes, d.isDeclared = false ∧ d.name = name) ∧
      ∃ c ∈ cs, ∃ type ∈ c.mentioned, dropStars type = name := by
  rw [includes, List.mem_eraseDups, List.mem_mergeSort, List.mem_append, List.mem_filterMap]
  simp only [List.mem_flatMap, libraryClass?_eq_some_iff]
  constructor
  · rintro (h | ⟨type, ⟨c, hc, ht⟩, hn, hd⟩)
    · exact .inl h
    · exact .inr ⟨hd, c, hc, type, ht, hn.symm⟩
  · rintro (h | ⟨hd, c, hc, type, ht, hn⟩)
    · exact .inl h
    · exact .inr ⟨type, ⟨c, hc, ht⟩, hn.symm, hd⟩

end Includes

section Types

/-- A type is written in C++ as it is mapped, or is a pointer to anything. -/
theorem cppType_boundary (r : Registry) (native : String) :
    (r.boundary native).cppType = native ∨ (r.boundary native).cppType = "void*" := by
  have hcross := r.crosses_boundary native
  generalize r.boundary native = boundary at hcross ⊢
  cases hcross with
  | primitive _ hb => exact .inl hb
  | object hn _ => exact .inl hn.symm
  | nested | value => exact .inl rfl
  | nothing | stranger | novalue => exact .inr rfl

/-- What a type of C++ can be: a primitive, a nested name, a pointer to a class or a class of the
library. -/
theorem cppType_cases (r : Registry) (native : String) :
    (r.boundary native).cppType ∈ primitiveTexts ∨
      Text.occurs "::".toList (r.boundary native).cppType.toList ∨
      ∃ d ∈ r.classes, (r.boundary native).cppType = d.name ++ "*" ∨
        d.isDeclared = false ∧ (r.boundary native).cppType = d.name := by
  have hcross := r.crosses_boundary native
  generalize r.boundary native = boundary at hcross ⊢
  cases hcross with
  | primitive hp hb => exact .inl (hb.symm ▸ hp)
  | nested ho => exact .inr (.inl ho)
  | object hn hc =>
    obtain ⟨d, hf⟩ := Option.isSome_iff_exists.mp hc
    obtain ⟨hd, rfl⟩ := find?_eq_some_iff.mp hf
    exact .inr (.inr ⟨d, hd, .inl rfl⟩)
  | value _ _ hany =>
    obtain ⟨d, hf, hl⟩ := (Option.any_eq_true _ _).mp hany
    obtain ⟨hd, rfl⟩ := find?_eq_some_iff.mp hf
    exact .inr (.inr ⟨d, hd, .inr ⟨by simpa using hl, rfl⟩⟩)
  | nothing | stranger | novalue => exact .inl (by decide)

theorem type_of_binding {b : Binding} {member : ClassMember}
    (h : b.publicMember? = some member ∨ b.signal? = some member ∨ b.slot? = some member)
    (ht : type ∈ member.types) : type = "void" ∨ type = b.result.cppType ∨
      ∃ p ∈ b.parameters, type = p.boundary.cppType := by
  have hparameters (ht : type ∈ b.cppParameters.map Code.TypedName.type) :
      ∃ p ∈ b.parameters, type = p.boundary.cppType := by
    rw [Binding.cppParameters, List.map_map] at ht
    obtain ⟨p, hp, rfl⟩ := List.mem_map.mp ht
    exact ⟨p, hp, rfl⟩
  unfold Binding.publicMember? Binding.signal? Binding.slot? at h
  cases hk : b.member.category <;>
    simp only [hk, reduceCtorEq, if_true, if_false, Option.some.injEq, false_or, or_false] at h
  case constructor =>
    subst h
    exact .inr (.inr (hparameters ht))
  case destructor =>
    subst h
    cases ht
  case signal =>
    rcases h with rfl | rfl
    · rcases List.mem_cons.mp ht with rfl | ht
      · exact .inl rfl
      · exact .inr (.inr (hparameters ht))
    · exact .inr (.inr (hparameters ht))
  case slot =>
    subst h
    split at ht <;> rcases List.mem_cons.mp ht with rfl | ht
    · exact .inr (.inl rfl)
    · exact .inr (.inr (hparameters ht))
    · exact .inl rfl
    · exact .inr (.inr (hparameters ht))

/-- A class is written with the types that its members mention. -/
theorem exists_native_of_mem_types (h : type ∈ (r.boundClass c).native.types) :
    type = "void" ∨ ∃ native ∈ c.mentioned, type = (r.boundary native).cppType := by
  obtain ⟨member, hmember, ht⟩ := List.mem_flatMap.mp h
  have hbinding : ∃ b ∈ r.bindAll c.name 0 c.members,
      b.publicMember? = some member ∨ b.signal? = some member ∨ b.slot? = some member := by
    simp only [BoundClass.native, boundClass, List.mem_append, List.mem_filterMap] at hmember
    rcases hmember with (⟨b, hb, hm⟩ | ⟨b, hb, hm⟩) | ⟨b, hb, hm⟩
    · exact ⟨b, hb, .inl hm⟩
    · exact ⟨b, hb, .inr (.inl hm)⟩
    · exact ⟨b, hb, .inr (.inr hm)⟩
  obtain ⟨b, hb, hm⟩ := hbinding
  obtain ⟨m, hmem, built, rfl⟩ := exists_bind_of_mem_bindAll hb
  have hmentioned {native : String}
      (hn : native ∈ m.returnType :: m.parameters.map Parameter.nativeType) :
      native ∈ c.mentioned :=
    List.mem_append_right _ (List.mem_flatMap.mpr ⟨m, hmem, hn⟩)
  rcases type_of_binding hm ht with hv | hresult | ⟨p, hp, hparameter⟩
  · exact .inl hv
  · exact .inr ⟨_, hmentioned List.mem_cons_self, hresult⟩
  · obtain ⟨i, hi, rfl⟩ := List.mem_mapIdx.mp hp
    exact .inr ⟨_, hmentioned (List.mem_cons_of_mem _ (List.mem_map_of_mem (List.getElem_mem hi))),
      hparameter⟩

end Types

/-- A library class is included for which a class has a type or a pointer type. `void` is no name
of a class in C++. -/
theorem mem_includes_of_type (hc : c ∈ cs) (hd : d ∈ r.classes) (hl : d.isDeclared = false)
    (hstars : dropStars d.name = d.name) (hv : d.name ≠ "void")
    (ht : type ∈ (r.boundClass c).native.types) (h : type = d.name ∨ type = d.name ++ "*") :
    d.name ∈ r.includes cs := by
  have hname := dropStars_of_name hstars h
  have hnone : type ≠ "void" ∧ type ≠ "void*" := by
    constructor <;> rintro rfl
    · exact hv (hname.symm.trans (by decide))
    · exact hv (hname.symm.trans (by decide))
  obtain ⟨native, hn, he⟩ := (exists_native_of_mem_types ht).resolve_left hnone.1
  have hnative : type = native := by
    rw [he] at hnone ⊢
    exact (cppType_boundary r native).resolve_right hnone.2
  subst hnative
  exact mem_includes_iff.mpr (.inr ⟨⟨d, hd, hl, rfl⟩, c, hc, type, hn, hname⟩)

theorem mem_includes_of_base (hc : c ∈ cs) (hd : d ∈ r.classes) (hl : d.isDeclared = false)
    (hstars : dropStars d.name = d.name) (hb : c.base = some d.name) :
    d.name ∈ r.includes cs := by
  refine mem_includes_iff.mpr (.inr ⟨⟨d, hd, hl, rfl⟩, c, hc, d.name, ?_, hstars⟩)
  exact List.mem_append_left _ (by simp [hb])

/-- Every class type of the source is declared before the first class body, the scopes of nested
names apart. The library classes included are those that the types mentioned come down to without
stars at their ends, so a class that is a base or whose type or pointer type occurs is among them,
but none for being a scope. The declared classes are announced. And each type that a class is
written with is `void`, a primitive, a nested name, the type of a library class or a pointer to a
class. -/
theorem classTypes_declared (r : Registry) (package : String) (packages : List String)
    (hbase : ∀ c ∈ r.declared, c.base ≠ none) :
    let includes := r.includes r.basesFirst
    let preamble := NativeSource.preamble includes (r.basesFirst.map MetaClass.name)
    (r.emit package packages).map Artifacts.source =
      .ok (Code.fileText (preamble ++ r.boundClasses.flatMap NativeSource.classLines ++
        Code.apart [includeLine metadataName])) ∧
    (∀ name, name ∈ includes ↔ name ∈ fixedIncludes ∨
      (∃ d ∈ r.classes, d.isDeclared = false ∧ d.name = name) ∧
        ∃ c ∈ r.declared, ∃ type ∈ c.mentioned, dropStars type = name) ∧
    ∀ c ∈ r.boundClasses,
      (∀ d ∈ r.classes, d.isDeclared = false → dropStars d.name = d.name →
        (c.base = d.name ∨
          d.name ≠ "void" ∧ ∃ type ∈ c.native.types, type = d.name ∨ type = d.name ++ "*") →
        NativeSource.includeClass d.name ∈ preamble) ∧
      (∀ d ∈ r.declared, d.name ++ "*" ∈ c.native.types →
        NativeSource.announce d.name ∈ preamble) ∧
      ∀ type ∈ c.native.types, type = "void" ∨ type ∈ primitiveTexts ∨
        Text.occurs "::".toList type.toList ∨
        ∃ d ∈ r.classes, type = d.name ++ "*" ∨ d.isDeclared = false ∧ type = d.name := by
  intro includes preamble
  have hmem (c : MetaClass) : c ∈ r.basesFirst ↔ c ∈ r.declared := r.basesFirst_perm.mem_iff
  refine ⟨?_, ?_, ?_⟩
  · rcases r.emit_cases package packages with ⟨c, hc, hb, -⟩ | ⟨-, he⟩
    · exact absurd hb (hbase c hc)
    · rw [he, Except.map, artifacts, boundClasses, NativeSource.lines_eq]
  · intro name
    rw [mem_includes_iff]
    simp only [hmem]
  · intro bound hbound
    obtain ⟨c, hc, rfl⟩ := List.mem_map.mp hbound
    refine ⟨?_, ?_, ?_⟩
    · intro d hd hl hstars h
      apply NativeSource.includeClass_mem_preamble
      rcases h with hb | ⟨hv, type, ht, h⟩
      · obtain ⟨base, hcb⟩ := Option.ne_none_iff_exists'.mp (hbase c ((hmem c).mp hc))
        have hname : base = d.name := by simpa [boundClass, hcb] using hb
        exact mem_includes_of_base hc hd hl hstars (hname ▸ hcb)
      · exact mem_includes_of_type hc hd hl hstars hv ht h
    · intro d hd _
      exact NativeSource.announce_mem_preamble (List.mem_map_of_mem ((hmem d).mpr hd))
    · intro type ht
      rcases exists_native_of_mem_types ht with hv | ⟨native, -, rfl⟩
      · exact .inl hv
      · exact .inr (r.cppType_cases native)

/-- A signal with one parameter of each kind of class type. -/
def viewClass : MetaClass :=
  ⟨"View", .publicAccess, mainModule, some rootClass,
    [⟨"shown", "View::shown", .signal, "void", none,
      [⟨"mode", "QWidget__RenderFlag", "QWidget::RenderFlag"⟩, ⟨"at", "QPoint", "QPoint"⟩,
        ⟨"next", "Node", "Node*"⟩, ⟨"by", "QObject", "QObject*"⟩], .nonvirtual⟩]⟩

/-- A view and a node, over three classes of the library. -/
def scene : Registry where
  classes := [⟨rootClass, .publicAccess, "core", none, []⟩,
    ⟨"QWidget", .publicAccess, "widgets", some rootClass, []⟩,
    ⟨"QPoint", .publicAccess, "core", none, []⟩, viewClass,
    ⟨"Node", .publicAccess, mainModule, some "View", []⟩]
  names_nodup := by decide

theorem classTypes_declared_scene :
    (∀ c ∈ scene.resolve.registry.declared, c.base ≠ none) ∧
    (let r := scene.resolve.registry
      let preamble :=
        NativeSource.preamble (r.includes r.basesFirst) (r.basesFirst.map MetaClass.name)
      (r.emit "main" []).map Artifacts.source =
          .ok (Code.fileText (preamble ++ r.boundClasses.flatMap NativeSource.classLines ++
            Code.apart [includeLine metadataName])) ∧
        "#include <QObject>" ∈ preamble ∧ "#include <QPoint>" ∈ preamble ∧
        "class Node;" ∈ preamble) := by
  have hbase : ∀ c ∈ scene.resolve.registry.declared, c.base ≠ none := by decide +kernel
  obtain ⟨hsource, -, hclasses⟩ := classTypes_declared scene.resolve.registry "main" [] hbase
  obtain ⟨hincluded, hannounced, -⟩ := hclasses (scene.resolve.registry.boundClass viewClass)
    (by decide +kernel)
  refine ⟨hbase, hsource, ?_, ?_, ?_⟩
  · exact hincluded ⟨rootClass, .publicAccess, "core", none, []⟩ (by decide +kernel) rfl
      (by decide +kernel) (.inl rfl)
  · exact hincluded ⟨"QPoint", .publicAccess, "core", none, []⟩ (by decide +kernel) rfl
      (by decide +kernel) (.inr ⟨by decide, "QPoint", by decide +kernel, .inl rfl⟩)
  · exact hannounced ⟨"Node", .publicAccess, mainModule, some "View", []⟩ (by decide +kernel)
      (by decide +kernel)

/-- The class that a nested name belongs to is not included for that. -/
theorem scopes_not_included : ¬ ∀ r : Registry,
    (∀ c ∈ r.resolve.registry.declared, c.base ≠ none) →
    ∀ c ∈ r.resolve.registry.boundClasses, ∀ type ∈ c.native.types,
    ∀ d ∈ r.resolve.registry.classes, d.isDeclared = false →
      (d.name ++ "::").toList <+: type.toList →
      NativeSource.includeClass d.name ∈
        NativeSource.lines (r.resolve.registry.includes r.resolve.registry.basesFirst)
          r.resolve.registry.boundClasses := by
  intro h
  have hwidget := h scene (by decide +kernel) (scene.resolve.registry.boundClass viewClass)
    (by decide +kernel) "QWidget::RenderFlag" (by decide +kernel)
    ⟨"QWidget", .publicAccess, "widgets", some rootClass, []⟩ (by decide +kernel) rfl (by decide)
  -- The sorted includes do not reduce, so they are set apart from the other lines.
  rw [boundClasses, NativeSource.lines_eq, NativeSource.preamble] at hwidget
  simp only [List.mem_append] at hwidget
  rcases hwidget with ((((hfirst | hincluded) | hhelper) | hannounced) | hbody) | hend
  · exact absurd hfirst (by decide)
  · obtain ⟨name, hn, he⟩ := List.mem_map.mp hincluded
    obtain rfl := NativeSource.includeClass_injective he
    have hmentioned := mem_includes_iff.mp hn
    revert hmentioned
    decide +kernel
  · exact absurd hhelper (by decide +kernel)
  · exact absurd hannounced (by decide +kernel)
  · exact absurd hbody (by decide +kernel)
  · exact absurd hend (by decide)

end Registry

end SignalBridge
