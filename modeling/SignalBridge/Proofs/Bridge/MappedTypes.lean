import SignalBridge.Bridge.Boundary
import SignalBridge.Proofs.Host.Mapping
import SignalBridge.Proofs.Registry.EitherOrder

/-!
Mapped types read back. Types are mapped before classes are dropped, and the text that this leaves
is read again afterwards, by a table of its own. The two agree: in C++ the type is written as it was
mapped, unless it is `void` or names a class that was dropped (`cppType_of_nativeType`).
-/

namespace SignalBridge

namespace Registry

variable {r : Registry} {native name : String} {c : MetaClass}

section Resolved

theorem contains_iff : r.contains name ↔ name ∈ r.names := by
  rw [contains, Option.isSome_iff_ne_none, ne_eq, find?_eq_none_iff, not_not]

/-- Propagation changes nothing of which classes are dropped. -/
theorem pruned_resolve (r : Registry) : r.resolve.pruned = r.strays.map MetaClass.name :=
  propagate_induction (P := fun r' => r'.strays.map MetaClass.name = r.strays.map MetaClass.name)
    (fun r' _ _ h => (strays_mapMembers _ r').trans h) rfl

theorem names_resolve (r : Registry) :
    r.resolve.registry.names = r.names.filter (· ∉ r.resolve.pruned) :=
  (names_prune _).trans (by rw [names_propagate]; rfl)

theorem mem_pruned_iff (hc : c ∈ r.classes) :
    c.name ∈ r.resolve.pruned ↔ c.isDeclared ∧ r.isObjectClass c.name = false := by
  rw [pruned_resolve, name_mem_strays_iff hc]

theorem contains_resolve_iff :
    r.resolve.registry.contains name ↔ r.contains name ∧ name ∉ r.resolve.pruned := by
  simp [contains_iff, names_resolve]

/-- A class that is no object stays if and only if it is from the library. -/
theorem isLibrary_resolve_iff (hc : r.contains name) (ho : r.isObjectClass name = false) :
    (r.resolve.registry.find? name).any (!·.isDeclared) ↔ name ∉ r.resolve.pruned := by
  obtain ⟨c, hf⟩ := Option.isSome_iff_exists.mp hc
  obtain ⟨hmem, rfl⟩ := find?_eq_some_iff.mp hf
  rw [mem_pruned_iff hmem, ho]
  cases hd : c.isDeclared with
  | false =>
    rw [find?_of_mem (mem_resolve_of_library hmem hd)]
    simp [hd]
  | true =>
    have hgone : ¬r.resolve.registry.contains c.name := fun hcontains =>
      (contains_resolve_iff.mp hcontains).2 ((mem_pruned_iff hmem).mpr ⟨hd, ho⟩)
    rw [contains, Option.not_isSome_iff_eq_none] at hgone
    simp [hgone]

end Resolved

section Boundary

/-- How the primitives are written on the Qt side. -/
def primitiveTexts : List String :=
  primitives.map Prod.snd

theorem cppType_of_primitive (h : native ∈ primitiveTexts) :
    (r.boundary native).cppType = native := by
  simp only [primitiveTexts, primitives, List.map_cons, List.map_nil, List.mem_cons,
    List.not_mem_nil, or_false] at h
  rcases h with rfl | rfl | rfl | rfl | rfl | rfl | rfl | rfl <;> rfl

theorem boundary_eq_classBoundary (hp : native ∉ primitiveTexts) (hv : native ≠ "void")
    (he : native ≠ "") : r.boundary native = r.classBoundary native := by
  unfold boundary
  split
  case h_10 => rfl
  all_goals first
    | exact absurd (by decide) hp
    | contradiction

theorem getLast?_star (name : String) : (name ++ "*").toList.getLast? = some '*' := by
  rw [String.toList_append]
  exact List.getLast?_concat

/-- What a native type crosses as, by how it is written and by the class that it names. -/
inductive Crosses (r : Registry) (native : String) : Boundary → Prop
  | primitive {boundary : Boundary} : native ∈ primitiveTexts → boundary.cppType = native →
      r.Crosses native boundary
  | nothing : native ∈ ["void", ""] → r.Crosses native .untyped
  | nested : Text.occurs "::".toList native.toList → r.Crosses native (.nested native)
  | object {name : String} : native = name ++ "*" → r.contains name →
      r.Crosses native (.object name)
  | stranger {name : String} : ¬Text.occurs "::".toList native.toList → native = name ++ "*" →
      ¬r.contains name → r.Crosses native .untyped
  | value : native ≠ "void" → native.toList.getLast? ≠ some '*' →
      (r.find? native).any (!·.isDeclared) → r.Crosses native (.value native)
  | novalue : native ∉ primitiveTexts → ¬Text.occurs "::".toList native.toList →
      native.toList.getLast? ≠ some '*' → ¬(r.find? native).any (!·.isDeclared) →
      r.Crosses native .untyped

theorem crosses_classBoundary (hp : native ∉ primitiveTexts) (hv : native ≠ "void") :
    r.Crosses native (r.classBoundary native) := by
  unfold classBoundary
  split
  case isTrue ho => exact .nested ho
  case isFalse ho =>
    rw [pointee?]
    by_cases hl : native.toList.getLast? = some '*'
    · have hname : native = String.ofList native.toList.dropLast ++ "*" := by
        rw [← String.toList_inj, String.toList_append, String.toList_ofList]
        exact (List.dropLast_append_getLast? _ hl).symm
      rw [if_pos hl]
      dsimp only
      split
      case isTrue hc => exact .object hname hc
      case isFalse hc => exact .stranger ho hname hc
    · rw [if_neg hl]
      dsimp only
      split
      case isTrue hany => exact .value hv hl hany
      case isFalse hany => exact .novalue hp ho hl hany

theorem crosses_boundary (r : Registry) (native : String) :
    r.Crosses native (r.boundary native) := by
  by_cases hp : native ∈ primitiveTexts
  · exact .primitive hp (cppType_of_primitive hp)
  by_cases hv : native = "void"
  · subst hv
    exact .nothing (by decide)
  by_cases he : native = ""
  · subst he
    exact .nothing (by decide)
  rw [boundary_eq_classBoundary hp hv he]
  exact crosses_classBoundary hp hv

theorem cppType_of_nested (h : Text.occurs "::".toList native.toList) :
    (r.boundary native).cppType = native := by
  have hcross := r.crosses_boundary native
  generalize r.boundary native = boundary at hcross ⊢
  cases hcross with
  | primitive _ hb => exact hb
  | nothing hn =>
    have hplain : ∀ text ∈ ["void", ""], ¬Text.occurs "::".toList text.toList := by decide
    exact absurd h (hplain native hn)
  | object hn _ => exact hn.symm
  | nested | value => rfl
  | stranger ho | novalue _ ho => exact absurd h ho

theorem cppType_of_pointer (hc : r.contains name) :
    (r.boundary (name ++ "*")).cppType = name ++ "*" := by
  have hcross := r.crosses_boundary (name ++ "*")
  generalize r.boundary (name ++ "*") = boundary at hcross ⊢
  cases hcross with
  | primitive _ hb => exact hb
  | nothing hn =>
    have hplain : ∀ text ∈ ["void", ""], text.toList.getLast? ≠ some '*' := by decide
    exact absurd (getLast?_star name) (hplain _ hn)
  | object hn _ => exact hn.symm
  | nested | value => rfl
  | stranger _ hn hc' =>
    obtain rfl := (String.append_left_inj "*").mp hn
    exact absurd hc hc'
  | novalue _ _ hl => exact absurd (getLast?_star name) hl

theorem cppType_of_name (h : Source.Pattern.ident.Matches name.toList) :
    (r.boundary name).cppType =
      if name ∈ primitiveTexts ∨ name ≠ "void" ∧ (r.find? name).any (!·.isDeclared) then name
      else "void*" := by
  have hstar (other : String) : name ≠ other ++ "*" := by
    rintro rfl
    exact not_mem_ident h rfl (List.mem_of_getLast? (getLast?_star other))
  have hcross := r.crosses_boundary name
  generalize r.boundary name = boundary at hcross ⊢
  cases hcross with
  | primitive hp hb => rw [if_pos (.inl hp), hb]
  | nothing hn =>
    rcases List.mem_pair.mp hn with rfl | rfl
    · rfl
    · exact absurd rfl h.ne_nil
  | nested ho =>
    have hcolon : ':' ∉ name.toList := not_mem_ident h rfl
    rw [Text.occurs_eq_false (by decide) hcolon] at ho
    cases ho
  | object hn | stranger _ hn => exact absurd hn (hstar _)
  | value hv _ hany => exact (if_pos (.inr ⟨hv, hany⟩)).symm
  | novalue hp _ _ hany =>
    rw [if_neg]
    · rfl
    · rintro (hp' | ⟨-, hany'⟩)
      · exact hp hp'
      · exact hany hany'

/-- A pointer in C++ is one to a class of the registry, unless it is one to anything. -/
theorem contains_of_cppType (h : (r.boundary native).cppType = name ++ "*") (hv : name ≠ "void")
    (hn : ¬Text.occurs "::".toList (name ++ "*").toList) : r.contains name := by
  have hstar := getLast?_star name
  have hvoid : name ++ "*" ≠ "void*" := fun he => hv ((String.append_left_inj "*").mp he)
  have hcross := r.crosses_boundary native
  generalize r.boundary native = boundary at h hcross
  cases hcross with
  | primitive hp hb =>
    rw [← hb, h] at hp
    have hpointers : ∀ p ∈ primitiveTexts, p.toList.getLast? = some '*' → p = "void*" := by decide
    exact absurd (hpointers _ hp hstar) hvoid
  | nested ho =>
    rw [← h] at hn
    exact absurd ho hn
  | object _ hc =>
    obtain rfl := (String.append_left_inj "*").mp h
    exact hc
  | value _ hl =>
    rw [← h] at hstar
    exact absurd hstar hl
  | nothing | stranger | novalue => exact absurd h.symm hvoid

end Boundary

theorem occurs_of_scopes? {text nested : List Char} (h : scopes? text = some nested) :
    Text.occurs "::".toList nested := by
  fun_induction scopes? text generalizing nested with
  | case1 cs ih =>
    cases h
    rfl
  | case2 c cs hc ih =>
    obtain ⟨rest, hrest, rfl⟩ := Option.map_eq_some_iff.mp h
    rw [Text.occurs, ih hrest, Bool.or_true]
  | case3 => cases h

theorem cppType_of_object (hc : r.contains name) (ho : r.isObjectClass name) :
    (r.resolve.registry.boundary (name ++ "*")).cppType = name ++ "*" := by
  refine cppType_of_pointer (contains_resolve_iff.mpr ⟨hc, fun hp => ?_⟩)
  obtain ⟨c, hmem, rfl⟩ := List.mem_map.mp (pruned_resolve r ▸ hp)
  have hstray := (mem_strays_iff.mp hmem).2.2
  rw [ho] at hstray
  cases hstray

section Mapped

variable (hr : ∀ c ∈ r.classes, Source.Pattern.ident.Matches c.name.toList)
include hr

theorem ident_of_mem_pruned (h : name ∈ r.resolve.pruned) :
    Source.Pattern.ident.Matches name.toList := by
  rw [pruned_resolve] at h
  obtain ⟨c, hc, rfl⟩ := List.mem_map.mp h
  exact hr c (mem_strays_iff.mp hc).1

theorem cppType_of_library (hc : c ∈ r.classes) (hl : c.isDeclared = false)
    (hv : c.name ≠ "void") : (r.resolve.registry.boundary c.name).cppType = c.name := by
  rw [cppType_of_name (hr c hc), find?_of_mem (mem_resolve_of_library hc hl)]
  simp [hv, hl]

theorem cppType_of_nonobject (hc : r.contains name) (ho : r.isObjectClass name = false) :
    (r.resolve.registry.boundary name).cppType =
      if name = "void" ∨ name ∈ r.resolve.pruned ∧ name ∉ primitiveTexts then "void*"
      else name := by
  have hvoid : "void" ∉ primitiveTexts := by decide
  simp only [cppType_of_name (ident_of_contains hr hc), isLibrary_resolve_iff hc ho]
  by_cases hp : name ∈ primitiveTexts
  · have hv : name ≠ "void" := ne_of_mem_of_not_mem hp hvoid
    simp [hp, hv]
  by_cases hv : name = "void"
  · subst hv
    simp [hvoid]
  · by_cases hd : name ∈ r.resolve.pruned <;> simp [hp, hv, hd]

/-- The type in C++ of what a type is mapped to. -/
theorem cppType_of_maps {type : List Char} {t : NativeType} (h : r.Maps type t) :
    (r.resolve.registry.boundary t.text).cppType =
      if t = .unmapped ∨ t.text = "void" ∨
        t.text ∈ r.resolve.pruned ∧ t.text ∉ primitiveTexts then "void*" else t.text := by
  have hpruned (text : String) (c : Char) (hc : c ∈ text.toList)
      (hpart : Source.Lexeme.isIdentPart c = false) : text ∉ r.resolve.pruned := fun hp =>
    not_mem_ident (ident_of_mem_pruned hr hp) hpart hc
  cases h with
  | @primitive native hp =>
    obtain ⟨before, after, he, -⟩ := List.lookup_eq_some_iff.mp hp
    have hmem : native ∈ primitiveTexts := by simp [primitiveTexts, he]
    have hv : native ≠ "void" := ne_of_mem_of_not_mem hmem (by decide)
    rw [NativeType.text, cppType_of_primitive hmem, if_neg (by simp [hv, hmem])]
  | nested hp ho =>
    have hocc := occurs_of_scopes? (scopes?_of_occurs ho)
    generalize joinScopes (scopeParts (Text.afterLast '.' type)) = nested at hocc ⊢
    rw [← String.toList_ofList (l := nested)] at hocc
    generalize String.ofList nested = native at hocc ⊢
    have hcolon : ':' ∈ native.toList := by
      by_contra hno
      rw [Text.occurs_eq_false (by decide) hno] at hocc
      cases hocc
    have hv : native ≠ "void" := fun he => absurd (he ▸ hcolon) (by decide)
    rw [NativeType.text, cppType_of_nested hocc,
      if_neg (by simp [hv, hpruned _ ':' hcolon rfl])]
  | @ofClass name hp ho hn hc =>
    rw [NativeType.text]
    cases hobject : r.isObjectClass name with
    | true =>
      have hstar : '*' ∈ (name ++ "*").toList := by simp
      have hv : name ++ "*" ≠ "void" := fun he => absurd (he ▸ hstar) (by decide)
      rw [if_pos rfl, cppType_of_object hc hobject, if_neg]
      simp [hv, hpruned _ '*' hstar rfl]
    | false =>
      rw [if_neg Bool.false_ne_true, cppType_of_nonobject hr hc hobject]
      simp only [reduceCtorEq, false_or]
  | unmapped hp ho hc =>
    rw [if_pos (.inl rfl)]
    rfl

end Mapped

/-- A type read back after the classes that are no objects were dropped. It is written in C++ as it
was mapped, unless it is `void` or a class that was dropped and that has not the name of a
primitive. So values of library classes, objects, primitives and nested names all keep their types,
and no pointer is to a class that is gone. -/
theorem cppType_of_nativeType (hr : ∀ c ∈ r.classes, Source.Pattern.ident.Matches c.name.toList)
    (hostType : String) :
    let native := r.nativeType hostType
    let printed := (r.resolve.registry.boundary native.text).cppType
    (printed = if native = .unmapped ∨ native.text = "void" ∨
        native.text ∈ r.resolve.pruned ∧ native.text ∉ primitiveTexts then "void*"
      else native.text) ∧
    (∀ c ∈ r.classes, c.isDeclared = false → c.name ≠ "void" → native = .known c.name →
      printed = c.name) ∧
    (∀ c ∈ r.classes, r.isObjectClass c.name → native = .known (c.name ++ "*") →
      printed = c.name ++ "*") ∧
    (∀ p ∈ primitives, native = .known p.2 → printed = p.2) ∧
    (Text.occurs "::".toList native.text.toList → printed = native.text) ∧
    ∀ name, printed = name ++ "*" → name ≠ "void" → ¬Text.occurs "::".toList printed.toList →
      r.resolve.registry.contains name := by
  intro native printed
  refine ⟨cppType_of_maps hr (r.maps_nativeType hostType), ?_, ?_, ?_, cppType_of_nested, ?_⟩
  · intro c hc hl hv hn
    simp only [printed, hn]
    exact cppType_of_library hr hc hl hv
  · intro c hc ho hn
    simp only [printed, hn]
    exact cppType_of_object (contains_iff.mpr (List.mem_map_of_mem hc)) ho
  · intro p hp hn
    simp only [printed, hn]
    exact cppType_of_primitive (List.mem_map_of_mem hp)
  · intro name hn hv hnested
    exact contains_of_cppType hn hv (hn ▸ hnested)

/-- Two classes of the library, an object of the sources, and two classes that are no objects, one
of which has the name of a primitive. -/
def assortment : Registry :=
  ⟨[⟨rootClass, .publicAccess, "core", none, []⟩, ⟨"QPoint", .publicAccess, "core", none, []⟩,
    ⟨"Panel", .publicAccess, mainModule, some rootClass, []⟩,
    ⟨"Settings", .publicAccess, mainModule, none, []⟩,
    ⟨"QString", .publicAccess, mainModule, none, []⟩], by decide⟩

theorem cppType_of_nativeType_assortment :
    (∀ c ∈ assortment.classes, Source.Pattern.ident.Matches c.name.toList) ∧
    ["*core.QPoint", "*Panel", "[]string", "core.Qt__Edge", "Settings", "QString", "*error"].map
      (fun t => (assortment.resolve.registry.boundary (assortment.nativeType t).text).cppType) =
        ["QPoint", "Panel*", "QStringList", "Qt::Edge", "void*", "QString", "void*"] ∧
    assortment.resolve.registry.contains "Panel" := by
  have hident : ∀ c ∈ assortment.classes, Source.Pattern.ident.Matches c.name.toList := by
    have hall : ∀ c ∈ assortment.classes,
        c.name.toList.head?.any Source.Lexeme.isIdentStart ∧
          c.name.toList.tail.all Source.Lexeme.isIdentPart := by decide
    exact fun c hc => ident_of_head_tail (hall c hc).1 (hall c hc).2
  have hall := cppType_of_nativeType hident
  have hpoint := (hall "*core.QPoint").2.1 ⟨"QPoint", .publicAccess, "core", none, []⟩
    (by decide) rfl (by decide) (by decide)
  have hpanel := (hall "*Panel").2.2.1 ⟨"Panel", .publicAccess, mainModule, some rootClass, []⟩
    (by decide) (by decide) (by decide)
  have hlist := (hall "[]string").2.2.2.1 ("[]string", "QStringList") (by decide) (by decide)
  have hedge := (hall "core.Qt__Edge").2.2.2.2.1 (by decide)
  have hsettings := (hall "Settings").1
  have hstring := (hall "QString").1
  have herror := (hall "*error").1
  rw [if_pos (by decide)] at hsettings herror
  rw [if_neg (by decide)] at hstring
  refine ⟨hident, ?_, (hall "*Panel").2.2.2.2.2 "Panel" hpanel (by decide) (by decide)⟩
  simp only [List.map_cons, List.map_nil, hpoint, hpanel, hlist, hedge, hsettings, hstring, herror]
  decide

end Registry

end SignalBridge
