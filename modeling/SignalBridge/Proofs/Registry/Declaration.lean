import SignalBridge.Outcome
import SignalBridge.Proofs.Registry.Lookup
import SignalBridge.Registry.Declared

namespace SignalBridge.Registry

open Source (StructDecl)

variable {r r' : Registry} {structs : List StructDecl} {s : StructDecl} {name : String}

@[simp] theorem shell_isDeclared (s : StructDecl) : s.shell.isDeclared := by
  simp [StructDecl.shell, MetaClass.isDeclared]

theorem find?_insert_shell (r : Registry) (s : StructDecl) (name : String) :
    (r.insert s.shell).find? name = if s.name = name then some s.shell else r.find? name :=
  r.find?_insert s.shell name

theorem any_isDeclared_of_declared_nil (h : r.declared = []) (name : String) :
    (r.find? name).any MetaClass.isDeclared = false := by
  cases hf : r.find? name with
  | none => rfl
  | some c =>
    cases hd : c.isDeclared with
    | false => simp [hd]
    | true =>
      have : c ∈ r.declared := mem_declared_iff.mpr ⟨(find?_eq_some_iff.mp hf).1, hd⟩
      simp [h] at this

/-- Structs can be declared when their names differ and no class that is declared has one of
them. -/
theorem declare_ok_iff : (∃ r', r.declare structs = .ok r') ↔
    (structs.map StructDecl.name).Nodup ∧
      ∀ s ∈ structs, (r.find? s.name).any MetaClass.isDeclared = false := by
  induction structs generalizing r with
  | nil => simp [declare]
  | cons s ss ih =>
    rw [List.map_cons, List.nodup_cons, List.forall_mem_cons]
    unfold declare
    cases hs : (r.find? s.name).any MetaClass.isDeclared with
    | true => simp
    | false =>
      simp only [Bool.false_eq_true, ↓reduceIte, ih, true_and, find?_insert_shell]
      constructor
      · rintro ⟨hnd, hall⟩
        have hne : ∀ t ∈ ss, t.name ≠ s.name := by
          intro t ht he
          have := hall t ht
          rw [if_pos he.symm] at this
          simp at this
        refine ⟨⟨?_, hnd⟩, ?_⟩
        · intro hm
          obtain ⟨t, ht, he⟩ := List.mem_map.mp hm
          exact hne t ht he
        · intro t ht
          have := hall t ht
          rwa [if_neg (hne t ht).symm] at this
      · rintro ⟨⟨hns, hnd⟩, hall⟩
        refine ⟨hnd, ?_⟩
        intro t ht
        have hne : s.name ≠ t.name := fun he => hns (he ▸ List.mem_map_of_mem ht)
        rw [if_neg hne]
        exact hall t ht

/-- A declared name stands for its struct; the other names stand for what they did. -/
theorem find?_declare (h : r.declare structs = .ok r') (name : String) :
    r'.find? name =
      ((structs.find? (·.name = name)).map StructDecl.shell).or (r.find? name) := by
  induction structs generalizing r with
  | nil => simp_all [declare]
  | cons s ss ih =>
    have hnd := (declare_ok_iff.mp ⟨r', h⟩).1
    rw [List.map_cons, List.nodup_cons] at hnd
    unfold declare at h
    split at h
    · cases h
    · rw [ih h, find?_insert_shell, List.find?_cons]
      by_cases he : s.name = name
      · have hnone : ss.find? (·.name = name) = none :=
          Keyed.find?_eq_none_iff.mpr (he ▸ hnd.1)
        simp [he, hnone]
      · simp [he]

/-- What a registry holds once structs with different names are declared and their members read. -/
theorem find?_attach (h : r.declare structs = .ok r') (name : String) :
    (r'.attach structs).find? name =
      ((structs.find? (·.name = name)).map fun s =>
        { s.shell with members := s.members r' }).or (r.find? name) := by
  have hnd := (declare_ok_iff.mp ⟨r', h⟩).1
  rw [attach, find?_mapMembers, find?_declare h]
  cases hs : structs.find? (·.name = name) with
  | none =>
    cases hc : r.find? name with
    | none => simp
    | some c =>
      obtain ⟨-, rfl⟩ := find?_eq_some_iff.mp hc
      simp [Keyed.filter_eq_toList hnd, hs]
  | some s =>
    obtain rfl : s.name = name := by simpa using List.find?_some hs
    simp [Keyed.filter_eq_toList hnd, hs, StructDecl.shell]

/-- The declared classes are those of before and one for each struct. -/
theorem declaredNames_attach (h : r.declare structs = .ok r') :
    (r'.attach structs).declaredNames.Perm (r.declaredNames ++ structs.map StructDecl.name) := by
  obtain ⟨hnd, hfree⟩ := declare_ok_iff.mp ⟨r', h⟩
  have hdisjoint : List.Disjoint r.declaredNames (structs.map StructDecl.name) := by
    intro name hn hs
    obtain ⟨c, hc, hd⟩ := mem_declaredNames_iff.mp hn
    obtain ⟨s, hmem, rfl⟩ := List.mem_map.mp hs
    have := hfree s hmem
    simp [hc, hd] at this
  refine (List.perm_ext_iff_of_nodup (nodup_declaredNames _)
    (List.nodup_append'.mpr ⟨nodup_declaredNames r, hnd, hdisjoint⟩)).mpr fun name => ?_
  rw [List.mem_append, mem_declaredNames_iff, mem_declaredNames_iff, find?_attach h]
  cases hs : structs.find? (·.name = name) with
  | some s =>
    have hmem : name ∈ structs.map StructDecl.name := by
      have hname : s.name = name := by simpa using List.find?_some hs
      exact hname ▸ List.mem_map_of_mem (List.mem_of_find?_eq_some hs)
    simp [hmem, StructDecl.shell, MetaClass.isDeclared]
  | none =>
    have hnot : name ∉ structs.map StructDecl.name := Keyed.find?_eq_none_iff.mp hs
    simp [hnot]

/-- A class that no struct declares anew stays as it is. -/
theorem mem_attach_of_library {c : MetaClass} (h : r.declare structs = .ok r') (hc : c ∈ r.classes)
    (hn : c.name ∉ structs.map StructDecl.name) : c ∈ (r'.attach structs).classes := by
  have hf : (r'.attach structs).find? c.name = some c := by
    rw [find?_attach h, Keyed.find?_eq_none_iff.mpr hn, find?_of_mem hc]
    rfl
  exact (find?_eq_some_iff.mp hf).1

/-- A field declares signals and slots only. -/
theorem category_of_fieldMember {owner tag type : String} {m : Member}
    (h : r.fieldMember? owner tag type = some m) : m.category = .signal ∨ m.category = .slot := by
  obtain ⟨marker, hm, h⟩ := Option.bind_eq_some_iff.mp h
  obtain ⟨-, -, h⟩ := Option.bind_eq_some_iff.mp h
  obtain rfl := Option.some.inj h
  obtain ⟨rest, -, rfl⟩ := Option.map_eq_some_iff.mp hm
  simp only
  split
  · exact .inr rfl
  · exact .inl rfl

theorem category_of_mem_members {m : Member} (h : m ∈ s.members r) :
    m.category = .signal ∨ m.category = .slot := by
  obtain ⟨f, -, hf⟩ := List.mem_filterMap.mp h
  obtain ⟨tag, -, hf⟩ := Option.bind_eq_some_iff.mp hf
  exact category_of_fieldMember hf

theorem build_ok_iff {files : List Source.SourceFile} {names : List String} :
    r.build files = .ok (r', names) ↔
      ∃ registered, r.declare (files.flatMap Source.SourceFile.structs) = .ok registered ∧
        r' = registered.attach (files.flatMap Source.SourceFile.structs) ∧
        names = (files.flatMap Source.SourceFile.structs).map StructDecl.name := by
  rw [build, bind_eq_ok_iff]
  simp only [pure_eq_ok, Except.ok.injEq, Prod.mk.injEq, eq_comm]

end SignalBridge.Registry
