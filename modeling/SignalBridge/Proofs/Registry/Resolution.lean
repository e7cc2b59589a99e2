import SignalBridge.Proofs.Registry.Ascent
import SignalBridge.Proofs.Registry.RoundLimit

namespace SignalBridge.Registry

variable {r : Registry} {name : String} {c : MetaClass}

section Propagated

theorem declaredNames_propagate (r : Registry) :
    r.propagate.registry.declaredNames = r.declaredNames :=
  propagate_induction (P := fun r' => r'.declaredNames = r.declaredNames)
    (fun r' _ _ h => (r'.declaredNames_mapMembers _).trans h) rfl

theorem names_propagate (r : Registry) : r.propagate.registry.names = r.names :=
  propagate_induction (P := fun r' => r'.names = r.names)
    (fun r' _ _ h => (r'.names_mapMembers _).trans h) rfl

/-- Classes of libraries gain nothing. -/
theorem mem_propagate_of_library (hc : c ∈ r.classes) (hl : c.isDeclared = false) :
    c ∈ r.propagate.registry.classes := by
  refine propagate_induction (P := fun r' => c ∈ r'.classes) ?_ hc
  intro r' name hn h
  obtain ⟨d, hd, rfl⟩ := List.mem_map.mp hn
  obtain ⟨hd, hdeclared⟩ := mem_declared_iff.mp hd
  have hne : c.name ≠ d.name := by
    intro he
    rw [eq_of_name_eq hc hd he, hdeclared] at hl
    cases hl
  exact List.mem_map.mpr ⟨c, h, by simp only [if_neg hne]⟩

theorem inheritRound_of_quiet {names : List String} (h : ∀ name ∈ names, r.gains name = []) :
    inheritRound names r = (r, 0) := by
  induction names with
  | nil => rfl
  | cons n ns ih =>
    rw [List.forall_mem_cons] at h
    have hv : r.addMembers n (r.gains n) = r := visit_of_gains_nil h.1
    simp only [inheritRound, hv, ih h.2]
    rw [h.1, List.length_nil]

/-- Where no declared class lacks anything, the first round is the last one. -/
theorem propagate_of_quiet (h : ∀ name ∈ r.declaredNames, r.gains name = []) :
    r.propagate = ⟨r, 0, 1⟩ := by
  have hround : inheritRound (r.declared.map MetaClass.name) r = (r, 0) := inheritRound_of_quiet h
  simp only [propagate, roundLimit, inheritRounds, hround, ↓reduceIte]

end Propagated

section Pruned

theorem mem_prune_iff :
    c ∈ r.prune.classes ↔ c ∈ r.classes ∧ (c.isDeclared → r.isObjectClass c.name) := by
  rw [prune, filter, List.mem_filter, Bool.or_eq_true, Bool.not_eq_true', ← Bool.not_eq_true,
    imp_iff_not_or]

theorem mem_strays_iff :
    c ∈ r.strays ↔ c ∈ r.classes ∧ c.isDeclared ∧ r.isObjectClass c.name = false := by
  rw [strays, List.mem_filter, mem_declared_iff, Bool.not_eq_true', and_assoc]

theorem name_mem_strays_iff (hc : c ∈ r.classes) : c.name ∈ r.strays.map MetaClass.name ↔
    c.isDeclared ∧ r.isObjectClass c.name = false := by
  rw [List.mem_map]
  constructor
  · rintro ⟨d, hd, hn⟩
    obtain ⟨hd, hstray⟩ := mem_strays_iff.mp hd
    obtain rfl := eq_of_name_eq hd hc hn
    exact hstray
  · intro hstray
    exact ⟨c, mem_strays_iff.mpr ⟨hc, hstray⟩, rfl⟩

theorem classes_prune (r : Registry) :
    r.prune.classes = r.classes.filter (·.name ∉ r.strays.map MetaClass.name) := by
  rw [prune, filter]
  apply List.filter_congr
  intro c hc
  simp only [name_mem_strays_iff hc]
  cases c.isDeclared <;> cases r.isObjectClass c.name <;> rfl

theorem names_prune (r : Registry) :
    r.prune.names = r.names.filter (· ∉ r.strays.map MetaClass.name) := by
  rw [names, names, List.filter_map, classes_prune]
  rfl

/-- Dropping classes leaves the ways up to the root as they are: no object class is dropped. -/
theorem isObjectClass_prune (r : Registry) (name : String) :
    r.prune.isObjectClass name = r.isObjectClass name :=
  congrFun (isObjectClass_filter fun c _ ho => by simp [ho]) name

theorem mem_declaredNames_prune (h : name ∈ r.prune.declaredNames) :
    name ∈ r.declaredNames ∧ r.isObjectClass name := by
  obtain ⟨c, hc, rfl⟩ := List.mem_map.mp h
  obtain ⟨hc, hd⟩ := mem_declared_iff.mp hc
  obtain ⟨hc, ho⟩ := mem_prune_iff.mp hc
  exact ⟨List.mem_map_of_mem (mem_declared_iff.mpr ⟨hc, hd⟩), ho hd⟩

theorem strays_prune (r : Registry) : r.prune.strays = [] := by
  rw [strays, List.filter_eq_nil_iff]
  intro c hc
  rw [isObjectClass_prune, (mem_declaredNames_prune (List.mem_map_of_mem hc)).2]
  simp

theorem prune_prune (r : Registry) : r.prune.prune = r.prune := by
  apply eq_of_classes
  rw [prune, filter, List.filter_eq_self]
  intro c hc
  rw [isObjectClass_prune]
  exact (List.mem_filter.mp hc).2

/-- A class finds a class after pruning only if it found it before. -/
theorem find?_prune (h : r.prune.find? name = some c) : r.find? name = some c := by
  rw [find?_eq_some_iff] at h ⊢
  exact ⟨(mem_prune_iff.mp h.1).1, h.2⟩

/-- A class that lacks nothing lacks nothing after pruning, for it has the same base or none. -/
theorem gains_prune (h : r.gains name = []) : r.prune.gains name = [] := by
  cases hf : r.prune.find? name with
  | none => rw [gains, hf]
  | some c =>
    rw [gains, find?_prune hf] at h
    rw [gains, hf]
    simp only [inherited] at h ⊢
    cases hb : c.base.bind r.prune.find? with
    | none => rfl
    | some base =>
      obtain ⟨b, hbase, hb⟩ := Option.bind_eq_some_iff.mp hb
      rw [hbase, Option.bind_some, find?_prune hb] at h
      exact h

theorem declared_prune (r : Registry) :
    r.prune.declared = r.declared.filter fun c => r.isObjectClass c.name := by
  simp only [declared, inModule, prune, filter, List.filter_filter]
  apply List.filter_congr
  intro c _
  by_cases h : c.moduleName = mainModule <;> simp [MetaClass.isDeclared, h]

/-- Every declared class is kept or dropped. -/
theorem prune_perm_strays (r : Registry) :
    (r.prune.declaredNames ++ r.strays.map MetaClass.name).Perm r.declaredNames := by
  rw [declaredNames, declared_prune, ← List.map_append]
  exact (List.filter_append_perm _ _).map _

end Pruned

/-- A resolved registry is at rest. -/
theorem resolve_resolve (r : Registry) :
    r.resolve.registry.resolve = ⟨r.resolve.registry, 0, 1, []⟩ := by
  have hquiet : ∀ name ∈ r.resolve.registry.declaredNames,
      r.resolve.registry.gains name = [] := by
    intro name hn
    obtain ⟨hn, -⟩ := mem_declaredNames_prune hn
    rw [declaredNames_propagate] at hn
    obtain ⟨c, hc, rfl⟩ := List.mem_map.mp hn
    exact gains_prune (r.gains_propagate c hc)
  rw [resolve, propagate_of_quiet hquiet]
  simp only [resolve, prune_prune, strays_prune, List.map_nil]

/-- Every declared class is resolved or dropped. -/
theorem resolve_perm_pruned (r : Registry) :
    (r.resolve.registry.declaredNames ++ r.resolve.pruned).Perm r.declaredNames :=
  (prune_perm_strays _).trans (.of_eq r.declaredNames_propagate)

/-- Classes of libraries stay as they are. -/
theorem mem_resolve_of_library (hc : c ∈ r.classes) (hl : c.isDeclared = false) :
    c ∈ r.resolve.registry.classes :=
  mem_prune_iff.mpr ⟨mem_propagate_of_library hc hl, fun hd => by rw [hl] at hd; cases hd⟩

end SignalBridge.Registry
