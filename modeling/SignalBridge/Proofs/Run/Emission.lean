import SignalBridge.Proofs.Registry.BasesFirst
import SignalBridge.Proofs.Run.ClassNames
import SignalBridge.Proofs.Run.Writing

/-!
When the artifacts cannot be made. Pruning leaves no declared classes but objects, and an object has
a base unless it goes by the name of the root class. After resolution only a class declared under
that name can lack one, and for want of a base no run ends but for that of this class
(`emission_fails_at_bareRoot`).
-/

namespace SignalBridge

section Classes

variable {r : Registry} {c : MetaClass}

namespace Registry

/-- A class is declared under the name of the root class, without a base. -/
def DeclaresBareRoot (r : Registry) : Prop :=
  ∃ c ∈ r.declared, c.name = rootClass ∧ c.base = none

instance (r : Registry) : Decidable r.DeclaresBareRoot :=
  inferInstanceAs (Decidable (∃ c ∈ r.declared, c.name = rootClass ∧ c.base = none))

theorem declaresBareRoot_mapMembers (r : Registry) (f : MetaClass → List Member) :
    (r.mapMembers f).DeclaresBareRoot ↔ r.DeclaresBareRoot := by
  simp only [DeclaresBareRoot, declared, inModule, mapMembers, List.filter_map, List.mem_map]
  constructor
  · rintro ⟨-, ⟨c, hc, rfl⟩, h⟩
    exact ⟨c, hc, h⟩
  · rintro ⟨c, hc, h⟩
    exact ⟨_, ⟨c, hc, rfl⟩, h⟩

theorem declaresBareRoot_propagate (r : Registry) :
    r.propagate.registry.DeclaresBareRoot ↔ r.DeclaresBareRoot :=
  propagate_induction (P := fun r' => r'.DeclaresBareRoot ↔ r.DeclaresBareRoot)
    (fun r' _ _ h => (r'.declaresBareRoot_mapMembers _).trans h) .rfl

theorem declaresBareRoot_prune (r : Registry) : r.prune.DeclaresBareRoot ↔ r.DeclaresBareRoot := by
  simp only [DeclaresBareRoot, declared_prune, List.mem_filter]
  constructor
  · rintro ⟨c, ⟨hc, -⟩, h⟩
    exact ⟨c, hc, h⟩
  · rintro ⟨c, hc, hn, hb⟩
    exact ⟨c, ⟨hc, hn ▸ r.isObjectClass_rootClass⟩, hn, hb⟩

theorem declaresBareRoot_resolve (r : Registry) :
    r.resolve.registry.DeclaresBareRoot ↔ r.DeclaresBareRoot :=
  (declaresBareRoot_prune _).trans r.declaresBareRoot_propagate

/-- An object without a base goes by the name of the root class. -/
theorem name_eq_rootClass (hc : c ∈ r.classes) (ho : r.isObjectClass c.name) (hb : c.base = none) :
    c.name = rootClass := by
  by_contra hne
  obtain ⟨base, hbase, -⟩ := exists_object_base hc hne ho
  rw [hb] at hbase
  cases hbase

theorem emit_cases (r : Registry) (package : String) (packages : List String) :
    (∃ c ∈ r.declared, c.base = none ∧ r.emit package packages = .error ⟨c.name⟩) ∨
      (∀ c ∈ r.declared, c.base ≠ none) ∧
        r.emit package packages = .ok (r.artifacts package packages) := by
  have hmem (c : MetaClass) : c ∈ r.basesFirst ↔ c ∈ r.declared := r.basesFirst_perm.mem_iff
  unfold emit
  cases hf : r.basesFirst.find? (·.base.isNone) with
  | some c =>
    have hc := (hmem c).mp (List.mem_of_find?_eq_some hf)
    have hnone := List.find?_some (p := fun c : MetaClass => c.base.isNone) hf
    exact .inl ⟨c, hc, Option.isNone_iff_eq_none.mp hnone, rfl⟩
  | none =>
    refine .inr ⟨fun c hc hb => ?_, rfl⟩
    have := List.find?_eq_none.mp hf c ((hmem c).mpr hc)
    simp [hb] at this

/-- In a pruned registry no other class than that of the root can lack a base. -/
theorem emit_prune (r : Registry) (package : String) (packages : List String) :
    r.prune.emit package packages = if r.DeclaresBareRoot then .error ⟨rootClass⟩
      else .ok (r.prune.artifacts package packages) := by
  rcases r.prune.emit_cases package packages with ⟨c, hc, hb, he⟩ | ⟨hbased, he⟩
  · have ho := (mem_declaredNames_prune (List.mem_map_of_mem hc)).2
    have hmem := (mem_prune_iff.mp (mem_declared_iff.mp hc).1).1
    have hn := name_eq_rootClass hmem ho hb
    rw [he, hn, if_pos (r.declaresBareRoot_prune.mp ⟨c, hc, hn, hb⟩)]
  · rw [he, if_neg]
    intro hbare
    obtain ⟨c, hc, -, hb⟩ := r.declaresBareRoot_prune.mpr hbare
    exact hbased c hc hb

theorem emit_resolve (r : Registry) (package : String) (packages : List String) :
    r.resolve.registry.emit package packages = if r.DeclaresBareRoot then .error ⟨rootClass⟩
      else .ok (r.resolve.registry.artifacts package packages) := by
  simp only [resolve, emit_prune, declaresBareRoot_propagate]

end Registry

end Classes

section Runs

variable {m : Machine} {config : Config} {inputs : Inputs} {d : Disk} {e : NoBase}
  {model : ClassModel}

theorem ClassModel.ofInputs_ok (h : ClassModel.ofInputs config inputs = .ok model) :
    ∃ r : Registry, model.registry = r.resolve.registry := by
  obtain ⟨files, -, h⟩ := bind_eq_ok_iff.mp h
  obtain ⟨libraries, -, h⟩ := bind_eq_ok_iff.mp h
  obtain ⟨r, -, hres⟩ := ClassModel.build_ok h
  exact ⟨r.mapTypes, congrArg Registry.Resolution.registry hres⟩

theorem ClassModel.emit_eq_error_iff (h : ClassModel.ofInputs config inputs = .ok model) :
    model.registry.emit model.package config.packages = .error e ↔
      e = ⟨rootClass⟩ ∧ model.registry.DeclaresBareRoot := by
  obtain ⟨r, hr⟩ := ClassModel.ofInputs_ok h
  rw [hr, Registry.emit_resolve, r.declaresBareRoot_resolve]
  by_cases hbare : r.DeclaresBareRoot <;> simp [hbare, eq_comm]

theorem Plan.ofInputs_eq_noBase_iff : Plan.ofInputs config inputs = .error (.noBase e) ↔
    ∃ model, ClassModel.ofInputs config inputs = .ok model ∧ model.discovered ≠ [] ∧
      model.registry.emit model.package config.packages = .error e := by
  constructor
  · intro h
    rcases bind_eq_error_iff.mp h with h | ⟨model, hm, h⟩
    · rcases kind_ofInputs h with hk | hk <;> cases hk
    · split at h
      · cases h
      · rename_i hd
        split at h
        · rename_i he
          cases h
          exact ⟨model, hm, fun hnil => hd (List.isEmpty_iff.mpr hnil), he⟩
        · cases h
  · rintro ⟨model, hm, hd, he⟩
    refine bind_eq_error_iff.mpr (.inr ⟨model, hm, ?_⟩)
    rw [if_neg (mt List.isEmpty_iff.mp hd), he]
    rfl

/-- Carrying out a plan fails for no class. -/
theorem generate_eq_noBase_iff : (m.generate config d).1 = .error (.noBase e) ↔
    Plan.ofInputs config (m.inputs d config) = .error (.noBase e) := by
  cases hp : Plan.ofInputs config (m.inputs d config) with
  | error cause => simp [Machine.generate, hp]
  | ok plan =>
    constructor
    · intro h
      obtain ⟨-, hrun⟩ | ⟨-, artifacts, -, -, hrun⟩ := generate_cases hp
      · rw [hrun] at h
        cases h
      · generalize m.generate config d = outcome at h hrun
        cases hrun <;> cases h
    · intro h
      cases h

end Runs

/-- After resolution the artifacts can be made unless a class is declared under the name of the root
class without a base, and then the error names this class. So no run whose model builds ends for
want of a base but for that of this class, and each one does that finds a struct and has it. -/
theorem emission_fails_at_bareRoot :
    (∀ (r : Registry) (package : String) (packages : List String),
      r.resolve.registry.emit package packages = if r.DeclaresBareRoot then .error ⟨rootClass⟩
        else .ok (r.resolve.registry.artifacts package packages)) ∧
      ∀ (m : Machine) (config : Config) (d : Disk) (e : NoBase),
        (m.generate config d).1 = .error (.noBase e) ↔ e = ⟨rootClass⟩ ∧
          ∃ model, ClassModel.ofInputs config (m.inputs d config) = .ok model ∧
            model.discovered ≠ [] ∧ model.registry.DeclaresBareRoot := by
  refine ⟨Registry.emit_resolve, ?_⟩
  intro m config d e
  rw [generate_eq_noBase_iff, Plan.ofInputs_eq_noBase_iff]
  constructor
  · rintro ⟨model, hm, hd, he⟩
    obtain ⟨he, hbare⟩ := (ClassModel.emit_eq_error_iff hm).mp he
    exact ⟨he, model, hm, hd, hbare⟩
  · rintro ⟨he, model, hm, hd, hbare⟩
    exact ⟨model, hm, hd, (ClassModel.emit_eq_error_iff hm).mpr ⟨he, hbare⟩⟩

/-- A struct with the name of the root class that embeds nothing. -/
example :
    let text := "package main\n\ntype QObject struct \x7b\n\x7d\n"
    let inputs : Inputs := ⟨.ok [⟨"root.go", .ok text.toUTF8⟩], .ok []⟩
    (match Plan.ofInputs Config.empty inputs with
      | .error e => e.message
      | .ok _ => "") = "Emit error: Cannot emit QObject: class has no base to derive from" := by
  decide +kernel

end SignalBridge
