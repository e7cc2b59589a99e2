import Mathlib.Algebra.GroupWithZero.Nat
import Mathlib.Data.List.Count
import SignalBridge.Proofs.Registry.Lookup
import SignalBridge.Registry.Inheritance

/-!
The rounds of inheritance. Every round is a run of visits, one class gaining members at a time, so
what a visit keeps a whole propagation keeps (`propagate_induction`). What the rounds count is what
they add to the registry (`memberCount_propagate`).
-/

namespace SignalBridge.Registry

variable {r : Registry} {names known : List String} {ms : List Member} {m : Member}
  {name : String} {c : MetaClass}

theorem fresh_eq_nil_iff : fresh known ms = [] ↔ ∀ m ∈ ms, m.fullName ∈ known := by
  induction ms generalizing known with
  | nil => simp [fresh]
  | cons m ms ih =>
    by_cases hm : m.fullName ∈ known <;> simp [fresh, hm, ih]

theorem mem_fresh (h : m ∈ fresh known ms) : m ∈ ms ∧ m.fullName ∉ known := by
  induction ms generalizing known with
  | nil => simp [fresh] at h
  | cons n ms ih =>
    by_cases hn : n.fullName ∈ known
    · rw [fresh, if_pos hn] at h
      exact ⟨List.mem_cons_of_mem _ (ih h).1, (ih h).2⟩
    · rw [fresh, if_neg hn] at h
      rcases List.mem_cons.mp h with rfl | h
      · exact ⟨List.mem_cons_self, hn⟩
      · exact ⟨List.mem_cons_of_mem _ (ih h).1, fun hk => (ih h).2 (List.mem_cons_of_mem _ hk)⟩

theorem fullName_of_mem (h : m ∈ ms) :
    m.fullName ∈ known ∨ m.fullName ∈ (fresh known ms).map Member.fullName := by
  induction ms generalizing known with
  | nil => simp at h
  | cons n ms ih =>
    by_cases hn : n.fullName ∈ known
    · rw [fresh, if_pos hn]
      rcases List.mem_cons.mp h with rfl | h
      · exact .inl hn
      · exact ih h
    · rw [fresh, if_neg hn, List.map_cons, List.mem_cons]
      rcases List.mem_cons.mp h with rfl | h
      · exact .inr (.inl rfl)
      · rcases @ih (n.fullName :: known) h with hk | hk
        · rcases List.mem_cons.mp hk with he | hk
          · exact .inr (.inl he)
          · exact .inl hk
        · exact .inr (.inr hk)

/-- What was gained once is not gained again. -/
theorem fresh_append_fresh :
    fresh (known ++ (fresh known ms).map Member.fullName) ms = [] := by
  rw [fresh_eq_nil_iff]
  intro m hm
  exact List.mem_append.mpr (fullName_of_mem hm)

/-- The base of `c` has a constructor or destructor that is `m` under the name of `c`. -/
def HandsDown (r : Registry) (c : MetaClass) (m : Member) : Prop :=
  ∃ base ∈ r.classes, c.base = some base.name ∧
    ∃ n ∈ base.members, n.category.isInherited ∧ m = n.renamedFor c.name

theorem mem_inherited_iff : m ∈ r.inherited c ↔ r.HandsDown c m := by
  unfold inherited
  constructor
  · intro h
    split at h
    · rename_i base hb
      obtain ⟨n, hn, rfl⟩ := List.mem_map.mp h
      obtain ⟨hn, hi⟩ := List.mem_filter.mp hn
      obtain ⟨name, hname, hf⟩ := Option.bind_eq_some_iff.mp hb
      obtain ⟨hmem, rfl⟩ := find?_eq_some_iff.mp hf
      exact ⟨base, hmem, hname, n, hn, hi, rfl⟩
    · cases h
  · rintro ⟨base, hmem, hname, n, hn, hi, rfl⟩
    rw [hname, Option.bind_some, find?_of_mem hmem]
    exact List.mem_map_of_mem (List.mem_filter.mpr ⟨hn, hi⟩)

/-- One class gains what its base has for it. -/
def visit (r : Registry) (name : String) : Registry :=
  r.addMembers name (r.gains name)

theorem visit_of_find? (h : r.find? name = some c) :
    r.visit name = r.mapMembers fun d =>
      if d.name = name then
        d.members ++ fresh (c.members.map Member.fullName) (r.inherited c)
      else d.members := by
  rw [visit, gains, h]
  rfl

theorem visit_of_gains_nil (h : r.gains name = []) : r.visit name = r := by
  rw [visit, addMembers, h]
  simp only [List.append_nil, ite_self]
  exact mapMembers_members r

/-- What every visit of the names keeps, any number of rounds keeps. -/
theorem inheritRounds_induction {P : Registry → Prop}
    (step : ∀ r, ∀ name ∈ names, P r → P (r.visit name)) (limit : Nat) (h : P r) :
    P (inheritRounds names limit r).registry := by
  have hround : ∀ ns r, (∀ name ∈ ns, name ∈ names) → P r → P (inheritRound ns r).1 := by
    intro ns
    induction ns with
    | nil => intro r _ h; exact h
    | cons n ns ih =>
      intro r hn h
      exact ih _ (fun name hm => hn name (List.mem_cons_of_mem _ hm))
        (step r n (hn n List.mem_cons_self) h)
  induction limit generalizing r with
  | zero => exact h
  | succ limit ih =>
    have ha := hround names r (fun _ hm => hm) h
    rw [inheritRounds]
    simp only
    split
    · exact ha
    · exact ih ha

theorem propagate_induction {P : Registry → Prop}
    (step : ∀ r', ∀ name ∈ r.declared.map MetaClass.name, P r' → P (r'.visit name)) (h : P r) :
    P r.propagate.registry :=
  inheritRounds_induction step _ h

/-- How many members the classes of a registry have together. -/
def memberCount (r : Registry) : Nat :=
  (r.classes.map fun c => c.members.length).sum

theorem memberCount_visit (r : Registry) (name : String) :
    (r.visit name).memberCount = r.memberCount + (r.gains name).length := by
  cases hf : r.find? name with
  | none =>
    have hg : r.gains name = [] := by rw [gains, hf]
    rw [visit_of_gains_nil hg, hg]
    rfl
  | some c =>
    obtain ⟨hc, rfl⟩ := find?_eq_some_iff.mp hf
    have hnd := r.names_nodup
    simp only [visit, addMembers, memberCount, mapMembers, List.map_map]
    generalize r.gains c.name = new
    generalize r.classes = classes at hc hnd
    induction classes with
    | nil => simp at hc
    | cons d ds ih =>
      rw [List.map_cons, List.nodup_cons] at hnd
      simp only [List.map_cons, List.sum_cons, Function.comp_apply] at ih ⊢
      rcases List.mem_cons.mp hc with rfl | hc
      · have hrest : ds.map ((fun c => c.members.length) ∘ fun e =>
            { e with members := if e.name = c.name then e.members ++ new else e.members }) =
              ds.map fun e => e.members.length := by
          apply List.map_congr_left
          intro e he
          have hne : e.name ≠ c.name := fun h => hnd.1 (h ▸ List.mem_map_of_mem he)
          simp [hne]
        rw [hrest, if_pos rfl, List.length_append]
        omega
      · have hne : d.name ≠ c.name := fun h => hnd.1 (h ▸ List.mem_map_of_mem hc)
        rw [if_neg hne]
        have := ih hc hnd.2
        simp only [Function.comp_def] at this ⊢
        omega

theorem memberCount_inheritRound :
    (inheritRound names r).1.memberCount = r.memberCount + (inheritRound names r).2 := by
  induction names generalizing r with
  | nil => rfl
  | cons n ns ih =>
    simp only [inheritRound]
    change (inheritRound ns (r.visit n)).1.memberCount =
      r.memberCount + ((r.gains n).length + (inheritRound ns (r.visit n)).2)
    rw [ih, memberCount_visit]
    omega

theorem memberCount_inheritRounds (limit : Nat) :
    (inheritRounds names limit r).registry.memberCount =
      r.memberCount + (inheritRounds names limit r).added := by
  induction limit generalizing r with
  | zero => rfl
  | succ limit ih =>
    have : (inheritRound names r).1.memberCount = r.memberCount + (inheritRound names r).2 :=
      memberCount_inheritRound
    rw [inheritRounds]
    simp only
    split
    · simp only
      omega
    · simp only [ih]
      omega

/-- The number of members a propagation reports is the number it adds. -/
theorem memberCount_propagate (r : Registry) :
    r.propagate.registry.memberCount = r.memberCount + r.propagate.added :=
  memberCount_inheritRounds _

/-- A round that adds nothing finds nothing to add. -/
theorem gains_of_quiet_round (h : (inheritRound names r).2 = 0) :
    (∀ name ∈ names, r.gains name = []) ∧ (inheritRound names r).1 = r := by
  induction names generalizing r with
  | nil => exact ⟨by simp, rfl⟩
  | cons n ns ih =>
    rw [inheritRound] at h ⊢
    simp only [Nat.add_eq_zero_iff, List.length_eq_zero_iff] at h ⊢
    have hv : r.addMembers n (r.gains n) = r := visit_of_gains_nil h.1
    rw [hv] at h ⊢
    obtain ⟨hg, he⟩ := ih h.2
    refine ⟨?_, he⟩
    intro name hm
    rcases List.mem_cons.mp hm with rfl | hm
    · exact h.1
    · exact hg name hm

end SignalBridge.Registry
