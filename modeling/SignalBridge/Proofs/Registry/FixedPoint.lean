import Mathlib.Algebra.BigOperators.Group.List.Basic
import SignalBridge.Proofs.Registry.ClosedForm

namespace SignalBridge.Registry

variable {r : Registry} {c : MetaClass} {m : Member} {ms : List Member} {known : List String}
  {gain gain' : MetaClass → List Member}

theorem nodup_fresh : ((fresh known ms).map Member.fullName).Nodup := by
  rw [fresh_eq_filter]
  exact nodup_firstOfEach.sublist (List.filter_sublist.map _)

/-- The more the classes have gained, the more they hand down. -/
theorem HandsDown.mono (hle : ∀ d, gain d ⊆ gain' d) (h : (r.withGain gain).HandsDown c m) :
    (r.withGain gain').HandsDown c m := by
  obtain ⟨grown, hmem, hname, n, hn, hi, rfl⟩ := h
  obtain ⟨base, hbase, rfl⟩ := List.mem_map.mp hmem
  refine ⟨_, List.mem_map_of_mem hbase, hname, n, ?_, hi, rfl⟩
  rcases List.mem_append.mp hn with hn | hn
  · exact List.mem_append_left _ hn
  · exact List.mem_append_right _ (hle base hn)

theorem gains_withGain_eq_fresh (hc : c ∈ r.classes) : (r.withGain gain).gains c.name =
    fresh ((c.members ++ gain c).map Member.fullName) ((r.withGain gain).inherited c) := by
  rw [gains, find?_withGain, find?_of_mem hc]
  rfl

theorem nodup_gains (hc : c ∈ r.classes) :
    (((r.withGain gain).gains c.name).map Member.fullName).Nodup := by
  rw [gains_withGain_eq_fresh hc]
  exact nodup_fresh

theorem mem_gains (hc : c ∈ r.classes) (hm : m ∈ (r.withGain gain).gains c.name) :
    (r.withGain gain).HandsDown c m ∧ m.fullName ∉ c.members.map Member.fullName ∧
      m.fullName ∉ (gain c).map Member.fullName := by
  rw [gains_withGain_eq_fresh hc] at hm
  obtain ⟨hi, hk⟩ := mem_fresh hm
  rw [List.map_append, List.mem_append, not_or] at hk
  exact ⟨mem_inherited_iff.mp hi, hk⟩

/-- What classes have gained at some time during the rounds: declared classes only, by inheritance
only, and never a full name that the class had. -/
structure Earned (r : Registry) (gain : MetaClass → List Member) : Prop where
  declared : ∀ c ∈ r.classes, c.isDeclared = false → gain c = []
  handedDown : ∀ c ∈ r.classes, ∀ m ∈ gain c, (r.withGain gain).HandsDown c m
  once : ∀ c ∈ r.classes, ((gain c).map Member.fullName).Nodup
  new : ∀ c ∈ r.classes, ∀ m ∈ gain c, m.fullName ∉ c.members.map Member.fullName

/-- A gained member is the only one of its full name. -/
theorem Earned.count_eq_one (h : r.Earned gain) (hc : c ∈ r.classes) (hm : m ∈ gain c) :
    ((c.members ++ gain c).map Member.fullName).count m.fullName = 1 := by
  rw [List.map_append, List.count_append, List.count_eq_zero_of_not_mem (h.new c hc m hm),
    List.count_eq_one_of_mem (h.once c hc) (List.mem_map_of_mem hm)]

/-- A visit earns what it adds. -/
theorem Earned.visit (h : r.Earned gain) (hc : c ∈ r.declared) : r.Earned fun d =>
    if d = c then gain d ++ (r.withGain gain).gains c.name else gain d := by
  obtain ⟨hmem, hd⟩ := mem_declared_iff.mp hc
  have hle : ∀ d, gain d ⊆
      if d = c then gain d ++ (r.withGain gain).gains c.name else gain d := by
    intro d
    split
    · exact List.subset_append_left _ _
    · exact fun _ hm => hm
  constructor
  case declared =>
    intro d hd' hl
    have hne : d ≠ c := by
      rintro rfl
      rw [hd] at hl
      cases hl
    rw [if_neg hne]
    exact h.declared d hd' hl
  case handedDown =>
    intro d hd' m hm
    -- What was handed down stays so, for the bases only grow.
    apply HandsDown.mono hle
    split at hm
    · rename_i he
      subst he
      rcases List.mem_append.mp hm with hm | hm
      · exact h.handedDown d hd' m hm
      · exact (mem_gains hmem hm).1
    · exact h.handedDown d hd' m hm
  case once =>
    intro d hd'
    split
    · rename_i he
      subst he
      rw [List.map_append, List.nodup_append']
      refine ⟨h.once d hd', nodup_gains hmem, ?_⟩
      intro name hold hnew
      obtain ⟨m, hm, rfl⟩ := List.mem_map.mp hnew
      exact (mem_gains hmem hm).2.2 hold
    · exact h.once d hd'
  case new =>
    intro d hd' m hm
    split at hm
    · rename_i he
      subst he
      rcases List.mem_append.mp hm with hm | hm
      · exact h.new d hd' m hm
      · exact (mem_gains hmem hm).2.1
    · exact h.new d hd' m hm

theorem exists_earned (r : Registry) :
    ∃ gain, r.propagate.registry = r.withGain gain ∧ r.Earned gain := by
  refine propagate_induction (P := fun r' => ∃ gain, r' = r.withGain gain ∧ r.Earned gain) ?_ ?_
  · rintro - name hn ⟨gain, rfl, h⟩
    obtain ⟨c, hc, rfl⟩ := List.mem_map.mp hn
    exact ⟨_, visit_withGain_eq (mem_declared_iff.mp hc).1, h.visit hc⟩
  · refine ⟨fun _ => [], ?_, ?_⟩
    · simp only [withGain, List.append_nil]
      exact (mapMembers_members r).symm
    · constructor <;> simp

theorem memberCount_withGain (r : Registry) (gain : MetaClass → List Member) :
    (r.withGain gain).memberCount =
      r.memberCount + (r.classes.map fun c => (gain c).length).sum := by
  simp only [memberCount, withGain, mapMembers, List.map_map, Function.comp_def, List.length_append,
    List.sum_map_add]

/-- Propagation reaches a justified fixed point. Each class keeps its place and all but its members,
and those come first, with what it gains behind them. Library classes gain nothing, and the number
reported is that of all members gained. A declared class then lacks no full name that its base hands
down; all it gains is handed down by its base as it is in the end, and shares its full name with no
other member of the class. -/
theorem propagate_justified (r : Registry) : ∃ gain : MetaClass → List Member,
    r.propagate.registry.classes =
      r.classes.map (fun c => { c with members := c.members ++ gain c }) ∧
    r.propagate.added = (r.classes.map fun c => (gain c).length).sum ∧
    (∀ c ∈ r.classes, c.isDeclared = false → gain c = []) ∧
    ∀ c ∈ r.declared,
      (∀ m, r.propagate.registry.HandsDown c m →
        m.fullName ∈ (c.members ++ gain c).map Member.fullName) ∧
      ∀ m ∈ gain c, r.propagate.registry.HandsDown c m ∧
        ((c.members ++ gain c).map Member.fullName).count m.fullName = 1 := by
  obtain ⟨gain, he, h⟩ := r.exists_earned
  have hadded := r.memberCount_propagate
  rw [he, memberCount_withGain] at hadded
  refine ⟨gain, by rw [he]; rfl, by omega, h.declared, ?_⟩
  intro c hc
  have hmem := (mem_declared_iff.mp hc).1
  have hquiet := r.gains_propagate c hc
  rw [he] at hquiet ⊢
  rw [gains_withGain_eq_fresh hmem, fresh_eq_nil_iff] at hquiet
  refine ⟨?_, ?_⟩
  · intro m hm
    exact hquiet m (mem_inherited_iff.mpr hm)
  · intro m hm
    exact ⟨h.handedDown c hmem m hm, h.count_eq_one hmem hm⟩

end SignalBridge.Registry
