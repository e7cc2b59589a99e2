import SignalBridge.Proofs.Registry.Resolution

/-!
Pruning drops the declared classes that are no objects, one after another (`foldl_erase_strays`).
Which names are those of object classes is settled before the first of them goes, and stays so while
they go: none of them is on the way of another class up to the root (`isObjectClass_erase`).
-/

namespace SignalBridge.Registry

variable {r : Registry} {name : String} {names gone : List String} {c : MetaClass}

theorem strays_sublist (r : Registry) : r.strays.Sublist r.classes :=
  List.filter_sublist.trans List.filter_sublist

theorem isObjectClass_of_mem_strays (h : name ∈ r.strays.map MetaClass.name) :
    r.isObjectClass name = false := by
  obtain ⟨c, hc, rfl⟩ := List.mem_map.mp h
  exact (mem_strays_iff.mp hc).2.2

/-- When a class goes that is no object, every object class still finds its way to the root. -/
theorem isObjectClass_erase (h : r.isObjectClass name = false) :
    (r.erase name).isObjectClass = r.isObjectClass := by
  apply isObjectClass_filter
  intro c _ ho
  refine decide_eq_true ?_
  rintro rfl
  rw [ho] at h
  cases h

theorem isObjectClass_foldl_erase (h : ∀ name ∈ names, r.isObjectClass name = false) :
    (names.foldl erase r).isObjectClass = r.isObjectClass := by
  induction names generalizing r with
  | nil => rfl
  | cons n ns ih =>
    rw [List.forall_mem_cons] at h
    have herased := isObjectClass_erase h.1
    rw [List.foldl_cons, ih, herased]
    intro name hn
    rw [herased]
    exact h.2 name hn

theorem classes_foldl_erase :
    (names.foldl erase r).classes = r.classes.filter (·.name ∉ names) := by
  induction names generalizing r with
  | nil => exact (List.filter_eq_self.mpr fun _ _ => by simp).symm
  | cons n ns ih =>
    rw [List.foldl_cons, ih, erase, filter, List.filter_filter]
    simp only [List.mem_cons, not_or, ne_eq, Bool.decide_and, Bool.and_comm]

/-- Dropping the classes that are no objects in turn is pruning. -/
theorem foldl_erase_strays (r : Registry) :
    (r.strays.map MetaClass.name).foldl erase r = r.prune :=
  eq_of_classes (classes_foldl_erase.trans r.classes_prune.symm)

theorem classes_prune_eq_filter (r : Registry) :
    r.prune.classes = r.classes.filter (· ∉ r.strays) := by
  rw [classes_prune]
  apply List.filter_congr
  intro c hc
  simp only [name_mem_strays_iff hc, mem_strays_iff, hc, true_and]

/-- What pruning drops are, in the order of the registry, just the declared classes that are no
objects. They go one after another, and at no time does a name become or cease to be that of an
object class. What is left are the other classes as they were, in their old order, those of
libraries among them; each declared class that is left is an object in the registry that is left,
and pruning that drops nothing. -/
theorem prune_keeps_objects (r : Registry) :
    r.strays.Sublist r.classes ∧
      (∀ c ∈ r.classes, c ∈ r.strays ↔ c.isDeclared ∧ r.isObjectClass c.name = false) ∧
      (r.strays.map MetaClass.name).foldl erase r = r.prune ∧
      (∀ gone, gone <+: r.strays.map MetaClass.name →
        (gone.foldl erase r).isObjectClass = r.isObjectClass) ∧
      r.prune.classes = r.classes.filter (· ∉ r.strays) ∧
      (∀ c ∈ r.classes, c.isDeclared = false → c ∈ r.prune.classes) ∧
      (∀ c ∈ r.prune.declared, r.prune.isObjectClass c.name) ∧
      r.prune.strays = [] := by
  refine ⟨r.strays_sublist, ?_, r.foldl_erase_strays, ?_, r.classes_prune_eq_filter, ?_, ?_,
    r.strays_prune⟩
  · intro c hc
    rw [mem_strays_iff, and_iff_right hc]
  · intro gone hgone
    exact isObjectClass_foldl_erase fun name hn => isObjectClass_of_mem_strays (hgone.mem hn)
  · intro c hc hl
    exact mem_prune_iff.mpr ⟨hc, fun hd => absurd hd (by simp [hl])⟩
  · intro c hc
    rw [isObjectClass_prune]
    exact (mem_declaredNames_prune (List.mem_map_of_mem hc)).2

end SignalBridge.Registry
