import Mathlib.Logic.Function.Iterate
import SignalBridge.Proofs.Registry.ClosedForm
import SignalBridge.Proofs.Registry.Resolution

/-!
Pruning and propagation may change places (`prune_propagate`). A class that stays has no base that
goes, so each visit to it finds the same members before pruning and after, and visits to the others
change nothing that stays. The rounds differ in number only, and a round too many does nothing.
-/

namespace SignalBridge.Registry

variable {r : Registry} {name base : String} {names : List String} {c : MetaClass}

section Rounds

/-- One round over all declared classes. -/
def sweep (r : Registry) : Registry :=
  r.declaredNames.foldl visit r

theorem inheritRound_eq_foldl : (inheritRound names r).1 = names.foldl visit r := by
  induction names generalizing r with
  | nil => rfl
  | cons n ns ih => exact ih

theorem declaredNames_foldl_visit : (names.foldl visit r).declaredNames = r.declaredNames := by
  induction names generalizing r with
  | nil => rfl
  | cons n ns ih => exact ih.trans (r.declaredNames_mapMembers _)

/-- A limit on rounds that is above their number makes no difference. -/
theorem inheritRounds_eq_iterate (limit : Nat) (r : Registry) :
    (inheritRounds r.declaredNames limit r).registry = sweep^[limit] r := by
  induction limit generalizing r with
  | zero => rfl
  | succ limit ih =>
    have hround : (inheritRound r.declaredNames r).1 = r.sweep := inheritRound_eq_foldl
    rw [inheritRounds, Function.iterate_succ_apply, ← hround]
    simp only
    split
    · rename_i hz
      -- The quiet round changed nothing, so the rounds left over may as well be run.
      have hquiet := (gains_of_quiet_round hz).2
      rw [hquiet] at hround ⊢
      exact (Function.iterate_fixed hround.symm limit).symm
    · have hnames : (inheritRound r.declaredNames r).1.declaredNames = r.declaredNames := by
        rw [hround]
        exact declaredNames_foldl_visit
      rw [← ih, hnames]

theorem sweep_propagate (r : Registry) : r.propagate.registry.sweep = r.propagate.registry := by
  have hquiet : ∀ name ∈ r.propagate.registry.declaredNames,
      r.propagate.registry.gains name = [] := by
    rw [declaredNames_propagate]
    exact List.forall_mem_map.mpr r.gains_propagate
  rw [sweep, ← inheritRound_eq_foldl, inheritRound_of_quiet hquiet]

theorem propagate_eq_iterate {n : Nat} (h : r.roundLimit ≤ n) :
    r.propagate.registry = sweep^[n] r := by
  have hlimit : r.propagate.registry = sweep^[r.roundLimit] r :=
    inheritRounds_eq_iterate r.roundLimit r
  obtain ⟨k, rfl⟩ := Nat.exists_eq_add_of_le' h
  rw [Function.iterate_add_apply, ← hlimit, Function.iterate_fixed r.sweep_propagate]

end Rounds

section Members

variable (f : MetaClass → List Member)

/-- Members decide nothing about base chains. -/
theorem isObjectClass_mapMembers (r : Registry) :
    (r.mapMembers f).isObjectClass = r.isObjectClass := by
  have hbase : ∀ name, ((r.mapMembers f).find? name).bind MetaClass.base =
      (r.find? name).bind MetaClass.base := by
    intro name
    rw [find?_mapMembers]
    cases r.find? name with
    | none => rfl
    | some c => rfl
  have hsize : (r.mapMembers f).size = r.size := List.length_map ..
  funext name
  rw [isObjectClass, isObjectClass, hsize, reachesRoot_congr hbase]

theorem prune_mapMembers (r : Registry) : (r.mapMembers f).prune = r.prune.mapMembers f := by
  rw [prune, isObjectClass_mapMembers]
  exact eq_of_classes List.filter_map

theorem strays_mapMembers (r : Registry) :
    (r.mapMembers f).strays.map MetaClass.name = r.strays.map MetaClass.name := by
  rw [strays, isObjectClass_mapMembers]
  simp only [strays, declared, inModule, mapMembers, List.filter_map, List.map_map]
  rfl

end Members

section Survivors

theorem isObjectClass_base (hc : c ∈ r.classes) (hne : c.name ≠ rootClass)
    (hb : c.base = some base) (ho : r.isObjectClass c.name) : r.isObjectClass base := by
  obtain ⟨base', hb', hobject⟩ := exists_object_base hc hne ho
  obtain rfl := Option.some.inj (hb.symm.trans hb')
  exact hobject

theorem find?_prune_of_object (ho : r.isObjectClass name) : r.prune.find? name = r.find? name := by
  apply Option.ext
  intro c
  rw [find?_eq_some_iff, find?_eq_some_iff, mem_prune_iff]
  constructor
  · rintro ⟨⟨hc, -⟩, hn⟩
    exact ⟨hc, hn⟩
  · rintro ⟨hc, rfl⟩
    exact ⟨⟨hc, fun _ => ho⟩, rfl⟩

/-- A class that stays finds its base as it was. -/
theorem gains_prune_of_object (ho : r.isObjectClass name) (hne : name ≠ rootClass) :
    r.prune.gains name = r.gains name := by
  rw [gains, gains, find?_prune_of_object ho]
  cases hf : r.find? name with
  | none => rfl
  | some c =>
    obtain ⟨hc, rfl⟩ := find?_eq_some_iff.mp hf
    have hbase : c.base.bind r.prune.find? = c.base.bind r.find? := by
      cases hb : c.base with
      | none => rfl
      | some base => exact find?_prune_of_object (isObjectClass_base hc hne hb ho)
    simp only [inherited, hbase]

theorem prune_visit_of_object (ho : r.isObjectClass name) (hne : name ≠ rootClass) :
    (r.visit name).prune = r.prune.visit name := by
  rw [visit, visit, addMembers, prune_mapMembers, gains_prune_of_object ho hne]
  rfl

theorem prune_visit_of_stray (hn : name ∈ r.declaredNames) (ho : r.isObjectClass name = false) :
    (r.visit name).prune = r.prune := by
  obtain ⟨d, hd, rfl⟩ := List.mem_map.mp hn
  obtain ⟨hd, hdeclared⟩ := mem_declared_iff.mp hd
  rw [visit, addMembers, prune_mapMembers]
  refine (mapMembers_congr ?_).trans (mapMembers_members _)
  intro c hc
  obtain ⟨hc, hstays⟩ := mem_prune_iff.mp hc
  have hne : c.name ≠ d.name := by
    intro he
    obtain rfl := eq_of_name_eq hc hd he
    rw [hstays hdeclared] at ho
    cases ho
  rw [if_neg hne]

theorem prune_foldl_visit (hroot : rootClass ∉ r.declaredNames)
    (hn : ∀ name ∈ names, name ∈ r.declaredNames) :
    (names.foldl visit r).prune = (names.filter r.isObjectClass).foldl visit r.prune := by
  induction names generalizing r with
  | nil => rfl
  | cons n ns ih =>
    rw [List.forall_mem_cons] at hn
    have hvisited : (r.visit n).declaredNames = r.declaredNames := r.declaredNames_mapMembers _
    have hobjects : (r.visit n).isObjectClass = r.isObjectClass := isObjectClass_mapMembers _ r
    rw [List.foldl_cons, ih (hvisited ▸ hroot) (hvisited ▸ hn.2), hobjects]
    -- A visit to a class that stays is made after pruning too, one to a class that goes is not.
    cases ho : r.isObjectClass n with
    | true =>
      have hne : n ≠ rootClass := fun he => hroot (he ▸ hn.1)
      rw [List.filter_cons_of_pos ho, List.foldl_cons, prune_visit_of_object ho hne]
    | false =>
      rw [List.filter_cons_of_neg (by rw [ho]; exact Bool.false_ne_true),
        prune_visit_of_stray hn.1 ho]

theorem prune_sweep (hroot : rootClass ∉ r.declaredNames) : r.sweep.prune = r.prune.sweep := by
  have hnames : r.prune.declaredNames = r.declaredNames.filter r.isObjectClass := by
    rw [declaredNames, declaredNames, declared_prune, List.filter_map]
    rfl
  rw [sweep, sweep, prune_foldl_visit hroot fun _ hn => hn, hnames]

theorem prune_iterate (hroot : rootClass ∉ r.declaredNames) (n : Nat) :
    (sweep^[n] r).prune = sweep^[n] r.prune := by
  induction n generalizing r with
  | zero => rfl
  | succ n ih =>
    have hswept : r.sweep.declaredNames = r.declaredNames := declaredNames_foldl_visit
    rw [Function.iterate_succ_apply, Function.iterate_succ_apply, ih (hswept ▸ hroot),
      prune_sweep hroot]

end Survivors

/-- Pruning and propagation commute where no class is declared under the name of the root: either
order leaves the same registry and drops the same classes. -/
theorem prune_propagate (hroot : rootClass ∉ r.declaredNames) :
    r.propagate.registry.prune = r.prune.propagate.registry ∧
      r.propagate.registry.strays.map MetaClass.name = r.strays.map MetaClass.name := by
  constructor
  · let n := max r.roundLimit r.prune.roundLimit
    calc r.propagate.registry.prune
      _ = (sweep^[n] r).prune := by rw [propagate_eq_iterate (Nat.le_max_left _ _)]
      _ = sweep^[n] r.prune := prune_iterate hroot n
      _ = r.prune.propagate.registry := (propagate_eq_iterate (Nat.le_max_right _ _)).symm
  · exact propagate_induction
      (P := fun r' => r'.strays.map MetaClass.name = r.strays.map MetaClass.name)
      (fun r' _ _ h => (r'.strays_mapMembers _).trans h) rfl

/-- Three classes that are no objects, each before its base, and a panel. -/
def unrooted : Registry :=
  ⟨[⟨"Leaf", .publicAccess, mainModule, some "Mid", []⟩,
    ⟨"Mid", .publicAccess, mainModule, some "Top", []⟩,
    ⟨"Top", .publicAccess, mainModule, none, [bareMember .constructor "Top" "Top"]⟩,
    panelClass, objectClass], by decide⟩

/-- The classes that go take a round more than the panel does. -/
theorem prune_propagate_unrooted : rootClass ∉ unrooted.declaredNames ∧
    unrooted.propagate.rounds = 3 ∧ unrooted.prune.propagate.rounds = 2 ∧
    unrooted.propagate.registry.prune = unrooted.prune.propagate.registry ∧
    unrooted.propagate.registry.strays.map MetaClass.name = ["Leaf", "Mid", "Top"] := by
  have hroot : rootClass ∉ unrooted.declaredNames := by decide
  obtain ⟨hregistry, hstrays⟩ := prune_propagate hroot
  exact ⟨hroot, by decide, by decide, hregistry, hstrays.trans (by decide)⟩

end SignalBridge.Registry
