import Mathlib.Data.List.Perm.Subperm
import SignalBridge.Proofs.Registry.Lookup
import SignalBridge.Registry.Ancestry

/-!
The way from a class up to the root class. It passes no class twice, so looking as many steps ahead
as there are classes finds it if there is one (`isObjectClass_iff`).
-/

namespace SignalBridge.Registry

variable {r r' : Registry} {name : String} {cs ds : List MetaClass} {c : MetaClass}

/-- The base chain of `name` comes to the root class, and these are the classes before it. -/
inductive Ascent (r : Registry) : String → List MetaClass → Prop where
  | root : Ascent r rootClass []
  | step {c : MetaClass} {base : String} {cs : List MetaClass} (hc : c ∈ r.classes)
      (hne : c.name ≠ rootClass) (hb : c.base = some base) (rest : Ascent r base cs) :
      Ascent r c.name (c :: cs)

theorem Ascent.unique (h : r.Ascent name cs) (h' : r.Ascent name ds) : cs = ds := by
  induction h generalizing ds with
  | root =>
    generalize hn : rootClass = start at h'
    cases h' with
    | root => rfl
    | step _ hne => exact absurd hn.symm hne
  | @step c base cs hc hne hb rest ih =>
    generalize hn : c.name = start at h'
    cases h' with
    | root => exact absurd hn hne
    | step hd _ hb' rest' =>
      obtain rfl := eq_of_name_eq hc hd hn
      obtain rfl := Option.some.inj (hb.symm.trans hb')
      rw [ih rest']

theorem Ascent.mem_classes (h : r.Ascent name cs) : ∀ c ∈ cs, c ∈ r.classes := by
  induction h with
  | root => simp
  | step hc _ _ _ ih => exact List.forall_mem_cons.mpr ⟨hc, ih⟩

/-- Every class that is passed has a base, on to which the way goes. -/
theorem Ascent.exists_base (h : r.Ascent name cs) (hc : c ∈ cs) : ∃ base, c.base = some base := by
  induction h with
  | root => cases hc
  | step _ _ hb _ ih =>
    rcases List.mem_cons.mp hc with rfl | hc
    · exact ⟨_, hb⟩
    · exact ih hc

/-- The way from a class that is passed is the rest of the way. -/
theorem Ascent.suffix (h : r.Ascent name cs) (hc : c ∈ cs) :
    ∃ ds, r.Ascent c.name ds ∧ ds.length ≤ cs.length := by
  induction h with
  | root => cases hc
  | @step d base cs hd hne hb rest ih =>
    rcases List.mem_cons.mp hc with rfl | hc
    · exact ⟨_, .step hd hne hb rest, Nat.le_refl _⟩
    · obtain ⟨ds, hds, hl⟩ := ih hc
      exact ⟨ds, hds, Nat.le_succ_of_le hl⟩

theorem Ascent.nodup (h : r.Ascent name cs) : cs.Nodup := by
  induction h with
  | root => exact List.nodup_nil
  | step hc hne hb rest ih =>
    refine List.nodup_cons.mpr ⟨?_, ih⟩
    -- A class passed again would have a shorter way than its own.
    intro hm
    obtain ⟨ds, hds, hl⟩ := rest.suffix hm
    have := hds.unique (.step hc hne hb rest)
    rw [this, List.length_cons] at hl
    omega

theorem Ascent.length_le (h : r.Ascent name cs) : cs.length ≤ r.size :=
  (h.nodup.subperm h.mem_classes).length_le

theorem reachesRoot_iff {steps : Nat} :
    r.reachesRoot steps name ↔ ∃ cs, r.Ascent name cs ∧ cs.length < steps := by
  induction steps generalizing name with
  | zero => simp [reachesRoot]
  | succ steps ih =>
    rw [reachesRoot, Bool.or_eq_true, decide_eq_true_eq]
    constructor
    · rintro (rfl | h)
      · exact ⟨[], .root, Nat.succ_pos _⟩
      · by_cases hroot : name = rootClass
        · exact ⟨[], hroot ▸ .root, Nat.succ_pos _⟩
        cases hb : (r.find? name).bind MetaClass.base with
        | none => simp [hb] at h
        | some base =>
          rw [hb] at h
          obtain ⟨c, hf, hbase⟩ := Option.bind_eq_some_iff.mp hb
          obtain ⟨hc, rfl⟩ := find?_eq_some_iff.mp hf
          obtain ⟨cs, hcs, hl⟩ := ih.mp h
          exact ⟨c :: cs, .step hc hroot hbase hcs, Nat.succ_lt_succ hl⟩
    · rintro ⟨cs, h, hl⟩
      cases h with
      | root => exact .inl rfl
      | step hc _ hb rest =>
        right
        rw [find?_of_mem hc, Option.bind_some, hb]
        exact ih.mpr ⟨_, rest, Nat.lt_of_succ_lt_succ hl⟩

/-- The object classes are those from which there is a way up to the root class. -/
theorem isObjectClass_iff : r.isObjectClass name ↔ ∃ cs, r.Ascent name cs := by
  rw [isObjectClass, reachesRoot_iff]
  constructor
  · rintro ⟨cs, h, -⟩
    exact ⟨cs, h⟩
  · rintro ⟨cs, h⟩
    exact ⟨cs, h, Nat.lt_succ_of_le h.length_le⟩

/-- The root class counts as an object, whatever its base. -/
theorem isObjectClass_rootClass (r : Registry) : r.isObjectClass rootClass :=
  isObjectClass_iff.mpr ⟨[], .root⟩

/-- Every other object has a base, which is an object itself. -/
theorem exists_object_base (hc : c ∈ r.classes) (hne : c.name ≠ rootClass)
    (ho : r.isObjectClass c.name) : ∃ base, c.base = some base ∧ r.isObjectClass base := by
  obtain ⟨cs, h⟩ := isObjectClass_iff.mp ho
  generalize hn : c.name = start at h
  cases h with
  | root => exact absurd hn hne
  | step hd _ hb rest =>
    obtain rfl := eq_of_name_eq hc hd hn
    exact ⟨_, hb, isObjectClass_iff.mpr ⟨_, rest⟩⟩

/-- Every class on the way is an object class itself. -/
theorem Ascent.isObjectClass (h : r.Ascent name cs) (hc : c ∈ cs) : r.isObjectClass c.name := by
  obtain ⟨ds, hds, -⟩ := h.suffix hc
  exact isObjectClass_iff.mpr ⟨ds, hds⟩

/-- A way is one in every registry that has the classes it passes. -/
theorem Ascent.mono (h : r.Ascent name cs) (hsub : ∀ c ∈ cs, c ∈ r'.classes) :
    r'.Ascent name cs := by
  induction h with
  | root => exact .root
  | step _ hne hb _ ih =>
    rw [List.forall_mem_cons] at hsub
    exact .step hsub.1 hne hb (ih hsub.2)

/-- A filter that lets all object classes pass leaves the ways up as they are: no name becomes that
of an object class, and none ceases to be. -/
theorem isObjectClass_filter {p : MetaClass → Bool}
    (h : ∀ c ∈ r.classes, r.isObjectClass c.name → p c) :
    (r.filter p).isObjectClass = r.isObjectClass := by
  funext name
  rw [Bool.eq_iff_iff, isObjectClass_iff, isObjectClass_iff]
  constructor
  · rintro ⟨cs, hup⟩
    exact ⟨cs, hup.mono fun c hc => List.mem_of_mem_filter (hup.mem_classes c hc)⟩
  · rintro ⟨cs, hup⟩
    refine ⟨cs, hup.mono fun c hc => List.mem_filter.mpr ⟨hup.mem_classes c hc, ?_⟩⟩
    exact h c (hup.mem_classes c hc) (hup.isObjectClass hc)

end SignalBridge.Registry
