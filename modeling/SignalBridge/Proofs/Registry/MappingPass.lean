import Mathlib.Algebra.BigOperators.Group.List.Basic
import SignalBridge.Proofs.Member.ParameterList
import SignalBridge.Proofs.Registry.EitherOrder

/-!
Types mapped class by class. Each class is put back before the next one is read, but what a type
stands for hangs on names and bases alone, which no member changes. So the classes are mapped as if
all at once, whatever their order, and a second pass finds everything as it is to be
(`mapTypes_simultaneous`).
-/

namespace SignalBridge

open List (Forall₂)

namespace Keyed

variable {α κ : Type} [DecidableEq κ] {key : α → κ} {x : α} {xs : List α}

/-- An item whose key is there takes the place of the one that has it. -/
theorem put_eq_map (h : (xs.map key).Nodup) (hx : key x ∈ xs.map key) :
    put key x xs = xs.map fun y => if key y = key x then x else y := by
  induction xs with
  | nil => cases hx
  | cons y ys ih =>
    rw [List.map_cons, List.nodup_cons] at h
    by_cases hy : key y = key x
    · have hrest : ys.map (fun z => if key z = key x then x else z) = ys := by
        refine (List.map_congr_left fun z hz => if_neg ?_).trans (List.map_id ys)
        rintro hzx
        exact h.1 (hy.trans hzx.symm ▸ List.mem_map_of_mem hz)
      rw [put, if_pos hy, List.map_cons, if_pos hy, hrest]
    · have hmem : key x ∈ ys.map key := (List.mem_cons.mp hx).resolve_left (Ne.symm hy)
      rw [put, if_neg hy, List.map_cons, if_neg hy, ih h.2 hmem]

end Keyed

namespace Registry

variable {r r' : Registry} {c c' : MetaClass} {cs : List MetaClass}

section Members

variable (f : MetaClass → List Member)

theorem nativeType_mapMembers (r : Registry) : (r.mapMembers f).nativeType = r.nativeType := by
  have hcontains : (r.mapMembers f).contains = r.contains := by
    funext name
    rw [contains, contains, find?_mapMembers, Option.isSome_map]
  funext hostType
  simp only [nativeType, hcontains, isObjectClass_mapMembers]

theorem mapMember_mapMembers (r : Registry) : (r.mapMembers f).mapMember = r.mapMember := by
  funext m
  simp only [mapMember, nativeType_mapMembers]

/-- A class put back with other members is that class with these members. -/
theorem insert_members (hc : c ∈ r.classes) (members : List Member) :
    r.insert { c with members } =
      r.mapMembers fun d => if d.name = c.name then members else d.members := by
  apply eq_of_classes
  have hname : c.name ∈ r.classes.map MetaClass.name := List.mem_map_of_mem hc
  have hput : (r.insert { c with members }).classes = r.classes.map fun d =>
      if d.name = c.name then { c with members } else d := Keyed.put_eq_map r.names_nodup hname
  rw [hput]
  apply List.map_congr_left
  intro d hd
  by_cases hn : d.name = c.name
  · obtain rfl := eq_of_name_eq hd hc hn
    simp
  · simp [hn]

end Members

section InTurn

/-- How many types of the class have no counterpart. -/
def unmappedIn (r : Registry) (c : MetaClass) : Nat :=
  (c.members.flatMap Member.hostTypes).countP fun t => !(r.nativeType t).isKnown

/-- One class has its types mapped over the registry as it is by then, and is put back. Returns also
how many of them have no counterpart. -/
def mapOne (r : Registry) (name : String) : Registry × Nat :=
  match r.find? name with
  | some c => (r.insert { c with members := c.members.map r.mapMember }, r.unmappedIn c)
  | none => (r, 0)

/-- The classes of these names in turn. -/
def mapInTurn : List String → Registry → Registry × Nat
  | [], r => (r, 0)
  | name :: names, r =>
    let (after, count) := r.mapOne name
    let (last, rest) := mapInTurn names after
    (last, count + rest)

theorem mapOne_of_mem (hc : c ∈ r.classes) : r.mapOne c.name =
    (r.mapMembers fun d => if d.name = c.name then d.members.map r.mapMember else d.members,
      r.unmappedIn c) := by
  rw [mapOne, find?_of_mem hc]
  simp only [insert_members hc]
  congr 1
  refine mapMembers_congr fun d hd => ?_
  split
  · rename_i hn
    rw [eq_of_name_eq hd hc hn]
  · rfl

theorem unmappedIn_mapMembers (f : MetaClass → List Member) (r : Registry) :
    (r.mapMembers f).unmappedIn = r.unmappedIn := by
  funext c
  simp only [unmappedIn, nativeType_mapMembers]

/-- The classes are mapped as over the registry before, though each reads what the others left. -/
theorem mapInTurn_eq (hn : (cs.map MetaClass.name).Nodup) (hcs : ∀ c ∈ cs, c ∈ r.classes) :
    mapInTurn (cs.map MetaClass.name) r =
      (r.mapMembers fun d =>
        if d.name ∈ cs.map MetaClass.name then d.members.map r.mapMember else d.members,
        (cs.map r.unmappedIn).sum) := by
  induction cs generalizing r with
  | nil => simp [mapInTurn, mapMembers_members]
  | cons c cs ih =>
    rw [List.map_cons, List.nodup_cons] at hn
    rw [List.forall_mem_cons] at hcs
    -- The other classes are still as they were.
    have hrest : ∀ d ∈ cs, d ∈ (r.mapMembers fun d =>
        if d.name = c.name then d.members.map r.mapMember else d.members).classes := by
      intro d hd
      have hne : d.name ≠ c.name := fun he => hn.1 (he ▸ List.mem_map_of_mem hd)
      exact List.mem_map.mpr ⟨d, hcs.2 d hd, by simp [hne]⟩
    rw [List.map_cons, mapInTurn, mapOne_of_mem hcs.1]
    simp only [ih hn.2 hrest, mapMember_mapMembers, unmappedIn_mapMembers, mapMembers_mapMembers,
      List.map_cons, List.sum_cons, Prod.mk.injEq, and_true]
    refine mapMembers_congr fun d _ => ?_
    by_cases he : d.name = c.name
    · simp [he, hn.1]
    · simp [he]

theorem unmappedCount_eq_sum (r : Registry) :
    r.unmappedCount = (r.declared.map r.unmappedIn).sum := by
  rw [unmappedCount, List.flatMap_assoc, List.countP_flatMap]
  rfl

/-- The order of the classes makes no difference. -/
theorem mapInTurn_of_perm (h : cs.Perm r.declared) :
    mapInTurn (cs.map MetaClass.name) r = (r.mapTypes, r.unmappedCount) := by
  have hnames : (cs.map MetaClass.name).Perm r.declaredNames := h.map _
  have hmem : ∀ c ∈ cs, c ∈ r.classes := fun c hc => (mem_declared_iff.mp (h.mem_iff.mp hc)).1
  rw [mapInTurn_eq (hnames.nodup_iff.mpr (nodup_declaredNames r)) hmem, mapTypes,
    unmappedCount_eq_sum, (h.map _).sum_eq]
  congr 1
  refine mapMembers_congr fun c hc => ?_
  have hiff : c.name ∈ cs.map MetaClass.name ↔ c.isDeclared := by
    rw [hnames.mem_iff, mem_declaredNames_iff, find?_of_mem hc]
    simp
  simp only [hiff]

end InTurn

section Mapped

/-- `m'` is `m` with its types mapped over `r`, and nothing else changed. -/
structure MemberMapped (r : Registry) (m m' : Member) : Prop where
  rest : m' = { m with parameters := m'.parameters, returnType := m'.returnType }
  parameters : Forall₂ (fun p p' => p' = { p with nativeType := (r.nativeType p.hostType).text })
    m.parameters m'.parameters
  result : ∀ t, m.hostReturn = some t → m'.returnType = (r.nativeType t).text
  noResult : m.hostReturn = none → m'.returnType = m.returnType

/-- `c'` is `c`, its members mapped over `r` if it is declared. -/
structure ClassMapped (r : Registry) (c c' : MetaClass) : Prop where
  rest : c' = { c with members := c'.members }
  declared : c.isDeclared → Forall₂ (MemberMapped r) c.members c'.members
  library : c.isDeclared = false → c'.members = c.members

theorem memberMapped (r : Registry) (m : Member) : r.MemberMapped m (r.mapMember m) where
  rest := rfl
  parameters := List.forall₂_map_right_iff.mpr (List.forall₂_same.mpr fun _ _ => rfl)
  result := by
    intro t ht
    simp [mapMember, ht]
  noResult := by
    intro ht
    simp [mapMember, ht]

theorem classMapped_mapTypes (r : Registry) :
    Forall₂ (ClassMapped r) r.classes r.mapTypes.classes := by
  refine List.forall₂_map_right_iff.mpr (List.forall₂_same.mpr fun c _ => ⟨rfl, ?_, ?_⟩)
  · intro hd
    simp only [if_pos hd]
    exact List.forall₂_map_right_iff.mpr (List.forall₂_same.mpr fun m _ => memberMapped r m)
  · intro hl
    simp [hl]

/-- The types that have no counterpart are parameters' and results'. -/
theorem unmappedCount_eq (r : Registry) :
    r.unmappedCount = ((r.declared.flatMap MetaClass.members).map fun m =>
      m.parameters.countP (r.nativeType ·.hostType = .unmapped) +
        m.hostReturn.toList.countP (r.nativeType · = .unmapped)).sum := by
  have hunmapped : ∀ t, (!(r.nativeType t).isKnown) = decide (r.nativeType t = .unmapped) := by
    intro t
    cases r.nativeType t <;> rfl
  rw [unmappedCount, List.countP_flatMap]
  congr 1
  refine List.map_congr_left fun m _ => ?_
  simp only [Function.comp_apply, Member.hostTypes, List.countP_append, List.countP_map, hunmapped]
  rfl

end Mapped

section Again

theorem mapMember_mapMember (r : Registry) (m : Member) :
    r.mapMember (r.mapMember m) = r.mapMember m := by
  cases h : m.hostReturn <;> simp [mapMember, h, Function.comp_def]

theorem hostTypes_mapMember (r : Registry) (m : Member) :
    (r.mapMember m).hostTypes = m.hostTypes := by
  simp [Member.hostTypes, mapMember, Function.comp_def]

theorem mapTypes_mapTypes (r : Registry) : r.mapTypes.mapTypes = r.mapTypes := by
  have hmember : r.mapTypes.mapMember = r.mapMember := mapMember_mapMembers _ r
  rw [mapTypes, hmember, mapTypes, mapMembers_mapMembers]
  refine mapMembers_congr fun c _ => ?_
  change (if c.isDeclared then _ else _) = _
  split
  · simp [mapMember_mapMember]
  · rfl

theorem declared_mapMembers (f : MetaClass → List Member) (r : Registry) :
    (r.mapMembers f).declared = r.declared.map fun c => { c with members := f c } := by
  simp only [declared, inModule, mapMembers, List.filter_map]
  rfl

theorem unmappedCount_mapTypes (r : Registry) : r.mapTypes.unmappedCount = r.unmappedCount := by
  have hmember : ∀ c ∈ r.declared,
      ((if c.isDeclared then c.members.map r.mapMember else c.members).flatMap Member.hostTypes) =
        c.members.flatMap Member.hostTypes := by
    intro c hc
    rw [if_pos (mem_declared_iff.mp hc).2, List.flatMap_map]
    simp only [hostTypes_mapMember]
  rw [unmappedCount_eq_sum, unmappedCount_eq_sum, mapTypes, unmappedIn_mapMembers,
    declared_mapMembers, List.map_map]
  congr 1
  apply List.map_congr_left
  intro c hc
  simp only [Function.comp_apply, unmappedIn, hmember c hc]

end Again

/-- Types are mapped class by class, in any order of the declared classes, and yet all over the
registry as it was. In the declared classes every parameter and every result gets the text of what
its type stands for; all else is as it was. The count is that of the parameters and results without
counterpart, and a second pass finds as many and changes nothing. -/
theorem mapTypes_simultaneous (r : Registry) :
    (∀ order : List MetaClass, order.Perm r.declared →
      mapInTurn (order.map MetaClass.name) r = (r.mapTypes, r.unmappedCount)) ∧
    Forall₂ (ClassMapped r) r.classes r.mapTypes.classes ∧
    r.unmappedCount = ((r.declared.flatMap MetaClass.members).map fun m =>
      m.parameters.countP (r.nativeType ·.hostType = .unmapped) +
        m.hostReturn.toList.countP (r.nativeType · = .unmapped)).sum ∧
    mapInTurn r.mapTypes.declaredNames r.mapTypes = (r.mapTypes, r.unmappedCount) := by
  refine ⟨fun order h => mapInTurn_of_perm h, classMapped_mapTypes r, unmappedCount_eq r, ?_⟩
  rw [declaredNames, mapInTurn_of_perm (List.Perm.refl _), mapTypes_mapTypes,
    unmappedCount_mapTypes]

end Registry

end SignalBridge
