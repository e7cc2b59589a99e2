import Mathlib.Data.List.Chain
import SignalBridge.Proofs.Registry.Ascent
import SignalBridge.Proofs.Registry.RoundLimit

namespace SignalBridge.Registry

variable {r : Registry} {seen rest chain : List String} {name base base' last : String}
  {arrives : Bool} {cs : List MetaClass}

/-- The registry has a class called `name` whose base is `base`. -/
def HasBase (r : Registry) (name base : String) : Prop :=
  (r.find? name).bind MetaClass.base = some base

/-- A climb that nothing limits but the names it has seen. It goes on to a base only if that is
known or is the root class. -/
inductive Climb (r : Registry) : (seen : List String) → (name : String) → (arrives : Bool) →
    Prop where
  | root {seen : List String} : Climb r seen rootClass true
  | again {seen : List String} {name : String} (hne : name ≠ rootClass) (hs : name ∈ seen) :
      Climb r seen name false
  | stuck {seen : List String} {name : String} (hne : name ≠ rootClass) (hs : name ∉ seen)
      (h : ∀ base, r.HasBase name base → r.contains base = false ∧ base ≠ rootClass) :
      Climb r seen name false
  | up {seen : List String} {name base : String} {arrives : Bool} (hne : name ≠ rootClass)
      (hs : name ∉ seen) (hb : r.HasBase name base) (hk : r.contains base ∨ base = rootClass)
      (rest : Climb r (name :: seen) base arrives) : Climb r seen name arrives

/-- The names, each registered with the next one as its base, do not meet the root class, and they
come back to one of them or break off. A name that is not registered has no base. -/
structure Astray (r : Registry) (chain : List String) : Prop where
  linked : chain.IsChain r.HasBase
  rootless : rootClass ∉ chain
  ends : ¬ chain.Nodup ∨ ∃ last, chain.getLast? = some last ∧ ∀ base, ¬ r.HasBase last base

theorem hasBase_iff : r.HasBase name base ↔
    ∃ c ∈ r.classes, c.name = name ∧ c.base = some base := by
  simp only [HasBase, Option.bind_eq_some_iff, find?_eq_some_iff, and_assoc]

theorem HasBase.unique (h : r.HasBase name base) (h' : r.HasBase name base') : base = base' :=
  Option.some.inj (h.symm.trans h')

section Ways

theorem HasBase.ascent (h : r.HasBase name base) (hne : name ≠ rootClass)
    (hup : r.Ascent base cs) : ∃ ds, r.Ascent name ds := by
  obtain ⟨c, hc, rfl, hb⟩ := hasBase_iff.mp h
  exact ⟨c :: cs, .step hc hne hb hup⟩

/-- The names on the way up, the root class included, are a chain of bases. -/
theorem Ascent.isChain (h : r.Ascent name cs) :
    ∃ rest, cs.map MetaClass.name ++ [rootClass] = name :: rest ∧
      (name :: rest).IsChain r.HasBase := by
  induction h with
  | root => exact ⟨[], rfl, .singleton _⟩
  | @step c base cs hc _ hb _ ih =>
    obtain ⟨rest, he, hchain⟩ := ih
    refine ⟨base :: rest, congrArg _ he, List.isChain_cons_cons.mpr ⟨?_, hchain⟩⟩
    exact hasBase_iff.mpr ⟨c, hc, rfl, hb⟩

/-- A chain of bases that leads to the root class holds a way up to it. -/
theorem exists_ascent (h : (name :: rest).IsChain r.HasBase)
    (hlast : (name :: rest).getLast? = some rootClass) : ∃ cs, r.Ascent name cs := by
  induction rest generalizing name with
  | nil =>
    obtain rfl : name = rootClass := Option.some.inj hlast
    exact ⟨[], .root⟩
  | cons base rest ih =>
    by_cases hroot : name = rootClass
    · exact ⟨[], hroot ▸ .root⟩
    obtain ⟨hb, hchain⟩ := List.isChain_cons_cons.mp h
    obtain ⟨cs, hup⟩ := ih hchain (by rwa [List.getLast?_cons_cons] at hlast)
    exact hb.ascent hroot hup

/-- Where one name of a chain has a way up, so has the first one. -/
theorem exists_ascent_of_mem (h : (name :: rest).IsChain r.HasBase)
    (hroot : rootClass ∉ name :: rest) (hm : base ∈ name :: rest) (hup : r.Ascent base cs) :
    ∃ ds, r.Ascent name ds := by
  induction rest generalizing name with
  | nil =>
    obtain rfl := List.mem_singleton.mp hm
    exact ⟨cs, hup⟩
  | cons next rest ih =>
    rcases List.mem_cons.mp hm with rfl | hm
    · exact ⟨cs, hup⟩
    obtain ⟨hb, hchain⟩ := List.isChain_cons_cons.mp h
    rw [List.mem_cons, not_or] at hroot
    obtain ⟨ds, hds⟩ := ih hchain hroot.2 hm
    exact hb.ascent (Ne.symm hroot.1) hds

/-- A chain that does not meet the root class goes along the way up. -/
theorem Ascent.chain_isPrefix (h : r.Ascent name cs) (hchain : (name :: rest).IsChain r.HasBase)
    (hroot : rootClass ∉ name :: rest) : name :: rest <+: cs.map MetaClass.name := by
  induction h generalizing rest with
  | root => exact absurd List.mem_cons_self hroot
  | @step c base cs hc _ hb _ ih =>
    cases rest with
    | nil => exact List.prefix_append [_] _
    | cons next rest =>
      obtain ⟨hnext, hchain⟩ := List.isChain_cons_cons.mp hchain
      obtain rfl := hnext.unique (hasBase_iff.mpr ⟨c, hc, rfl, hb⟩)
      rw [List.mem_cons, not_or] at hroot
      exact (List.prefix_cons_inj _).mpr (ih hchain hroot.2)

/-- No name on a chain that goes astray is that of an object class. -/
theorem Astray.isObjectClass_eq_false (h : r.Astray chain) (hm : name ∈ chain) :
    r.isObjectClass name = false := by
  rw [← Bool.not_eq_true, isObjectClass_iff]
  rintro ⟨cs, hup⟩
  cases chain with
  | nil => cases hm
  | cons first rest =>
    -- The way up from the first name passes all of the chain, once each.
    obtain ⟨ds, hds⟩ := exists_ascent_of_mem h.linked h.rootless hm hup
    have halong := hds.chain_isPrefix h.linked h.rootless
    rcases h.ends with hrepeat | ⟨last, hlast, hnone⟩
    · refine hrepeat (List.Nodup.sublist halong.sublist ?_)
      exact hds.nodup.map_on fun c hc d hd =>
        eq_of_name_eq (hds.mem_classes c hc) (hds.mem_classes d hd)
    · obtain ⟨c, hc, rfl⟩ := List.mem_map.mp (halong.subset (List.mem_of_getLast? hlast))
      obtain ⟨base, hb⟩ := hds.exists_base hc
      exact hnone base (hasBase_iff.mpr ⟨c, hds.mem_classes c hc, rfl, hb⟩)

end Ways

section Climbs

theorem Climb.ascent (h : r.Climb seen name true) : ∃ cs, r.Ascent name cs := by
  generalize ha : true = arrives at h
  induction h with
  | root => exact ⟨[], .root⟩
  | again => cases ha
  | stuck => cases ha
  | up hne _ hb _ _ ih =>
    obtain ⟨cs, hup⟩ := ih ha
    exact hb.ascent hne hup

/-- A climb that gives up has come back to a name, or to one without a base to go on to. The names
it has seen come before its own. -/
theorem Climb.exists_chain (h : r.Climb seen name false) :
    ∃ rest, (name :: rest).IsChain r.HasBase ∧ rootClass ∉ name :: rest ∧
      (¬ (seen.reverse ++ name :: rest).Nodup ∨
        ∃ last, (name :: rest).getLast? = some last ∧ ∀ base, ¬ r.HasBase last base) := by
  generalize ha : false = arrives at h
  induction h with
  | root => cases ha
  | @again seen name hne hs =>
    refine ⟨[], .singleton _, by simpa using Ne.symm hne, .inl ?_⟩
    intro hnodup
    exact (List.nodup_append.mp hnodup).2.2 name (List.mem_reverse.mpr hs) name (by simp) rfl
  | @stuck seen name hne _ h =>
    by_cases hb : ∃ base, r.HasBase name base
    · obtain ⟨base, hb⟩ := hb
      obtain ⟨hk, hroot⟩ := h base hb
      have hmeets : rootClass ∉ [name, base] := by simp [Ne.symm hne, Ne.symm hroot]
      refine ⟨[base], List.isChain_pair.mpr hb, hmeets, .inr ⟨base, rfl, ?_⟩⟩
      intro next hnext
      rw [contains, Option.isSome_eq_false_iff, Option.isNone_iff_eq_none] at hk
      rw [HasBase, hk] at hnext
      cases hnext
    · exact ⟨[], .singleton _, by simpa using Ne.symm hne, .inr ⟨name, rfl, not_exists.mp hb⟩⟩
  | @up seen name base arrives hne _ hb _ _ ih =>
    obtain ⟨rest, hchain, hroot, hends⟩ := ih ha
    refine ⟨base :: rest, List.isChain_cons_cons.mpr ⟨hb, hchain⟩, ?_, ?_⟩
    · exact List.not_mem_cons_of_ne_of_not_mem (Ne.symm hne) hroot
    · rwa [List.reverse_cons, List.append_assoc] at hends

theorem Climb.astray (h : r.Climb [] name false) : ∃ chain, r.Astray chain ∧ name ∈ chain := by
  obtain ⟨rest, hchain, hroot, hends⟩ := h.exists_chain
  exact ⟨name :: rest, ⟨hchain, hroot, hends⟩, List.mem_cons_self⟩

/-- A climb comes to an end, for each step uses up a name of the registry. -/
theorem exists_climb (r : Registry) (seen : List String) (name : String) :
    ∃ arrives, r.Climb seen name arrives := by
  induction hn : r.names.countP (· ∉ seen) using Nat.strong_induction_on generalizing seen name with
  | _ n ih =>
    by_cases hroot : name = rootClass
    · exact ⟨true, hroot ▸ .root⟩
    by_cases hs : name ∈ seen
    · exact ⟨false, .again hroot hs⟩
    by_cases hup : ∃ base, r.HasBase name base ∧ (r.contains base ∨ base = rootClass)
    · obtain ⟨base, hb, hk⟩ := hup
      obtain ⟨c, hc, hname, -⟩ := hasBase_iff.mp hb
      have hmem : name ∈ r.names := hname ▸ List.mem_map_of_mem hc
      have hlt : r.names.countP (· ∉ name :: seen) < r.names.countP (· ∉ seen) :=
        countP_lt_countP (by simp) hmem (by simp) (by simpa using hs)
      obtain ⟨arrives, h⟩ := ih _ (hn ▸ hlt) (name :: seen) base rfl
      exact ⟨arrives, .up hroot hs hb hk h⟩
    · refine ⟨false, .stuck hroot hs fun base hb => ?_⟩
      rw [not_exists] at hup
      simpa [hb] using hup base

/-- However a climb ends, `isObjectClass` says the same. -/
theorem Climb.eq_isObjectClass (h : r.Climb [] name arrives) : arrives = r.isObjectClass name := by
  cases arrives with
  | true => exact (isObjectClass_iff.mpr h.ascent).symm
  | false =>
    obtain ⟨chain, hastray, hm⟩ := h.astray
    exact (hastray.isObjectClass_eq_false hm).symm

end Climbs

/-- Whether a name is that of an object class. The climb from it always comes to an end, with just
one answer. The answer is yes if and only if there is a chain of names from this one to the root
class, each registered with the next one as its base, and no if and only if the name is on a chain
that goes astray. -/
theorem isObjectClass_decides (r : Registry) (name : String) :
    (∀ arrives, r.Climb [] name arrives ↔ arrives = r.isObjectClass name) ∧
      (r.isObjectClass name = true ↔ ∃ chain : List String, chain.head? = some name ∧
        chain.getLast? = some rootClass ∧ chain.IsChain r.HasBase) ∧
      (r.isObjectClass name = false ↔ ∃ chain, r.Astray chain ∧ name ∈ chain) := by
  obtain ⟨arrives, hclimb⟩ := r.exists_climb [] name
  have harrives := hclimb.eq_isObjectClass
  refine ⟨?_, ?_, ?_⟩
  · intro other
    constructor
    · exact Climb.eq_isObjectClass
    · rintro rfl
      exact harrives ▸ hclimb
  · constructor
    · intro h
      obtain ⟨cs, hup⟩ := isObjectClass_iff.mp h
      obtain ⟨rest, he, hchain⟩ := hup.isChain
      exact ⟨name :: rest, rfl, by rw [← he, List.getLast?_concat], hchain⟩
    · rintro ⟨chain, hhead, hlast, hchain⟩
      obtain ⟨rest, rfl⟩ := List.head?_eq_some_iff.mp hhead
      exact isObjectClass_iff.mpr (exists_ascent hchain hlast)
  · constructor
    · intro h
      rw [harrives, h] at hclimb
      exact hclimb.astray
    · rintro ⟨chain, hastray, hm⟩
      exact hastray.isObjectClass_eq_false hm

end SignalBridge.Registry
