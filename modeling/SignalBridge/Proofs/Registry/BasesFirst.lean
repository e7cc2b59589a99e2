import Mathlib.Data.List.Chain
import Mathlib.Data.List.Perm.Subperm
import SignalBridge.Proofs.Registry.Lookup
import SignalBridge.Registry.BaseOrder

namespace SignalBridge.Registry

open List (Perm)

variable {r : Registry} {placed placed' : List String} {c b b' : MetaClass}
  {cs ds before after : List MetaClass}

section Passes

theorem placePass_perm (r : Registry) (placed : List String) (cs : List MetaClass) :
    Perm ((r.placePass placed cs).1 ++ (r.placePass placed cs).2) cs := by
  induction cs generalizing placed with
  | nil => exact .refl []
  | cons c cs ih =>
    rw [placePass]
    split
    · exact (ih (c.name :: placed)).cons c
    · exact List.perm_middle.trans ((ih placed).cons c)

theorem place_perm (r : Registry) (placed : List String) (waiting : List MetaClass) :
    Perm (r.place placed waiting) waiting := by
  fun_induction place r placed waiting with
  | case1 placed waiting pass hnone =>
    have h := r.placePass_perm placed waiting
    rw [show (r.placePass placed waiting).1 = [] from hnone] at h
    exact h
  | case2 placed waiting pass hsome ih =>
    exact (ih.append_left _).trans (r.placePass_perm placed waiting)

theorem basesFirst_perm (r : Registry) : Perm r.basesFirst r.declared :=
  r.place_perm [] r.declared

/-- A class waits for its base if that is another declared class. -/
def WaitsFor (r : Registry) (c b : MetaClass) : Prop :=
  b ∈ r.declared ∧ c.base = some b.name ∧ b.name ≠ c.name

theorem WaitsFor.unique (h : r.WaitsFor c b) (h' : r.WaitsFor c b') : b = b' :=
  eq_of_name_eq (mem_declared_iff.mp h.1).1 (mem_declared_iff.mp h'.1).1
    (Option.some.inj (h.2.1.symm.trans h'.2.1))

theorem mayFollow_iff : r.mayFollow placed c ↔ ∀ b, r.WaitsFor c b → b.name ∈ placed := by
  unfold mayFollow
  cases hb : c.base with
  | none => simp [WaitsFor, hb]
  | some base =>
    simp only [Bool.or_eq_true, decide_eq_true_eq, Bool.not_eq_true']
    constructor
    · rintro ((h | h) | h) b ⟨hd, hbase, hne⟩
      all_goals obtain rfl : base = b.name := Option.some.inj (hb.symm.trans hbase)
      · exact h
      · exact absurd h hne
      · obtain ⟨hmem, hd⟩ := mem_declared_iff.mp hd
        rw [find?_of_mem hmem, Option.any_some, hd] at h
        cases h
    · intro h
      by_contra hn
      simp only [not_or, Bool.not_eq_false, Option.any_eq_true] at hn
      obtain ⟨⟨hp, hne⟩, b, hf, hd⟩ := hn
      obtain ⟨hmem, rfl⟩ := find?_eq_some_iff.mp hf
      exact hp (h b ⟨mem_declared_iff.mpr ⟨hmem, hd⟩, hb, hne⟩)

theorem exists_waitsFor (h : r.mayFollow placed c = false) :
    ∃ b, r.WaitsFor c b ∧ b.name ∉ placed := by
  rw [← Bool.not_eq_true, mayFollow_iff, not_forall] at h
  obtain ⟨b, hb⟩ := h
  exact ⟨b, Classical.not_imp.mp hb⟩

theorem mayFollow_mono (hp : placed ⊆ placed') (h : r.mayFollow placed c) :
    r.mayFollow placed' c :=
  mayFollow_iff.mpr fun b hb => hp (mayFollow_iff.mp h b hb)

/-- Each class of the list comes when the one it waits for has its place, given the names of those
that have theirs before the first one comes. -/
def InTurn (r : Registry) : (placed : List String) → List MetaClass → Prop
  | _, [] => True
  | placed, c :: cs => r.mayFollow placed c ∧ InTurn r (c.name :: placed) cs

theorem InTurn.mono (hp : placed ⊆ placed') (h : r.InTurn placed cs) : r.InTurn placed' cs := by
  induction cs generalizing placed placed' with
  | nil => trivial
  | cons c cs ih => exact ⟨mayFollow_mono hp h.1, ih (List.cons_subset_cons _ hp) h.2⟩

theorem InTurn.append (h : r.InTurn placed cs)
    (h' : r.InTurn (cs.map MetaClass.name ++ placed) ds) : r.InTurn placed (cs ++ ds) := by
  induction cs generalizing placed with
  | nil => exact h'
  | cons c cs ih => exact ⟨h.1, ih h.2 (h'.mono List.perm_middle.symm.subset)⟩

theorem InTurn.mayFollow (h : r.InTurn placed (before ++ c :: after)) :
    r.mayFollow (before.map MetaClass.name ++ placed) c := by
  induction before generalizing placed with
  | nil => exact h.1
  | cons d before ih => exact mayFollow_mono List.perm_middle.subset (ih h.2)

theorem placePass_inTurn (r : Registry) (placed : List String) (cs : List MetaClass) :
    r.InTurn placed (r.placePass placed cs).1 := by
  induction cs generalizing placed with
  | nil => trivial
  | cons c cs ih =>
    rw [placePass]
    split
    · rename_i h
      exact ⟨h, ih _⟩
    · exact ih placed

theorem placePass_of_inTurn (h : r.InTurn placed cs) : r.placePass placed cs = (cs, []) := by
  induction cs generalizing placed with
  | nil => rfl
  | cons c cs ih => simp only [placePass, h.1, ↓reduceIte, ih h.2]

theorem placePass_sublist (r : Registry) (placed : List String) (cs : List MetaClass) :
    (r.placePass placed cs).2.Sublist cs := by
  induction cs generalizing placed with
  | nil => exact .slnil
  | cons c cs ih =>
    rw [placePass]
    split
    · exact (ih _).cons c
    · exact (ih placed).cons_cons c

/-- A pass places nothing only where no class may come. -/
theorem mayFollow_of_placePass (h : (r.placePass placed cs).1 = []) :
    ∀ c ∈ cs, r.mayFollow placed c = false := by
  induction cs with
  | nil => simp
  | cons c cs ih =>
    rw [placePass] at h
    split at h
    · cases h
    · rename_i hc
      exact List.forall_mem_cons.mpr ⟨eq_false_of_ne_true hc, ih h⟩

/-- The passes place classes in turn, and leave, as they were, those that may not come after any of
them. -/
theorem place_split (r : Registry) (placed : List String) (waiting : List MetaClass) :
    ∃ ahead behind, r.place placed waiting = ahead ++ behind ∧ r.InTurn placed ahead ∧
      behind.Sublist waiting ∧
      ∀ c ∈ behind, r.mayFollow (ahead.map MetaClass.name ++ placed) c = false := by
  fun_induction place r placed waiting with
  | case1 placed waiting pass hnone =>
    have hsublist := r.placePass_sublist placed waiting
    exact ⟨[], pass.2, rfl, trivial, hsublist,
      fun c hc => mayFollow_of_placePass hnone c (hsublist.subset hc)⟩
  | case2 placed waiting pass _ ih =>
    obtain ⟨ahead, behind, he, hturn, hsublist, hstuck⟩ := ih
    refine ⟨pass.1 ++ ahead, behind, by rw [he, List.append_assoc],
      (r.placePass_inTurn placed waiting).append hturn,
      hsublist.trans (r.placePass_sublist placed waiting), ?_⟩
    intro c hc
    have := hstuck c hc
    rw [← Bool.not_eq_true] at this ⊢
    refine mt (mayFollow_mono ?_) this
    intro name hn
    simpa [or_left_comm] using hn

theorem place_of_inTurn (h : r.InTurn placed cs) : r.place placed cs = cs := by
  have hnone : r.place (cs.map MetaClass.name ++ placed) [] = [] := (r.place_perm _ []).eq_nil
  rw [place, placePass_of_inTurn h]
  split
  · rename_i hcs
    exact hcs.symm
  · rw [hnone, List.append_nil]

end Passes

section Chains

/-- The chain of bases that `c` waits for comes to an end: at a class without a base, with one of a
library or an unknown one, or with itself for a base. -/
inductive Grounded (r : Registry) : MetaClass → Prop where
  | last {c : MetaClass} (h : ∀ b, ¬ r.WaitsFor c b) : Grounded r c
  | next {c b : MetaClass} (h : r.WaitsFor c b) (rest : Grounded r b) : Grounded r c

/-- The chain of bases that `c` waits for comes back to a class it has passed. No class waits for
itself, so there are at least two on the circle. -/
def Circling (r : Registry) (c : MetaClass) : Prop :=
  ∃ cs, (c :: cs).IsChain r.WaitsFor ∧ ¬ (c :: cs).Nodup

theorem Grounded.nodup (h : r.Grounded c) (hchain : (c :: cs).IsChain r.WaitsFor) :
    (c :: cs).Nodup := by
  induction h generalizing cs with
  | last h =>
    cases cs with
    | nil => exact List.nodup_singleton _
    | cons b cs => exact absurd (List.isChain_cons_cons.mp hchain).1 (h b)
  | @next c b h _ ih =>
    cases cs with
    | nil => exact List.nodup_singleton _
    | cons b' cs =>
      obtain ⟨hb, hchain⟩ := List.isChain_cons_cons.mp hchain
      obtain rfl := hb.unique h
      refine List.nodup_cons.mpr ⟨?_, ih hchain⟩
      intro hc
      -- A chain from the base back to `c` goes on to the base, which it then passes twice.
      obtain ⟨before, after, he⟩ := List.append_of_mem hc
      rw [he, List.isChain_split] at hchain
      have hloop := List.isChain_split.mpr ⟨hchain.1, List.isChain_pair.mpr hb⟩
      cases before with
      | nil => exact hb.2.2 (congrArg MetaClass.name (List.cons.inj he).1)
      | cons d before =>
        obtain rfl := (List.cons.inj he).1
        have := (List.nodup_cons.mp (ih hloop)).1
        simp at this

theorem Grounded.not_circling (h : r.Grounded c) : ¬ r.Circling c := by
  rintro ⟨cs, hchain, hrepeat⟩
  exact hrepeat (h.nodup hchain)

/-- Where each class waits for another of the list, chains in the list are as long as one likes. -/
theorem exists_chain_of_forall (h : ∀ c ∈ ds, ∃ b ∈ ds, r.WaitsFor c b) (n : Nat) (hc : c ∈ ds) :
    ∃ cs, (c :: cs).IsChain r.WaitsFor ∧ c :: cs ⊆ ds ∧ cs.length = n := by
  induction n generalizing c with
  | zero => exact ⟨[], .singleton _, by simpa using hc, rfl⟩
  | succ n ih =>
    obtain ⟨b, hb, hwaits⟩ := h c hc
    obtain ⟨cs, hchain, hsub, hlength⟩ := ih hb
    exact ⟨b :: cs, List.isChain_cons_cons.mpr ⟨hwaits, hchain⟩, List.cons_subset.mpr ⟨hc, hsub⟩,
      congrArg _ hlength⟩

theorem circling_of_forall (h : ∀ c ∈ ds, ∃ b ∈ ds, r.WaitsFor c b) (hc : c ∈ ds) :
    r.Circling c := by
  obtain ⟨cs, hchain, hsub, hlength⟩ := exists_chain_of_forall h ds.length hc
  refine ⟨cs, hchain, fun hnodup => ?_⟩
  have := (hnodup.subperm hsub).length_le
  rw [List.length_cons, hlength] at this
  omega

theorem InTurn.grounded (h : r.InTurn placed cs) (hcs : cs ⊆ r.declared)
    (hp : ∀ b ∈ r.declared, b.name ∈ placed → r.Grounded b) : ∀ c ∈ cs, r.Grounded c := by
  induction cs generalizing placed with
  | nil => simp
  | cons c cs ih =>
    rw [List.cons_subset] at hcs
    have hground : r.Grounded c := by
      by_cases hw : ∃ b, r.WaitsFor c b
      · obtain ⟨b, hb⟩ := hw
        exact .next hb (hp b hb.1 (mayFollow_iff.mp h.1 b hb))
      · exact .last (not_exists.mp hw)
    refine List.forall_mem_cons.mpr ⟨hground, ih h.2 hcs.2 ?_⟩
    intro b hb hn
    rcases List.mem_cons.mp hn with he | hn
    · rwa [eq_of_name_eq (mem_declared_iff.mp hb).1 (mem_declared_iff.mp hcs.1).1 he]
    · exact hp b hb hn

end Chains

section Places

/-- Every class of the list that waits for another one stands behind it. -/
def BasesAhead (r : Registry) (cs : List MetaClass) : Prop :=
  ∀ before c after, cs = before ++ c :: after → ∀ b, r.WaitsFor c b → b ∈ before

theorem InTurn.basesAhead (h : r.InTurn [] cs) (hcs : cs ⊆ r.declared) : r.BasesAhead cs := by
  rintro before c after rfl b hb
  have hn := mayFollow_iff.mp h.mayFollow b hb
  rw [List.append_nil] at hn
  obtain ⟨d, hd, hname⟩ := List.mem_map.mp hn
  have hdeclared := hcs (List.mem_append_left _ hd)
  obtain rfl := eq_of_name_eq (mem_declared_iff.mp hdeclared).1 (mem_declared_iff.mp hb.1).1 hname
  exact hd

theorem inTurn_of_forall (h : ∀ before c after, cs = before ++ c :: after →
    ∀ b, r.WaitsFor c b → b ∈ before ∨ b.name ∈ placed) : r.InTurn placed cs := by
  induction cs generalizing placed with
  | nil => trivial
  | cons c cs ih =>
    constructor
    · rw [mayFollow_iff]
      intro b hb
      simpa using h [] c cs rfl b hb
    · apply ih
      rintro before d after rfl b hb
      rcases h (c :: before) d after rfl b hb with hm | hn
      · rcases List.mem_cons.mp hm with rfl | hm
        · exact .inr List.mem_cons_self
        · exact .inl hm
      · exact .inr (List.mem_cons_of_mem _ hn)

theorem BasesAhead.inTurn (h : r.BasesAhead cs) : r.InTurn [] cs :=
  inTurn_of_forall fun before c after he b hb => .inl (h before c after he b hb)

end Places

/-- The order in which the declared classes are written. Each of them is in it once. First come
those whose chain of declared bases comes to an end, each behind its base if that is another
declared class; then those whose chain runs into a circle of two or more, in the order of the
registry. Where the registry has every base first, its order is kept. -/
theorem basesFirst_order (r : Registry) :
    r.basesFirst.Perm r.declared ∧ r.basesFirst.Nodup ∧
      (∃ ahead behind, r.basesFirst = ahead ++ behind ∧
        (∀ c, c ∈ ahead ↔ c ∈ r.declared ∧ r.Grounded c) ∧ r.BasesAhead ahead ∧
        (∀ c, c ∈ behind ↔ c ∈ r.declared ∧ r.Circling c) ∧ behind.Sublist r.declared) ∧
      (r.BasesAhead r.declared → r.basesFirst = r.declared) := by
  have hperm := r.basesFirst_perm
  have hnodup : r.declared.Nodup := r.nodup_declaredNames.of_map _
  refine ⟨hperm, hperm.nodup_iff.mpr hnodup, ?_, fun h => place_of_inTurn h.inTurn⟩
  obtain ⟨ahead, behind, he, hturn, hsublist, hstuck⟩ := r.place_split [] r.declared
  have hmem (c : MetaClass) : c ∈ r.declared ↔ c ∈ ahead ∨ c ∈ behind := by
    rw [← hperm.mem_iff, basesFirst, he, List.mem_append]
  have hahead : ahead ⊆ r.declared := fun c hc => (hmem c).mpr (.inl hc)
  have hgrounded := hturn.grounded hahead (by simp)
  have hwaits : ∀ c ∈ behind, ∃ b ∈ behind, r.WaitsFor c b := by
    intro c hc
    obtain ⟨b, hb, hn⟩ := exists_waitsFor (hstuck c hc)
    refine ⟨b, ((hmem b).mp hb.1).resolve_left fun hm => hn ?_, hb⟩
    exact List.mem_append_left _ (List.mem_map_of_mem hm)
  have hcircling : ∀ c ∈ behind, r.Circling c := fun c hc => circling_of_forall hwaits hc
  refine ⟨ahead, behind, he, ?_, hturn.basesAhead hahead, ?_, hsublist⟩
  · intro c
    rw [hmem]
    constructor
    · intro hc
      exact ⟨.inl hc, hgrounded c hc⟩
    · rintro ⟨hc | hc, hg⟩
      · exact hc
      · exact absurd (hcircling c hc) hg.not_circling
  · intro c
    rw [hmem]
    constructor
    · intro hc
      exact ⟨.inr hc, hcircling c hc⟩
    · rintro ⟨hc | hc, hcirc⟩
      · exact absurd hcirc (hgrounded c hc).not_circling
      · exact hc

/-- A chain declared backwards, a class that is its own base, and a class whose chain runs into a
circle. -/
example :
    let derive (name base : String) : MetaClass := ⟨name, .publicAccess, mainModule, some base, []⟩
    let r : Registry := ⟨[derive "Tail" "Ring", derive "Leaf" "Mid", derive "Ring" "Loop",
      derive "Mid" "Top", derive "Loop" "Ring", derive "Own" "Own", derive "Top" "QObject"],
      by decide⟩
    r.basesFirst.map MetaClass.name = ["Own", "Top", "Mid", "Leaf", "Tail", "Ring", "Loop"] := by
  decide +kernel

end SignalBridge.Registry
