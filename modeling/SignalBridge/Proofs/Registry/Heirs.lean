import SignalBridge.Proofs.Registry.RoundLimit

/-!
Who inherits what. Where the declared classes hold signals and slots only, what a class is handed
down is settled by its base chain alone (`Inherits`), so the rounds, which see bases half done, can
only fill it in once and for all (`exists_gain`).
-/

namespace SignalBridge.Registry

variable {r : Registry} {c base : MetaClass} {ms : List Member}

/-- The members that a class takes from what its base hands down. -/
def taken (c : MetaClass) (handed : List Member) : List Member :=
  fresh (c.members.map Member.fullName) (handed.map (·.renamedFor c.name))

/-- What a class is handed down in the end: by a base of a library what that base holds, by a
declared base what it is handed down itself. -/
inductive Inherits (r : Registry) : MetaClass → List Member → Prop where
  | library {c base : MetaClass} (hb : c.base.bind r.find? = some base)
      (hl : base.isDeclared = false) :
      Inherits r c (taken c (base.members.filter (·.category.isInherited)))
  | declared {c base : MetaClass} {ms : List Member} (hb : c.base.bind r.find? = some base)
      (hd : base.isDeclared) (hi : Inherits r base ms) : Inherits r c (taken c ms)

theorem Inherits.unique {ms' : List Member} (h : Inherits r c ms) (h' : Inherits r c ms') :
    ms = ms' := by
  induction h generalizing ms' with
  | library hb hl =>
    cases h' with
    | library hb' => cases hb.symm.trans hb'; rfl
    | declared hb' hd' => cases hb.symm.trans hb'; simp [hl] at hd'
  | declared hb hd _ ih =>
    cases h' with
    | library hb' hl' => cases hb.symm.trans hb'; simp [hd] at hl'
    | declared hb' _ hi' => cases hb.symm.trans hb'; rw [ih hi']

theorem mem_taken {handed : List Member} {m : Member} (h : m ∈ taken c handed) :
    ∃ n ∈ handed, m = n.renamedFor c.name := by
  obtain ⟨n, hn, he⟩ := List.mem_map.mp (mem_fresh h).1
  exact ⟨n, hn, he.symm⟩

theorem Inherits.isInherited (h : Inherits r c ms) : ∀ m ∈ ms, m.category.isInherited := by
  induction h with
  | library =>
    intro m hm
    obtain ⟨n, hn, rfl⟩ := mem_taken hm
    exact (List.mem_filter.mp hn).2
  | declared _ _ _ ih =>
    intro m hm
    obtain ⟨n, hn, rfl⟩ := mem_taken hm
    exact ih n hn

theorem Inherits.congr {r' : Registry} (hf : ∀ name, r.find? name = r'.find? name)
    (h : Inherits r c ms) : Inherits r' c ms := by
  have he : r.find? = r'.find? := funext hf
  induction h with
  | library hb hl => exact .library (he ▸ hb) hl
  | declared hb hd _ ih => exact .declared (he ▸ hb) hd ih

/-- Declared classes hold signals and slots only. -/
def Plain (r : Registry) : Prop :=
  ∀ c ∈ r.declared, ∀ m ∈ c.members, m.category.isInherited = false

theorem Plain.filter_members (h : r.Plain) (hc : c ∈ r.classes) (hd : c.isDeclared) :
    c.members.filter (·.category.isInherited) = [] := by
  rw [List.filter_eq_nil_iff]
  intro m hm
  simp [h c (mem_declared_iff.mpr ⟨hc, hd⟩) m hm]

/-- Each class has gained nothing yet, or all it is handed down. -/
def Gained (r : Registry) (gain : MetaClass → List Member) : Prop :=
  ∀ c, gain c = [] ∨ (c.isDeclared ∧ Inherits r c (gain c))

def withGain (r : Registry) (gain : MetaClass → List Member) : Registry :=
  r.mapMembers fun c => c.members ++ gain c

section Gaining

variable {gain : MetaClass → List Member} (hp : r.Plain) (hg : r.Gained gain)

theorem find?_withGain (name : String) : (r.withGain gain).find? name =
    (r.find? name).map fun c => { c with members := c.members ++ gain c } :=
  find?_mapMembers r _ name

include hg in
theorem Gained.eq_of_inherits (h : Inherits r c ms) (hne : gain c ≠ []) : gain c = ms := by
  rcases hg c with hc | ⟨-, hc⟩
  · exact absurd hc hne
  · exact hc.unique h

/-- What a base hands down at some time during the rounds. -/
def handed (gain : MetaClass → List Member) (base : MetaClass) : List Member :=
  (base.members ++ gain base).filter (·.category.isInherited)

include hp hg in
theorem handed_of_declared (hb : base ∈ r.classes) (hd : base.isDeclared) :
    handed gain base = gain base := by
  rw [handed, List.filter_append, hp.filter_members hb hd, List.nil_append, List.filter_eq_self]
  rcases hg base with h | ⟨-, h⟩
  · simp [h]
  · exact h.isInherited

include hg in
theorem handed_of_library (hl : base.isDeclared = false) :
    handed gain base = base.members.filter (·.category.isInherited) := by
  rcases hg base with h | ⟨h, -⟩
  · rw [handed, h, List.append_nil]
  · simp [hl] at h

/-- The gain of a class during the rounds, from what its base hands down by then. -/
theorem gains_withGain (hc : c ∈ r.classes) : (r.withGain gain).gains c.name =
    match c.base.bind r.find? with
    | some base => fresh ((c.members ++ gain c).map Member.fullName)
        ((handed gain base).map (·.renamedFor c.name))
    | none => [] := by
  have hbase : c.base.bind (r.withGain gain).find? = (c.base.bind r.find?).map fun base =>
      { base with members := base.members ++ gain base } := by
    cases c.base with
    | none => rfl
    | some name => exact find?_withGain name
  rw [gains, find?_withGain, find?_of_mem hc]
  simp only [Option.map_some, inherited, hbase]
  cases c.base.bind r.find? with
  | none => rfl
  | some base => rfl

theorem mem_of_bind_find? (h : c.base.bind r.find? = some base) : base ∈ r.classes := by
  obtain ⟨name, -, hb⟩ := Option.bind_eq_some_iff.mp h
  exact (find?_eq_some_iff.mp hb).1

include hp hg in
/-- A base hands down nothing yet, or what settles the gain of the class. -/
theorem handed_eq_nil_or_inherits (hb : c.base.bind r.find? = some base) :
    handed gain base = [] ∨ Inherits r c (taken c (handed gain base)) := by
  cases hd : base.isDeclared with
  | false =>
    rw [handed_of_library hg hd]
    exact .inr (.library hb hd)
  | true =>
    rw [handed_of_declared hp hg (mem_of_bind_find? hb) hd]
    rcases hg base with h | ⟨-, h⟩
    · exact .inl h
    · exact .inr (.declared hb hd h)

include hp hg in
/-- A visit gives a class all it is handed down, unless it has it or its base does not have it. -/
theorem gain_step (hc : c ∈ r.classes) :
    (r.withGain gain).gains c.name = [] ∨
      (gain c = [] ∧ Inherits r c ((r.withGain gain).gains c.name)) := by
  rw [gains_withGain hc]
  cases hb : c.base.bind r.find? with
  | none => exact .inl rfl
  | some base =>
    simp only
    rcases handed_eq_nil_or_inherits hp hg hb with h | h
    · exact .inl (by simp [h, fresh])
    · by_cases hne : gain c = []
      · refine .inr ⟨hne, ?_⟩
        rwa [hne, List.append_nil]
      · left
        rw [hg.eq_of_inherits h hne, List.map_append]
        exact fresh_append_fresh

/-- A visit adds to the gain of its class, and to no other. -/
theorem visit_withGain_eq (hc : c ∈ r.classes) : (r.withGain gain).visit c.name =
    r.withGain fun d => if d = c then gain d ++ (r.withGain gain).gains c.name else gain d := by
  rw [visit, addMembers]
  unfold withGain
  rw [mapMembers_mapMembers]
  apply mapMembers_congr
  intro d hmem
  simp only
  by_cases he : d = c
  · simp [he]
  · rw [if_neg he, if_neg fun hn => he (eq_of_name_eq hmem hc hn)]

include hp hg in
theorem visit_withGain (hc : c ∈ r.classes) (hd : c.isDeclared) :
    ∃ gain', r.Gained gain' ∧ (r.withGain gain).visit c.name = r.withGain gain' := by
  refine ⟨_, ?_, visit_withGain_eq hc⟩
  intro d
  by_cases he : d = c
  · subst he
    simp only [↓reduceIte]
    rcases gain_step hp hg hc with h | ⟨hn, h⟩
    · rw [h, List.append_nil]
      exact hg d
    · rw [hn, List.nil_append]
      exact .inr ⟨hd, h⟩
  · simp only [if_neg he]
    exact hg d

include hp hg in
/-- When no class gains any more, every class has all it is handed down. -/
theorem gain_eq_of_quiet (hq : ∀ c ∈ r.declared, (r.withGain gain).gains c.name = [])
    (hc : c ∈ r.classes) (hd : c.isDeclared) (h : Inherits r c ms) : gain c = ms := by
  induction h with
  | @library c base hb hl =>
    by_cases hne : gain c = []
    · have := hq c (mem_declared_iff.mpr ⟨hc, hd⟩)
      rw [gains_withGain hc, hb, hne, List.append_nil] at this
      simp only [handed_of_library hg hl] at this
      rw [hne, taken, this]
    · exact hg.eq_of_inherits (.library hb hl) hne
  | @declared c base ms hb hdb hi ih =>
    by_cases hne : gain c = []
    · have := hq c (mem_declared_iff.mpr ⟨hc, hd⟩)
      have hbm := mem_of_bind_find? hb
      rw [gains_withGain hc, hb, hne, List.append_nil] at this
      simp only [handed_of_declared hp hg hbm hdb, ih hbm hdb] at this
      rw [hne, taken, this]
    · exact hg.eq_of_inherits (.declared hb hdb hi) hne

end Gaining

/-- Propagation adds to every class what it is handed down, and to the others nothing. -/
theorem exists_gain (hp : r.Plain) : ∃ gain : MetaClass → List Member,
    r.propagate.registry = r.withGain gain ∧ r.Gained gain ∧
      ∀ c ∈ r.declared, ∀ ms, Inherits r c ms → gain c = ms := by
  have hrun : ∃ gain, r.Gained gain ∧ r.propagate.registry = r.withGain gain := by
    refine propagate_induction (P := fun r' => ∃ gain, r.Gained gain ∧ r' = r.withGain gain) ?_ ?_
    · rintro - name hn ⟨gain, hg, rfl⟩
      obtain ⟨c, hc, rfl⟩ := List.mem_map.mp hn
      obtain ⟨hc, hd⟩ := mem_declared_iff.mp hc
      exact visit_withGain hp hg hc hd
    · refine ⟨fun _ => [], fun _ => .inl rfl, ?_⟩
      simp only [withGain, List.append_nil]
      exact (mapMembers_members r).symm
  obtain ⟨gain, hg, he⟩ := hrun
  refine ⟨gain, he, hg, ?_⟩
  intro c hc ms h
  obtain ⟨hm, hd⟩ := mem_declared_iff.mp hc
  exact gain_eq_of_quiet hp hg (fun c hc => by rw [← he]; exact r.gains_propagate c hc) hm hd h

section Permuted

variable {r₁ r₂ : Registry} (h : r₁.classes.Perm r₂.classes)
include h

theorem Plain.perm (hp : r₁.Plain) : r₂.Plain :=
  fun c hc => hp c ((declared_perm h).mem_iff.mpr hc)

theorem memberCount_perm : r₁.memberCount = r₂.memberCount :=
  (h.map _).sum_nat

/-- The order of the classes decides nothing but the order of the classes. -/
theorem propagate_perm (hp : r₁.Plain) :
    r₁.propagate.registry.classes.Perm r₂.propagate.registry.classes ∧
      r₁.propagate.added = r₂.propagate.added := by
  obtain ⟨gain₁, he₁, hg₁, hi₁⟩ := exists_gain hp
  obtain ⟨gain₂, he₂, hg₂, hi₂⟩ := exists_gain (hp.perm h)
  have hgain : ∀ c ∈ r₁.classes, gain₁ c = gain₂ c := by
    intro c hc
    rcases hg₁ c with hn₁ | ⟨hd, hh⟩
    · rcases hg₂ c with hn₂ | ⟨hd, hh⟩
      · rw [hn₁, hn₂]
      · exact hi₁ c (mem_declared_iff.mpr ⟨hc, hd⟩) _ (hh.congr fun n => (find?_perm h n).symm)
    · exact (hi₂ c (mem_declared_iff.mpr ⟨h.mem_iff.mp hc, hd⟩) _ (hh.congr (find?_perm h))).symm
  have hperm : r₁.propagate.registry.classes.Perm r₂.propagate.registry.classes := by
    rw [he₁, he₂]
    exact mapMembers_perm h fun c hc => by rw [hgain c hc]
  refine ⟨hperm, ?_⟩
  have hafter := memberCount_perm hperm
  have hbefore := memberCount_perm h
  rw [memberCount_propagate, memberCount_propagate] at hafter
  omega

end Permuted

end SignalBridge.Registry
