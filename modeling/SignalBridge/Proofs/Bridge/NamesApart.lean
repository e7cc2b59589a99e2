import Mathlib.Data.List.DropRight
import Mathlib.Data.List.Flatten
import SignalBridge.Proofs.Bridge.FunctionNames

/-!
When the functions of a class have different names. Constructors are numbered and so never meet; the
names of signals and slots are taken as they come.
-/

namespace SignalBridge

open Member

section Stems

variable {owner s t : String} {built : Nat} {ms : List Member}

theorem toList_underscored (owner stem : String) :
    (underscored owner stem).toList = owner.toList ++ '_' :: stem.toList := by
  simp [underscored]

theorem underscored_injective (owner : String) : Function.Injective (underscored owner) := by
  intro s t h
  exact (String.append_right_inj _).mp h

theorem connect_ne_disconnect (s t : String) : "Connect" ++ s ≠ "Disconnect" ++ t := by
  intro h
  simp [← String.toList_inj] at h

theorem nodup_linkNames {stems : List String} (h : stems.Nodup) :
    (stems.flatMap linkStems).Nodup := by
  rw [List.nodup_flatMap]
  constructor
  · intro s hs
    simp [linkStems]
  · apply h.imp
    intro s t hne
    simp [Function.onFun, linkStems, List.Disjoint, connect_ne_disconnect,
      (connect_ne_disconnect _ _).symm, hne]

theorem toDigits_injective : Function.Injective (Nat.toDigits 10) := by
  intro i j h
  have := congrArg (fun digits => Nat.ofDigitChars 10 digits 0) h
  simpa only [Nat.ofDigitChars_ten_toDigits] using this

/-- A number at the end is told from its digits where none stands before it. -/
theorem rdropWhile_append_digits {stem digits : List Char}
    (hs : stem.rdropWhile Char.isDigit = stem) (hd : ∀ c ∈ digits, c.isDigit) :
    (stem ++ digits).rdropWhile Char.isDigit = stem := by
  have hr : ∀ c ∈ digits.reverse, c.isDigit := by
    intro c hc
    exact hd c (List.mem_reverse.mp hc)
  rw [List.rdropWhile, List.reverse_append, List.dropWhile_append_of_pos hr]
  exact hs

/-- The number at the end of a constructor's name. -/
def createDigits (built : Nat) : List Char :=
  if built = 0 then [] else Nat.toDigits 10 (built + 1)

theorem toList_createName (owner : String) (built : Nat) :
    (createName owner built).toList = "New".toList ++ (owner.toList ++ createDigits built) := by
  by_cases hb : built = 0 <;> simp [createName, createDigits, hb, toString]

theorem isDigit_of_mem_createDigits {c : Char} (h : c ∈ createDigits built) : c.isDigit := by
  unfold createDigits at h
  split at h
  · cases h
  · exact Nat.isDigit_of_mem_toDigits (by decide) (by decide) h

theorem createDigits_injective : Function.Injective createDigits := by
  intro i j h
  unfold createDigits at h
  split at h <;> split at h
  · omega
  · exact absurd h.symm Nat.toDigits_ne_nil
  · exact absurd h Nat.toDigits_ne_nil
  · have := toDigits_injective h
    omega

theorem createName_injective (owner : String) : Function.Injective (createName owner) := by
  intro i j h
  have hl := congrArg String.toList h
  rw [toList_createName, toList_createName] at hl
  apply createDigits_injective
  simpa using hl

theorem createName_ne_deleteName (owner : String) (built : Nat) :
    createName owner built ≠ deleteName owner := by
  intro h
  have hl := congrArg String.toList h
  rw [toList_createName] at hl
  simp [deleteName] at hl

theorem nodup_createNames (owner : String) (ms : List Member) :
    (createNames owner built ms).Nodup :=
  (List.nodup_range' 1).map (createName_injective owner)

theorem exists_of_mem_createNames (h : s ∈ createNames owner built ms) :
    ∃ i, s = createName owner i := by
  obtain ⟨i, -, rfl⟩ := List.mem_map.mp h
  exact ⟨i, rfl⟩

theorem eq_of_mem_deleteNames (h : s ∈ deleteNames owner ms) : s = deleteName owner := by
  obtain ⟨m, -, rfl⟩ := List.mem_map.mp h
  rfl

/-- The name of a constructor starts with no verb of a link. -/
theorem createName_not_mem_linkStems (owner : String) (built : Nat) (s : String) :
    createName owner built ∉ linkStems s := by
  simp [linkStems, ← String.toList_inj, toList_createName]

theorem deleteName_not_mem_linkStems (owner s : String) : deleteName owner ∉ linkStems s := by
  simp [linkStems, ← String.toList_inj, deleteName]

theorem createNames_disjoint_deleteNames (owner : String) (ms : List Member) :
    List.Disjoint (createNames owner built ms) (deleteNames owner ms) := by
  intro name hc hd
  obtain ⟨i, rfl⟩ := exists_of_mem_createNames hc
  exact createName_ne_deleteName owner i (eq_of_mem_deleteNames hd)

theorem linkNames_disjoint_createNames (stems : List String) (owner : String) (ms : List Member) :
    List.Disjoint (stems.flatMap linkStems) (createNames owner built ms) := by
  intro name hl hc
  obtain ⟨s, -, hs⟩ := List.mem_flatMap.mp hl
  obtain ⟨i, rfl⟩ := exists_of_mem_createNames hc
  exact createName_not_mem_linkStems owner i s hs

theorem linkNames_disjoint_deleteNames (stems : List String) (owner : String) (ms : List Member) :
    List.Disjoint (stems.flatMap linkStems) (deleteNames owner ms) := by
  intro name hl hd
  obtain ⟨s, -, hs⟩ := List.mem_flatMap.mp hl
  obtain rfl := eq_of_mem_deleteNames hd
  exact deleteName_not_mem_linkStems owner s hs

end Stems

section Owner

variable {owner s t : String} {built : Nat} {ms : List Member}

theorem underscore_mem (owner s : String) : '_' ∈ (underscored owner s).toList := by
  simp [underscored]

theorem underscore_not_mem_createName (h : '_' ∉ owner.toList) (built : Nat) :
    '_' ∉ (createName owner built).toList := by
  have hd : '_' ∉ createDigits built := by
    intro hm
    exact absurd (isDigit_of_mem_createDigits hm) (by decide)
  simp [toList_createName, h, hd]

theorem underscore_not_mem_deleteName (h : '_' ∉ owner.toList) :
    '_' ∉ (deleteName owner).toList := by
  simp [deleteName, h]

theorem takeWhile_underscored (h : '_' ∉ owner.toList) (s : String) :
    (underscored owner s).toList.takeWhile (· ≠ '_') = owner.toList := by
  have hw : ∀ c ∈ owner.toList, decide (c ≠ '_') := by
    intro c hc
    have : c ≠ '_' := fun he => h (he ▸ hc)
    simpa using this
  rw [toList_underscored, List.takeWhile_append_of_pos hw]
  simp

end Owner

/-- What keeps the functions of a class apart. -/
structure MetaClass.NamesApart (c : MetaClass) : Prop where
  /-- No two signals or slots are exported under one name. -/
  exported : (exportedNames c.members).Nodup
  /-- None has the name of a function that connects or disconnects another. -/
  links : List.Disjoint (exportedNames c.members) ((exportedNames c.members).flatMap linkStems)
  /-- None has the name of a function that creates or deletes an object. -/
  creates : List.Disjoint (exportedNames c.members) (createNames c.name 0 c.members)
  deletes : List.Disjoint (exportedNames c.members) (deleteNames c.name c.members)
  /-- There is at most one destructor. -/
  destructor : (deleteNames c.name c.members).Nodup

section OneClass

variable {r : Registry} {c : MetaClass} {name : String}

theorem signalNames_sublist (ms : List Member) : (signalNames ms).Sublist (exportedNames ms) := by
  apply List.Sublist.map
  apply List.monotone_filter_right
  intro m hm
  simp [of_decide_eq_true hm, Category.isInherited]

theorem nodup_headerNames_iff : (r.boundClass c).headerNames.Nodup ↔
    (exportedNames c.members).Nodup ∧
      List.Disjoint (exportedNames c.members) ((signalNames c.members).flatMap linkStems) ∧
      List.Disjoint (exportedNames c.members) (createNames c.name 0 c.members) ∧
      List.Disjoint (exportedNames c.members) (deleteNames c.name c.members) ∧
      (deleteNames c.name c.members).Nodup := by
  rw [(boundClass_headerNames_perm r c).nodup_iff, List.nodup_map_iff (underscored_injective _)]
  have hlinks (h : (exportedNames c.members).Nodup) :
      ((signalNames c.members).flatMap linkStems).Nodup :=
    nodup_linkNames (h.sublist (signalNames_sublist c.members))
  simp only [List.nodup_append', List.disjoint_append_right, nodup_createNames,
    createNames_disjoint_deleteNames, linkNames_disjoint_createNames,
    linkNames_disjoint_deleteNames]
  tauto

theorem underscored_disjoint (h : '_' ∉ c.name.toList) (owner : String) (stems : List String) :
    List.Disjoint (stems.map (underscored owner))
      (createNames c.name 0 c.members ++ deleteNames c.name c.members) := by
  intro name hu hn
  obtain ⟨s, -, rfl⟩ := List.mem_map.mp hu
  have := underscore_mem owner s
  rcases List.mem_append.mp hn with hc | hd
  · obtain ⟨i, he⟩ := exists_of_mem_createNames hc
    exact underscore_not_mem_createName h i (he ▸ this)
  · exact underscore_not_mem_deleteName h (eq_of_mem_deleteNames hd ▸ this)

theorem underscored_disjoint_callback (h : '_' ∉ c.name.toList) (stems others : List String) :
    List.Disjoint (stems.map (underscored c.name))
      (others.map (underscored ("callback" ++ c.name))) := by
  intro name hu hn
  obtain ⟨s, -, rfl⟩ := List.mem_map.mp hu
  obtain ⟨t, -, he⟩ := List.mem_map.mp hn
  have hc : '_' ∉ ("callback" ++ c.name).toList := by simp [h]
  have := takeWhile_underscored hc t
  rw [he, takeWhile_underscored h] at this
  -- One of the two is longer.
  have := congrArg List.length this
  simp at this
  omega

theorem nodup_hostNames_iff (h : '_' ∉ c.name.toList) : (r.boundClass c).hostNames.Nodup ↔
    (exportedNames c.members).Nodup ∧
      List.Disjoint (exportedNames c.members) ((exportedNames c.members).flatMap linkStems) ∧
      List.Disjoint (exportedNames c.members) (deleteNames c.name c.members) ∧
      (deleteNames c.name c.members).Nodup := by
  rw [(boundClass_hostNames_perm r c).nodup_iff, List.nodup_append', List.nodup_append']
  have hlinks := @nodup_linkNames (exportedNames c.members)
  have hown (stems others : List String) := List.disjoint_append_right.mpr
    ⟨underscored_disjoint_callback h stems others, underscored_disjoint h c.name stems⟩
  simp only [List.nodup_map_iff (underscored_injective _), List.nodup_append', nodup_createNames,
    createNames_disjoint_deleteNames, underscored_disjoint h, hown]
  tauto

/-- The functions of a class have different names exactly if its members are apart. -/
theorem nodup_classNames_iff (h : '_' ∉ c.name.toList) :
    (r.boundClass c).headerNames.Nodup ∧ (r.boundClass c).hostNames.Nodup ↔ c.NamesApart := by
  rw [nodup_headerNames_iff, nodup_hostNames_iff h]
  constructor
  · intro hn
    obtain ⟨⟨hexported, -, hcreates, hdeletes, hdestructor⟩, -, hlinks, -⟩ := hn
    exact ⟨hexported, hlinks, hcreates, hdeletes, hdestructor⟩
  · intro ⟨hexported, hlinks, hcreates, hdeletes, hdestructor⟩
    have hsub : (signalNames c.members).flatMap linkStems ⊆
        (exportedNames c.members).flatMap linkStems :=
      ((signalNames_sublist c.members).flatMap linkStems).subset
    exact ⟨⟨hexported, List.disjoint_of_subset_right hsub hlinks, hcreates, hdeletes, hdestructor⟩,
      hexported, hlinks, hdeletes, hdestructor⟩

theorem exists_of_mem_headerNames (h : name ∈ (r.boundClass c).headerNames) :
    ∃ s, name = underscored c.name s := by
  obtain ⟨s, -, rfl⟩ := List.mem_map.mp ((boundClass_headerNames_perm r c).mem_iff.mp h)
  exact ⟨s, rfl⟩

theorem cases_of_mem_hostNames (h : name ∈ (r.boundClass c).hostNames) :
    (∃ s, name = underscored c.name s) ∨ (∃ s, name = underscored ("callback" ++ c.name) s) ∨
      (∃ i, name = createName c.name i) ∨ name = deleteName c.name := by
  have h := (boundClass_hostNames_perm r c).mem_iff.mp h
  rcases List.mem_append.mp h with hu | h
  · obtain ⟨s, -, rfl⟩ := List.mem_map.mp hu
    exact .inl ⟨s, rfl⟩
  rcases List.mem_append.mp h with hu | h
  · obtain ⟨s, -, rfl⟩ := List.mem_map.mp hu
    exact .inr (.inl ⟨s, rfl⟩)
  rcases List.mem_append.mp h with hc | hd
  · exact .inr (.inr (.inl (exists_of_mem_createNames hc)))
  · exact .inr (.inr (.inr (eq_of_mem_deleteNames hd)))

end OneClass

end SignalBridge
