import Mathlib.Tactic.IntervalCases
import SignalBridge.Artifact.Basic
import SignalBridge.Proofs.Bridge.Callbacks
import SignalBridge.Proofs.Bridge.NamesApart
import SignalBridge.Run.ClassModel

/-!
When the parameters of a member keep apart in the generated functions. A name that cannot stay is
replaced by one with its position at the end, and a C string has a variable of its own in Go; both
are made without a look at the names beside them (`parameterNames_apart_iff`).
-/

namespace SignalBridge

/-- A name that a parameter cannot keep. -/
def IsReplaced (name : String) : Prop :=
  name = "" ∨ name = "_" ∨ name ∈ reservedNames

instance (name : String) : Decidable (IsReplaced name) :=
  inferInstanceAs (Decidable (_ ∨ _ ∨ _))

/-- What stands before the position in the name that replaces one. -/
def replacingStem (name : String) : String :=
  if name = "" ∨ name = "_" then "v" else name

section Names

variable {name s t : String} {i j : Nat}

theorem boundName_kept (h : ¬IsReplaced name) (i : Nat) : boundName name i = name := by
  simp only [IsReplaced, not_or] at h
  rw [boundName, if_neg (by simp [h]), if_neg h.2.2]

theorem toList_boundName (h : IsReplaced name) (i : Nat) :
    (boundName name i).toList = (replacingStem name).toList ++ Nat.toDigits 10 i := by
  unfold boundName replacingStem
  by_cases hb : name = "" ∨ name = "_"
  · simp [hb, toString]
  · have hr : name ∈ reservedNames := by
      simp only [not_or] at hb
      exact (h.resolve_left hb.1).resolve_left hb.2
    simp [hb, hr, toString]

/-- No name that is replaced ends in a digit. -/
theorem rdropWhile_of_isReplaced (h : IsReplaced name) :
    name.toList.rdropWhile Char.isDigit = name.toList := by
  have hall : ∀ s ∈ "" :: "_" :: reservedNames,
      s.toList.rdropWhile Char.isDigit = s.toList := by decide
  exact hall name (by simpa [IsReplaced] using h)

/-- What replaces a name does, and its position is told from the digits. -/
theorem rdropWhile_boundName (h : IsReplaced name) (i : Nat) :
    (boundName name i).toList.rdropWhile Char.isDigit = (replacingStem name).toList := by
  have hstem : (replacingStem name).toList.rdropWhile Char.isDigit =
      (replacingStem name).toList := by
    unfold replacingStem
    split
    · decide
    · exact rdropWhile_of_isReplaced h
  rw [toList_boundName h]
  exact rdropWhile_append_digits hstem fun c hc =>
    Nat.isDigit_of_mem_toDigits (by decide) (by decide) hc

theorem position_eq (hs : IsReplaced s) (ht : IsReplaced t)
    (h : boundName s i = boundName t j) : i = j := by
  have hstem : (replacingStem s).toList = (replacingStem t).toList := by
    rw [← rdropWhile_boundName hs i, h, rdropWhile_boundName ht]
  have hl := congrArg String.toList h
  rw [toList_boundName hs, toList_boundName ht, hstem] at hl
  exact toDigits_injective (List.append_cancel_left hl)

/-- Every name that is made or kept may stay. -/
theorem not_isReplaced_boundName (name : String) (i : Nat) : ¬IsReplaced (boundName name i) := by
  by_cases h : IsReplaced name
  · intro hb
    have hl := rdropWhile_of_isReplaced hb
    rw [rdropWhile_boundName h, toList_boundName h] at hl
    exact Nat.toDigits_ne_nil (List.self_eq_append_right.mp hl)
  · rwa [boundName_kept h]

/-- The variable for a C string has a name that may stay and has no number at the end. -/
theorem not_isReplaced_temporary (h : name ≠ "") : ¬IsReplaced (name ++ "C") := by
  have hend : ∀ s ∈ "" :: "_" :: reservedNames, s.toList.getLast? = some 'C' → s = "C" := by
    decide
  intro hr
  have hc : name ++ "C" = "C" := hend _ (by simpa [IsReplaced] using hr) (by simp)
  have hl := congrArg String.length hc
  rw [String.length_append, Nat.add_eq_right, String.length_eq_zero_iff] at hl
  exact h hl

theorem rdropWhile_temporary (name : String) :
    (name ++ "C").toList.rdropWhile Char.isDigit = (name ++ "C").toList := by
  rw [String.toList_append]
  exact List.rdropWhile_concat_neg _ _ _ (by decide)

end Names

section Lists

variable {names : List String} {name : String}

/-- The names that the names of a list get. -/
def boundNames (names : List String) : List String :=
  names.mapIdx fun i name => boundName name i

theorem getElem?_boundNames {i : Nat} :
    (boundNames names)[i]? = names[i]?.map (boundName · i) :=
  List.getElem?_mapIdx

theorem not_isReplaced_of_mem_boundNames (h : name ∈ boundNames names) : ¬IsReplaced name := by
  obtain ⟨i, hi, rfl⟩ := List.mem_mapIdx.mp h
  exact not_isReplaced_boundName names[i] i

/-- Names that are different but for the blank one stay so exactly if each one that is made is
new. -/
theorem nodup_boundNames_iff (hd : names.Pairwise fun s t => s = t → s = "_") :
    (boundNames names).Nodup ↔
      ∀ i s, names[i]? = some s → IsReplaced s → boundName s i ∉ names := by
  constructor
  · intro hn i s hs hr hm
    obtain ⟨j, hj⟩ := List.mem_iff_getElem?.mp hm
    have hkept : boundName (boundName s i) j = boundName s i :=
      boundName_kept (not_isReplaced_boundName s i) j
    have hi : i < (boundNames names).length := by
      rw [boundNames, List.length_mapIdx]
      exact (List.getElem?_eq_some_iff.mp hs).1
    have hij : i = j :=
      (List.getElem?_inj hi hn).mp (by simp [getElem?_boundNames, hs, hj, hkept])
    subst hij
    rw [hs, Option.some_inj] at hj
    exact not_isReplaced_boundName s i (hj ▸ hr)
  · intro hnew
    rw [List.pairwise_iff_getElem] at hd
    apply List.pairwise_iff_getElem.mpr
    intro i j hi hj hij he
    rw [boundNames, List.length_mapIdx] at hi hj
    simp only [boundNames, List.getElem_mapIdx] at he
    -- Two that are made differ in their positions, two that are kept were different before.
    by_cases hri : IsReplaced names[i] <;> by_cases hrj : IsReplaced names[j]
    · exact hij.ne (position_eq hri hrj he)
    · rw [boundName_kept hrj] at he
      exact hnew i _ (List.getElem?_eq_getElem hi) hri (he ▸ List.getElem_mem hj)
    · rw [boundName_kept hri] at he
      exact hnew j _ (List.getElem?_eq_getElem hj) hrj (he ▸ List.getElem_mem hi)
    · rw [boundName_kept hri, boundName_kept hrj] at he
      exact hri (.inr (.inl (hd i j hi hj hij he)))

/-- A name that could not be made is bound exactly where it was. -/
theorem mem_boundNames_iff (hk : ¬IsReplaced name)
    (hd : name.toList.rdropWhile Char.isDigit = name.toList) :
    name ∈ boundNames names ↔ name ∈ names := by
  constructor
  · intro h
    obtain ⟨i, hi, he⟩ := List.mem_mapIdx.mp h
    by_cases hr : IsReplaced names[i]
    · have hl := rdropWhile_boundName hr i
      rw [he, hd, ← he, toList_boundName hr] at hl
      exact absurd (List.append_right_eq_self.mp hl) Nat.toDigits_ne_nil
    · rw [boundName_kept hr] at he
      exact he ▸ List.getElem_mem hi
  · intro h
    obtain ⟨i, hi, he⟩ := List.mem_iff_getElem.mp h
    apply List.mem_mapIdx.mpr
    exact ⟨i, hi, by rw [he, boundName_kept hk]⟩

end Lists

/-- The variable that a statement declares for a value. -/
def HostStatement.assigned? : HostStatement → Option String
  | assign name _ => some name
  | act _ | defer _ | declare _ _ | withHandler _ _ => none

namespace Binding

variable {b : Binding} {name : String}

def parameterNames (b : Binding) : List String :=
  b.parameters.map BoundParameter.name

/-- The names as the member has them. -/
def ownNames (b : Binding) : List String :=
  b.member.parameters.map Parameter.name

/-- The variables that Go has for the C strings of a call. -/
def temporaries (b : Binding) : List String :=
  b.cStrings.filterMap HostStatement.assigned?

theorem temporaries_eq (b : Binding) : b.temporaries =
    (b.parameters.filter (·.boundary.isCString)).map BoundParameter.temporary := by
  rw [temporaries, cStrings, List.filterMap_flatMap, ← List.flatMap_pure_eq_map]
  rfl

end Binding

section Classes

variable {r : Registry} {c : MetaClass} {b : Binding} {name : String}

theorem parameterNames_eq (hb : b ∈ (r.boundClass c).bindings) :
    b.parameterNames = boundNames b.ownNames := by
  obtain ⟨m, -, built, rfl⟩ := exists_bind_of_mem_bindAll hb
  apply List.ext_getElem?
  intro i
  simp [Binding.parameterNames, Binding.ownNames, Registry.bind, getElem?_boundNames,
    List.getElem?_mapIdx, Function.comp_def]

theorem mem_parameterNames_iff (hb : b ∈ (r.boundClass c).bindings) (hn : name ∈ b.temporaries) :
    name ∈ b.parameterNames ↔ name ∈ b.ownNames := by
  rw [Binding.temporaries_eq] at hn
  obtain ⟨p, hp, rfl⟩ := List.mem_map.mp hn
  have hne : p.name ≠ "" := by
    have hmem : p.name ∈ b.parameterNames := List.mem_map_of_mem (List.mem_of_mem_filter hp)
    rw [parameterNames_eq hb] at hmem
    intro he
    exact not_isReplaced_of_mem_boundNames hmem (.inl he)
  rw [parameterNames_eq hb]
  exact mem_boundNames_iff (not_isReplaced_temporary hne) (rdropWhile_temporary p.name)

/-- Every parameter has a name that it may have. Where a member names its parameters differently
but for blanks, the names stay different exactly if none that is made for a parameter is the name
of another, and the C strings have names of their own exactly if no parameter is named so. -/
theorem parameterNames_apart_iff (hb : b ∈ (r.boundClass c).bindings)
    (hd : b.ownNames.Pairwise fun s t => s = t → s = "_") :
    (∀ name ∈ b.parameterNames, name ≠ "" ∧ name ≠ "_" ∧ name ∉ reservedNames) ∧
    (b.parameterNames.Nodup ↔
      ∀ i s, b.ownNames[i]? = some s → IsReplaced s → boundName s i ∉ b.ownNames) ∧
    ((∀ name ∈ b.temporaries, name ∉ b.parameterNames) ↔
      ∀ name ∈ b.temporaries, name ∉ b.ownNames) := by
  refine ⟨?_, ?_, ?_⟩
  · intro name hn
    rw [parameterNames_eq hb] at hn
    simpa [IsReplaced] using not_isReplaced_of_mem_boundNames hn
  · rw [parameterNames_eq hb]
    exact nodup_boundNames_iff hd
  · apply forall₂_congr
    intro name hn
    rw [mem_parameterNames_iff hb hn]

def sliderMoved : Member :=
  ⟨"moved", "Slider::moved", .signal, "void", none,
    [⟨"label", "string", "QString"⟩, ⟨"_", "int", "int"⟩, ⟨"_", "int", "int"⟩,
      ⟨"new", "string", "QString"⟩], .nonvirtual⟩

def sliderRegistry : Registry where
  classes := [⟨"Slider", .publicAccess, mainModule, some rootClass, [sliderMoved]⟩]
  names_nodup := by decide

def sliderBinding : Binding :=
  sliderRegistry.bind "Slider" 0 sliderMoved

theorem parameterNames_apart_slider :
    (∃ c ∈ sliderRegistry.classes, sliderBinding ∈ (sliderRegistry.boundClass c).bindings) ∧
      sliderBinding.ownNames = ["label", "_", "_", "new"] ∧ sliderBinding.parameterNames.Nodup ∧
      ∀ name ∈ sliderBinding.temporaries, name ∉ sliderBinding.parameterNames := by
  have hb : sliderBinding ∈ (sliderRegistry.boundClass
      ⟨"Slider", .publicAccess, mainModule, some rootClass, [sliderMoved]⟩).bindings :=
    List.mem_singleton.mpr rfl
  obtain ⟨-, hnames, htemporaries⟩ := parameterNames_apart_iff hb (by decide)
  refine ⟨⟨_, List.mem_singleton.mpr rfl, hb⟩, rfl, hnames.mpr ?_, htemporaries.mpr (by decide)⟩
  intro i s hs
  have hi : i < 4 := (List.getElem?_eq_some_iff.mp hs).1
  interval_cases i <;> cases hs <;> decide

/-- A name that is made for a blank one and the variable for a C string meet other parameters. -/
def meetingSource : String :=
  "package main\n\ntype Slider struct \x7b\n\tQObject\n" ++
    "\t_ func(v1 int, _ int) `signal:\"moved\"`\n" ++
    "\t_ func(label string, labelC string) `slot:\"show\"`\n\x7d\n"

theorem parameterNames_meet : ∃ file model artifacts, Source.scan meetingSource = .ok file ∧
    ClassModel.build LibraryModule.builtin [⟨"slider.go", file⟩] = .ok model ∧
    model.registry.emit model.package [] = .ok artifacts ∧
    (∃ b ∈ model.registry.boundClasses.flatMap BoundClass.bindings,
      b.ownNames = ["v1", "_"] ∧ ¬b.parameterNames.Nodup) ∧
    ∃ b ∈ model.registry.boundClasses.flatMap BoundClass.bindings,
      b.ownNames = ["label", "labelC"] ∧ ∃ name ∈ b.temporaries, name ∈ b.parameterNames := by
  have hrun : (Source.scan meetingSource).toOption.any fun file =>
      (ClassModel.build LibraryModule.builtin [⟨"slider.go", file⟩]).toOption.any fun model =>
        (model.registry.emit model.package []).toOption.any fun _ =>
          (∃ b ∈ model.registry.boundClasses.flatMap BoundClass.bindings,
            b.ownNames = ["v1", "_"] ∧ ¬b.parameterNames.Nodup) ∧
          ∃ b ∈ model.registry.boundClasses.flatMap BoundClass.bindings,
            b.ownNames = ["label", "labelC"] ∧ ∃ name ∈ b.temporaries, name ∈ b.parameterNames := by
    decide +kernel
  obtain ⟨file, hscan, hrun⟩ := exists_ok_of_any hrun
  obtain ⟨model, hbuild, hrun⟩ := exists_ok_of_any hrun
  obtain ⟨artifacts, hemit, hrun⟩ := exists_ok_of_any hrun
  exact ⟨file, model, artifacts, hscan, hbuild, hemit, of_decide_eq_true hrun⟩

end Classes

end SignalBridge
