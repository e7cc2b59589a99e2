import SignalBridge.Artifact.Basic
import SignalBridge.Proofs.Bridge.NamesApart
import SignalBridge.Proofs.Registry.BasesFirst
import SignalBridge.Proofs.Text.Pieces
import SignalBridge.Run.ClassModel

/-!
When no two functions of the generated files have the same name. Functions of different classes can
meet only where the name of a class holds an underscore, starts with `callback` or ends in a digit.
-/

namespace SignalBridge

/-- All functions that the header declares. -/
def Registry.headerNames (r : Registry) : List String :=
  r.boundClasses.flatMap BoundClass.headerNames

/-- All functions that a Go file defines. -/
def HostFile.functionNames (file : HostFile) : List String :=
  file.helpers.map HostHelper.name ++ file.functions.map HostFunction.name

/-- A class name that can be told from what surrounds it in the name of a function. -/
structure PlainName (name : String) : Prop where
  no_underscore : '_' ∉ name.toList
  no_callback : ¬ "callback".toList <+: name.toList
  no_digit : ∀ h : name.toList ≠ [], ¬ (name.toList.getLast h).isDigit

/-- The class that a function name tells. -/
def classOf (name : List Char) : List Char :=
  if '_' ∈ name then
    let owner := name.takeWhile (· ≠ '_')
    (Text.dropWord? "callback".toList owner).getD owner
  else if name.head? = some 'N' then (name.drop 3).rdropWhile Char.isDigit
  else name.drop 7

section Classes

variable {owner name : String} {r : Registry} {c : MetaClass}

theorem classOf_underscored (h : PlainName owner) (s : String) :
    classOf (underscored owner s).toList = owner.toList := by
  rw [classOf, if_pos (underscore_mem owner s), takeWhile_underscored h.no_underscore]
  simp only [Text.dropWord?_eq_none h.no_callback, Option.getD_none]

theorem classOf_callback (h : PlainName owner) (s : String) :
    classOf (underscored ("callback" ++ owner) s).toList = owner.toList := by
  have hu : '_' ∉ ("callback" ++ owner).toList := by simp [h.no_underscore]
  rw [classOf, if_pos (underscore_mem _ s), takeWhile_underscored hu, String.toList_append]
  simp only [Text.dropWord?_append, Option.getD_some]

theorem classOf_createName (h : PlainName owner) (built : Nat) :
    classOf (createName owner built).toList = owner.toList := by
  rw [classOf, if_neg (underscore_not_mem_createName h.no_underscore built), toList_createName]
  have := rdropWhile_append_digits (List.rdropWhile_eq_self_iff.mpr h.no_digit)
    fun c => @isDigit_of_mem_createDigits built c
  simpa using this

theorem classOf_deleteName (h : PlainName owner) :
    classOf (deleteName owner).toList = owner.toList := by
  rw [classOf, if_neg (underscore_not_mem_deleteName h.no_underscore)]
  simp [deleteName]

theorem classOf_of_mem_headerNames (h : PlainName c.name)
    (hn : name ∈ (r.boundClass c).headerNames) : classOf name.toList = c.name.toList := by
  obtain ⟨s, rfl⟩ := exists_of_mem_headerNames hn
  exact classOf_underscored h s

theorem classOf_of_mem_hostNames (h : PlainName c.name)
    (hn : name ∈ (r.boundClass c).hostNames) : classOf name.toList = c.name.toList := by
  rcases cases_of_mem_hostNames hn with ⟨s, rfl⟩ | ⟨s, rfl⟩ | ⟨i, rfl⟩ | rfl
  · exact classOf_underscored h s
  · exact classOf_callback h s
  · exact classOf_createName h i
  · exact classOf_deleteName h

/-- Helpers are named after nothing that is declared. -/
theorem helperName_not_mem {helper : HostHelper}
    (hh : helper ∈ HostFile.handlerHelpers ++ HostFile.listHelpers) :
    helper.name ∉ (r.boundClass c).hostNames := by
  have hm : '_' ∉ helper.name.toList ∧ helper.name.toList.head? = some 'm' := by
    revert helper
    decide
  intro hn
  rcases cases_of_mem_hostNames hn with ⟨s, he⟩ | ⟨s, he⟩ | ⟨i, he⟩ | he
  · exact hm.1 (he ▸ underscore_mem _ s)
  · exact hm.1 (he ▸ underscore_mem _ s)
  · have := hm.2
    rw [he, toList_createName] at this
    simp at this
  · have := hm.2
    rw [he] at this
    simp [deleteName] at this

end Classes

section AllClasses

variable {r : Registry}

theorem basesFirst_names_nodup (r : Registry) : (r.basesFirst.map MetaClass.name).Nodup := by
  rw [(r.basesFirst_perm.map _).nodup_iff]
  exact r.names_nodup.sublist (List.filter_sublist.map _)

/-- Where the class can be told from every name, names repeat only within a class. -/
theorem nodup_boundClasses_iff {names : BoundClass → List String}
    (h : ∀ c ∈ r.declared, ∀ name ∈ names (r.boundClass c), classOf name.toList = c.name.toList) :
    (r.boundClasses.flatMap names).Nodup ↔
      ∀ c ∈ r.declared, (names (r.boundClass c)).Nodup := by
  have hmem (c : MetaClass) : c ∈ r.basesFirst ↔ c ∈ r.declared := r.basesFirst_perm.mem_iff
  have hnames := basesFirst_names_nodup r
  rw [List.nodup_iff_pairwise_ne, List.pairwise_map] at hnames
  have hdisjoint : r.basesFirst.Pairwise
      (Function.onFun List.Disjoint fun c => names (r.boundClass c)) := by
    apply hnames.imp_of_mem
    intro a b ha hb hne name hna hnb
    apply hne
    apply String.toList_injective
    rw [← h a ((hmem a).mp ha) name hna, ← h b ((hmem b).mp hb) name hnb]
  rw [Registry.boundClasses, List.flatMap_map, List.nodup_flatMap, and_iff_left hdisjoint]
  simp only [hmem]

theorem helpers_sublist (package : String) (pkgConfig : List String) (cs : List BoundClass) :
    (HostFile.ofClasses package pkgConfig cs).helpers.Sublist
      (HostFile.handlerHelpers ++ HostFile.listHelpers) := by
  unfold HostFile.ofClasses
  apply List.Sublist.append_left
  split
  · exact .refl _
  · exact List.nil_sublist _

/-- The helpers keep apart from each other and from all classes. -/
theorem hostFile_names_nodup_iff (package : String) (pkgConfig : List String) :
    (HostFile.ofClasses package pkgConfig r.boundClasses).functionNames.Nodup ↔
      (r.boundClasses.flatMap BoundClass.hostNames).Nodup := by
  have hsub := helpers_sublist package pkgConfig r.boundClasses
  have hhelpers : (HostFile.handlerHelpers ++ HostFile.listHelpers).map HostHelper.name |>.Nodup :=
    by decide
  have hfunctions : (HostFile.ofClasses package pkgConfig r.boundClasses).functions.map
      HostFunction.name = r.boundClasses.flatMap BoundClass.hostNames := List.map_flatMap
  rw [HostFile.functionNames, List.nodup_append', hfunctions]
  constructor
  · intro hn
    exact hn.2.1
  · intro hn
    refine ⟨hhelpers.sublist (hsub.map _), hn, ?_⟩
    intro name hh hf
    obtain ⟨helper, hm, rfl⟩ := List.mem_map.mp hh
    obtain ⟨b, hb, hf⟩ := List.mem_flatMap.mp hf
    obtain ⟨c, -, rfl⟩ := List.mem_map.mp hb
    exact helperName_not_mem (hsub.subset hm) hf

/-- Where class names are plain, no two functions of the header and no two functions of the Go file
have the same name, exactly if the members of each class are apart. -/
theorem Registry.functionNames_nodup_iff (h : ∀ c ∈ r.declared, PlainName c.name)
    (package : String) (pkgConfig : List String) :
    r.headerNames.Nodup ∧
        (HostFile.ofClasses package pkgConfig r.boundClasses).functionNames.Nodup ↔
      ∀ c ∈ r.declared, c.NamesApart := by
  have hheader := nodup_boundClasses_iff fun c hc name =>
    classOf_of_mem_headerNames (r := r) (h c hc)
  have hhost := nodup_boundClasses_iff fun c hc name =>
    classOf_of_mem_hostNames (r := r) (h c hc)
  rw [Registry.headerNames, hostFile_names_nodup_iff, hheader, hhost, ← forall₂_and]
  apply forall₂_congr
  intro c hc
  exact nodup_classNames_iff (h c hc).no_underscore

def gaugeRegistry : Registry where
  classes :=
    [⟨"Gauge", .publicAccess, mainModule, some rootClass,
      [⟨"moved", "Gauge::moved", .signal, "void", none, [], .nonvirtual⟩,
        ⟨"reset", "Gauge::reset", .slot, "void", none, [], .nonvirtual⟩,
        ⟨"Gauge", "Gauge::Gauge", .constructor, "void", none, [], .nonvirtual⟩,
        ⟨"~Gauge", "Gauge::~Gauge", .destructor, "void", none, [], .nonvirtual⟩]⟩]
  names_nodup := by decide

theorem functionNames_nodup_gauge :
    (∀ c ∈ gaugeRegistry.declared, PlainName c.name) ∧ gaugeRegistry.headerNames.Nodup ∧
      (HostFile.ofClasses "main" [] gaugeRegistry.boundClasses).functionNames.Nodup := by
  have hdeclared : gaugeRegistry.declared = gaugeRegistry.classes := rfl
  have hplain : ∀ c ∈ gaugeRegistry.declared, PlainName c.name := by
    rw [hdeclared]
    intro c hc
    obtain rfl := List.mem_singleton.mp hc
    exact ⟨by decide, by decide, by decide⟩
  have hapart : ∀ c ∈ gaugeRegistry.declared, c.NamesApart := by
    rw [hdeclared]
    intro c hc
    obtain rfl := List.mem_singleton.mp hc
    exact ⟨by decide, List.disjoint_left.mpr (by decide), List.disjoint_left.mpr (by decide),
      List.disjoint_left.mpr (by decide), by decide⟩
  exact ⟨hplain, (gaugeRegistry.functionNames_nodup_iff hplain "main" []).mpr hapart⟩

end AllClasses

/-- A signal and a slot whose names differ in the case of the first letter only. -/
def clashSource : String :=
  "package main\n\ntype W struct \x7b\n\tQObject\n\t_ func() `signal:\"moved\"`\n" ++
    "\t_ func() `slot:\"Moved\"`\n\x7d\n"

theorem functionNames_clash : ∃ file model artifacts, Source.scan clashSource = .ok file ∧
    ClassModel.build LibraryModule.builtin [⟨"w.go", file⟩] = .ok model ∧
    model.registry.emit model.package [] = .ok artifacts ∧
    ¬ model.registry.headerNames.Nodup ∧
    ¬ (HostFile.ofClasses model.package [] model.registry.boundClasses).functionNames.Nodup := by
  have hrun : (Source.scan clashSource).toOption.any fun file =>
      (ClassModel.build LibraryModule.builtin [⟨"w.go", file⟩]).toOption.any fun model =>
        (model.registry.emit model.package []).toOption.any fun _ =>
          ¬ model.registry.headerNames.Nodup ∧
          ¬ (HostFile.ofClasses model.package [] model.registry.boundClasses).functionNames.Nodup :=
    by decide +kernel
  obtain ⟨file, hscan, hrun⟩ := exists_ok_of_any hrun
  obtain ⟨model, hbuild, hrun⟩ := exists_ok_of_any hrun
  obtain ⟨artifacts, hemit, hrun⟩ := exists_ok_of_any hrun
  exact ⟨file, model, artifacts, hscan, hbuild, hemit, of_decide_eq_true hrun⟩

end SignalBridge
