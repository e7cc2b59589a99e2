import SignalBridge.Proofs.Registry.Declaration
import SignalBridge.Proofs.Registry.Resolution
import SignalBridge.Run.ClassModel

namespace SignalBridge

open Registry

variable {libraries : List LibraryModule} {files : List ScannedFile} {config : Config}
  {inputs : Inputs} {model : ClassModel} {r : Registry} {c : MetaClass}

/-- The names of the classes that are bound, then those of the classes that were dropped. -/
def ClassModel.settledNames (m : ClassModel) : List String :=
  m.classes.map MetaClass.name ++ m.resolution.pruned

section Modules

theorem library_insert (h : ∀ d ∈ r.classes, d.isDeclared = false) (hc : c.isDeclared = false) :
    ∀ d ∈ (r.insert c).classes, d.isDeclared = false := by
  intro d hd
  have hf := find?_of_mem hd
  rw [find?_insert] at hf
  split at hf
  · cases hf
    exact hc
  · exact h d (find?_eq_some_iff.mp hf).1

theorem library_load {m : LibraryModule} (hm : m.key ≠ mainModule)
    (h : ∀ d ∈ r.classes, d.isDeclared = false) :
    ∀ d ∈ (r.load m).classes, d.isDeclared = false := by
  unfold load
  generalize m.classes = cs
  induction cs generalizing r with
  | nil => exact h
  | cons c cs ih => exact ih (library_insert h (decide_eq_false hm))

/-- Classes of modules with other names than `main` are not taken for declared ones. -/
theorem library_ofModules (hm : ∀ m ∈ libraries, m.key ≠ mainModule) :
    ∀ d ∈ (ofModules libraries).classes, d.isDeclared = false := by
  have hload : ∀ r : Registry, (∀ d ∈ r.classes, d.isDeclared = false) →
      ∀ d ∈ (libraries.foldl load r).classes, d.isDeclared = false := by
    induction libraries with
    | nil => intro r h; exact h
    | cons m ms ih =>
      rw [List.forall_mem_cons] at hm
      intro r h
      exact ih hm.2 _ (library_load hm.1 h)
  exact hload empty (by simp [empty])

theorem declaredNames_of_library (h : ∀ d ∈ r.classes, d.isDeclared = false) :
    r.declaredNames = [] := by
  rw [declaredNames, List.map_eq_nil_iff, List.eq_nil_iff_forall_not_mem]
  intro c hc
  obtain ⟨hc, hd⟩ := mem_declared_iff.mp hc
  rw [h c hc] at hd
  cases hd

end Modules

section Model

theorem ClassModel.build_ok (h : ClassModel.build libraries files = .ok model) :
    ∃ r, (ofModules libraries).build (files.map ScannedFile.source) = .ok (r, model.discovered) ∧
      model.resolution = r.mapTypes.resolve := by
  unfold ClassModel.build at h
  split at h
  · cases h
  · rename_i r discovered hb
    cases h
    exact ⟨r, hb, rfl⟩

theorem mem_mapTypes_of_library (hc : c ∈ r.classes) (hl : c.isDeclared = false) :
    c ∈ r.mapTypes.classes :=
  List.mem_map.mpr ⟨c, hc, by simp [hl]⟩

/-- Each class that is declared, by a struct or by a module called `main`, is bound or dropped. -/
theorem settledNames_build (h : ClassModel.build libraries files = .ok model) :
    model.settledNames.Perm ((ofModules libraries).declaredNames ++ model.discovered) := by
  obtain ⟨r, hb, hres⟩ := ClassModel.build_ok h
  obtain ⟨registered, hdeclare, rfl, hnames⟩ := build_ok_iff.mp hb
  rw [ClassModel.settledNames, ClassModel.classes, ClassModel.registry, hres, hnames]
  refine (resolve_perm_pruned _).trans ?_
  rw [mapTypes, declaredNames_mapMembers]
  exact declaredNames_attach hdeclare

/-- A library class in whose place no struct is declared is found in the model as it was. -/
theorem mem_build_of_library (h : ClassModel.build libraries files = .ok model)
    (hc : c ∈ (ofModules libraries).classes) (hl : c.isDeclared = false)
    (hn : c.name ∉ model.discovered) : c ∈ model.registry.classes := by
  obtain ⟨r, hb, hres⟩ := ClassModel.build_ok h
  obtain ⟨registered, hdeclare, rfl, hnames⟩ := build_ok_iff.mp hb
  rw [ClassModel.registry, hres]
  rw [hnames] at hn
  have hattached := mem_attach_of_library hdeclare hc hn
  exact mem_resolve_of_library (mem_mapTypes_of_library hattached hl) hl

theorem nodup_settledNames (h : ClassModel.build libraries files = .ok model) :
    model.settledNames.Nodup := by
  obtain ⟨r, -, hres⟩ := ClassModel.build_ok h
  rw [ClassModel.settledNames, ClassModel.classes, ClassModel.registry, hres]
  exact (resolve_perm_pruned _).nodup_iff.mpr (nodup_declaredNames _)

/-- Neither is such a class bound or dropped. -/
theorem not_mem_settledNames (h : ClassModel.build libraries files = .ok model)
    (hc : c ∈ (ofModules libraries).classes) (hl : c.isDeclared = false)
    (hn : c.name ∉ model.discovered) : c.name ∉ model.settledNames := by
  rw [(settledNames_build h).mem_iff, List.mem_append, not_or]
  refine ⟨?_, hn⟩
  intro hd
  obtain ⟨d, hf, hd⟩ := mem_declaredNames_iff.mp hd
  rw [find?_of_mem hc] at hf
  cases hf
  rw [hl] at hd
  cases hd

/-- The classes that a run binds and those that it drops are, each once, the structs it finds and
the classes of modules called `main`; every other class of a library stays as it is, unless a
struct takes its place. Without a module of that name they are the structs, and no class of a
library is among them. -/
theorem ClassModel.settledNames_perm (h : ClassModel.ofInputs config inputs = .ok model) :
    ∃ libraries, inputs.libraries config = .ok libraries ∧ model.settledNames.Nodup ∧
      model.settledNames.Perm ((ofModules libraries).declaredNames ++ model.discovered) ∧
      (∀ c ∈ (ofModules libraries).classes, c.isDeclared = false → c.name ∉ model.discovered →
        c ∈ model.registry.classes ∧ c.name ∉ model.settledNames) ∧
      ((∀ m ∈ libraries, m.key ≠ mainModule) →
        model.settledNames.Perm model.discovered ∧
        ∀ c ∈ (ofModules libraries).classes, c.name ∉ model.discovered →
          c ∈ model.registry.classes ∧ c.name ∉ model.settledNames) := by
  obtain ⟨files, -, h⟩ := bind_eq_ok_iff.mp h
  obtain ⟨libraries, hlibraries, h⟩ := bind_eq_ok_iff.mp h
  have hperm := settledNames_build h
  have hstays : ∀ c ∈ (ofModules libraries).classes, c.isDeclared = false →
      c.name ∉ model.discovered → c ∈ model.registry.classes ∧ c.name ∉ model.settledNames :=
    fun c hc hl hn => ⟨mem_build_of_library h hc hl hn, not_mem_settledNames h hc hl hn⟩
  refine ⟨libraries, hlibraries, nodup_settledNames h, hperm, hstays, ?_⟩
  intro hmain
  have hlibrary := library_ofModules hmain
  constructor
  · rwa [declaredNames_of_library hlibrary, List.nil_append] at hperm
  · exact fun c hc => hstays c hc (hlibrary c hc)

end Model

section Desk

/-- A struct that is an object, and one that is none. -/
def deskText : String :=
  "package main\n\ntype Window struct \x7b\n\tQObject\n\x7d\n\n" ++
    "type Grid struct \x7b\n\trows int\n\x7d\n"

/-- A module with a class that is an object, and one that is none. -/
def panelText : String :=
  "\x7b\"classes\": [\x7b\"name\": \"Panel\", \"base\": \"QObject\"\x7d, " ++
    "\x7b\"name\": \"Shape\"\x7d]\x7d"

def deskConfig : Config :=
  { Config.empty with targetDir := "desk", libraryDir := some "modules" }

/-- The structs, with the module in a file of the given name. -/
def deskInputs (moduleFile : String) : Inputs where
  target := .ok [⟨"window.go", .ok deskText.toUTF8⟩]
  library := .ok [⟨moduleFile, .ok panelText.toUTF8⟩]

theorem settledNames_perm_desk : ∃ model,
    ClassModel.ofInputs deskConfig (deskInputs "panels.json") = .ok model ∧
    model.settledNames.Perm ["Window", "Grid"] ∧
    ∃ c ∈ model.registry.classes, c.name = "Shape" ∧ "Shape" ∉ model.settledNames := by
  have hrun : (ClassModel.ofInputs deskConfig (deskInputs "panels.json")).toOption.any fun model =>
      model.discovered = ["Window", "Grid"] := by decide +kernel
  have hlibraries : ((deskInputs "panels.json").libraries deskConfig).toOption.any fun ms =>
      (ms.all fun m => m.key ≠ mainModule) ∧
        ((ofModules ms).find? "Shape").isSome := by decide +kernel
  obtain ⟨model, hmodel, hdiscovered⟩ := exists_ok_of_any hrun
  obtain ⟨libraries, hok, -, -, -, hmain⟩ := ClassModel.settledNames_perm hmodel
  obtain ⟨ms, hms, hkeys⟩ := exists_ok_of_any hlibraries
  rw [hok] at hms
  cases hms
  obtain ⟨hkeys, hshape⟩ := of_decide_eq_true hkeys
  have hdiscovered := of_decide_eq_true hdiscovered
  obtain ⟨hperm, hstays⟩ := hmain fun m hm => of_decide_eq_true (List.all_eq_true.mp hkeys m hm)
  obtain ⟨c, hc⟩ := Option.isSome_iff_exists.mp hshape
  obtain ⟨hc, hname⟩ := find?_eq_some_iff.mp hc
  rw [hdiscovered] at hperm hstays
  obtain ⟨hmem, hnot⟩ := hstays c hc (hname ▸ by decide)
  exact ⟨model, hmodel, hperm, c, hmem, hname, hname ▸ hnot⟩

/-- A module called `main` is taken for the structs' own: one of its classes is bound, the other
dropped. -/
theorem settledNames_mainModule : ∃ model,
    ClassModel.ofInputs deskConfig (deskInputs "main.json") = .ok model ∧
    model.discovered = ["Window", "Grid"] ∧
    model.classes.map MetaClass.name = ["Panel", "Window"] ∧
    model.resolution.pruned = ["Shape", "Grid"] := by
  have hrun : (ClassModel.ofInputs deskConfig (deskInputs "main.json")).toOption.any fun model =>
      model.discovered = ["Window", "Grid"] ∧
      model.classes.map MetaClass.name = ["Panel", "Window"] ∧
      model.resolution.pruned = ["Shape", "Grid"] := by decide +kernel
  obtain ⟨model, hmodel, h⟩ := exists_ok_of_any hrun
  exact ⟨model, hmodel, of_decide_eq_true h⟩

end Desk

end SignalBridge
