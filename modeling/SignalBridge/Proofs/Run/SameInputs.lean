import SignalBridge.Proofs.Run.Writing
import SignalBridge.Proofs.Source.Alike

namespace SignalBridge

open List (Forall₂)
open Source (Fits)

section Reading

/-- The lists hold the same files, as far as the names are of one kind. -/
def SameFiles (isChosen : String → Bool) (fs gs : List NamedFile) : Prop :=
  ∀ f, isChosen f.name → (f ∈ fs ↔ f ∈ gs)

/-- Two runs are to read the same, and to do the same with it. A file that is not read is the same
if the system gives the same reason. -/
structure SameInputs (c₁ c₂ : Config) (i₁ i₂ : Inputs) : Prop where
  target : ∃ fs gs, i₁.target = .ok fs ∧ i₂.target = .ok gs ∧ SameFiles isSourceName fs gs
  library : Fits Eq (SameFiles isModuleName) i₁.library i₂.library
  libraryDir : c₁.libraryDir.isSome = c₂.libraryDir.isSome
  pkgConfig : c₁.pkgConfig = c₂.pkgConfig
  dryRun : c₁.dryRun = c₂.dryRun

/-- The same fault before anything is written, up to the paths of the directories. -/
inductive SameFault (c₁ c₂ : Config) : RunFault → RunFault → Prop where
  | sourceNotText (name : String) (cause : ReadFault) :
      SameFault c₁ c₂ (.notText ⟨c₁.targetPath name, cause⟩) (.notText ⟨c₂.targetPath name, cause⟩)
  | notScanned (name : String) (cause : Source.ScanError) :
      SameFault c₁ c₂ (.notScanned (c₁.targetPath name) cause)
        (.notScanned (c₂.targetPath name) cause)
  | libraryNotListed {l₁ l₂ : String} (h₁ : c₁.libraryDir = some l₁)
      (h₂ : c₂.libraryDir = some l₂) (cause : SystemFault) :
      SameFault c₁ c₂ (.notListed l₁ cause) (.notListed l₂ cause)
  | moduleNotText {l₁ l₂ : String} (h₁ : c₁.libraryDir = some l₁)
      (h₂ : c₂.libraryDir = some l₂) (name : String) (cause : ReadFault) :
      SameFault c₁ c₂ (.notText ⟨joinPath l₁ name, cause⟩) (.notText ⟨joinPath l₂ name, cause⟩)
  | badLibrary (moduleName : String) :
      SameFault c₁ c₂ (.badLibrary moduleName) (.badLibrary moduleName)
  | duplicate (className : String) : SameFault c₁ c₂ (.duplicate className) (.duplicate className)
  | noBase (cause : NoBase) : SameFault c₁ c₂ (.noBase cause) (.noBase cause)

variable {m m₁ m₂ : Machine} {c₁ c₂ : Config} {d d₁ d₂ : Disk} {fs gs : List NamedFile}
  {isChosen : String → Bool} {path : String}

theorem pairwise_chosen (isChosen : String → Bool) (fs : List NamedFile) :
    (Inputs.chosen isChosen fs).Pairwise fun f g => f.name ≤ g.name := by
  let le (f g : NamedFile) : Bool := decide (f.name ≤ g.name)
  have htrans (f g k : NamedFile) (hfg : le f g) (hgk : le g k) : le f k :=
    decide_eq_true (String.le_trans (of_decide_eq_true hfg) (of_decide_eq_true hgk))
  have htotal (f g : NamedFile) : le f g || le g f := by
    simpa [le] using String.le_total f.name g.name
  exact (List.pairwise_mergeSort htrans htotal _).imp of_decide_eq_true

theorem mem_chosen {f : NamedFile} :
    f ∈ Inputs.chosen isChosen fs ↔ f ∈ fs ∧ isChosen f.name := by
  rw [Inputs.chosen, List.mem_mergeSort, List.mem_filter]

theorem nodup_chosen (h : (fs.map NamedFile.name).Nodup) :
    (Inputs.chosen isChosen fs).Nodup :=
  (List.mergeSort_perm _ _).nodup_iff.mpr ((List.Nodup.of_map _ h).filter _)

/-- Names differ, so the order of the names decides where each file stands. -/
theorem chosen_eq (hf : (fs.map NamedFile.name).Nodup) (hg : (gs.map NamedFile.name).Nodup)
    (h : SameFiles isChosen fs gs) :
    Inputs.chosen isChosen fs = Inputs.chosen isChosen gs := by
  have hp : (Inputs.chosen isChosen fs).Perm (Inputs.chosen isChosen gs) := by
    refine (List.perm_ext_iff_of_nodup (nodup_chosen hf) (nodup_chosen hg)).mpr fun f => ?_
    rw [mem_chosen, mem_chosen]
    exact and_congr_left (h f)
  refine hp.eq_of_pairwise ?_ (pairwise_chosen isChosen fs) (pairwise_chosen isChosen gs)
  intro f g hmf hmg hfg hgf
  have hg' : g ∈ fs := (mem_chosen.mp (hp.mem_iff.mpr hmg)).1
  exact List.inj_on_of_nodup_map hf (mem_chosen.mp hmf).1 hg' (String.le_antisymm hfg hgf)

theorem fits_readText {path₁ path₂ : String} (h : ∀ cause,
    SameFault c₁ c₂ (.notText ⟨path₁, cause⟩) (.notText ⟨path₂, cause⟩)) (f : NamedFile) :
    Fits (SameFault c₁ c₂) Eq (Inputs.readText path₁ f) (Inputs.readText path₂ f) := by
  unfold Inputs.readText
  cases f.content with
  | error cause => exact .error (h _)
  | ok content =>
    cases ht : String.fromUTF8? content with
    | none =>
      simp only [ht]
      exact .error (h _)
    | some text =>
      simp only [ht]
      exact .ok rfl

theorem fits_scanFile (c₁ c₂ : Config) (f : NamedFile) :
    Fits (SameFault c₁ c₂) (fun a b => a.source = b.source) (Inputs.scanFile c₁ f)
      (Inputs.scanFile c₂ f) := by
  refine (fits_readText (.sourceNotText f.name) f).bind ?_
  rintro text _ - rfl
  cases Source.scan text with
  | ok source => exact .ok rfl
  | error cause => exact .error (.notScanned f.name cause)

theorem fits_readModule {l₁ l₂ : String} (h₁ : c₁.libraryDir = some l₁)
    (h₂ : c₂.libraryDir = some l₂) (f : NamedFile) :
    Fits (SameFault c₁ c₂) Eq (Inputs.readModule l₁ f) (Inputs.readModule l₂ f) := by
  refine (fits_readText (.moduleNotText h₁ h₂ f.name) f).bind ?_
  rintro text _ - rfl
  cases LibraryModule.ofText? text with
  | some m => exact .ok rfl
  | none => exact .error (.badLibrary _)

section Runs

variable (h : SameInputs c₁ c₂ (m₁.inputs d₁ c₁) (m₂.inputs d₂ c₂))

include h

theorem fits_scan :
    Fits (SameFault c₁ c₂) (Forall₂ fun a b => a.source = b.source)
      ((m₁.inputs d₁ c₁).scan c₁) ((m₂.inputs d₂ c₂).scan c₂) := by
  obtain ⟨fs, gs, h₁, h₂, hf⟩ := h.target
  unfold Inputs.scan
  rw [h₁, h₂]
  simp only [chosen_eq (Machine.nodup_list h₁) (Machine.nodup_list h₂) hf]
  exact Fits.mapM (fits_scanFile c₁ c₂) _

theorem fits_ownModules :
    Fits (SameFault c₁ c₂) Eq (Inputs.ownModules c₁ (m₁.inputs d₁ c₁))
      (Inputs.ownModules c₂ (m₂.inputs d₂ c₂)) := by
  have hdir := h.libraryDir
  have hl := h.library
  unfold Inputs.ownModules
  cases h₁ : c₁.libraryDir with
  | none =>
    cases h₂ : c₂.libraryDir with
    | none => exact .ok rfl
    | some l₂ => simp [h₁, h₂] at hdir
  | some l₁ =>
    cases h₂ : c₂.libraryDir with
    | none => simp [h₁, h₂] at hdir
    | some l₂ =>
      simp only [Machine.inputs, h₁, h₂, Option.map_some, Option.getD_some] at hl ⊢
      generalize hs : m₁.list d₁ l₁ = fs, ht : m₂.list d₂ l₂ = gs at hl
      cases hl with
      | error he => exact .error (he ▸ .libraryNotListed h₁ h₂ _)
      | @ok fs gs hf =>
        have hm := Fits.mapM (fits_readModule h₁ h₂) (Inputs.chosen isModuleName gs)
        rw [List.forall₂_eq_eq_eq] at hm
        simpa only [chosen_eq (Machine.nodup_list hs) (Machine.nodup_list ht) hf] using hm

theorem fits_libraries :
    Fits (SameFault c₁ c₂) Eq ((m₁.inputs d₁ c₁).libraries c₁) ((m₂.inputs d₂ c₂).libraries c₂) :=
  (fits_ownModules h).bind fun _ _ _ he => .ok (he ▸ rfl)

end Runs

/-- Where a file lies is of no matter to the classes. -/
theorem build_sources (libraries : List LibraryModule) {as bs : List ScannedFile}
    (h : Forall₂ (fun a b => a.source = b.source) as bs) :
    ClassModel.build libraries as = ClassModel.build libraries bs := by
  have hs : as.map ScannedFile.source = bs.map ScannedFile.source := by
    induction h with
    | nil => rfl
    | cons ha _ ih => rw [List.map_cons, List.map_cons, ha, ih]
  have hp : ClassModel.packageOf as = ClassModel.packageOf bs := by
    have hm := congrArg (List.filterMap Source.SourceFile.package) hs
    rw [List.filterMap_map, List.filterMap_map] at hm
    exact congrArg (List.headD · "main") hm
  rw [ClassModel.build, ClassModel.build, hs, hp]

theorem fits_ofInputs (h : SameInputs c₁ c₂ (m₁.inputs d₁ c₁) (m₂.inputs d₂ c₂)) :
    Fits (SameFault c₁ c₂) Eq (Plan.ofInputs c₁ (m₁.inputs d₁ c₁))
      (Plan.ofInputs c₂ (m₂.inputs d₂ c₂)) := by
  have hm : Fits (SameFault c₁ c₂) Eq (ClassModel.ofInputs c₁ (m₁.inputs d₁ c₁))
      (ClassModel.ofInputs c₂ (m₂.inputs d₂ c₂)) := by
    refine (fits_scan h).bind fun as bs _ hsources => ?_
    refine (fits_libraries h).bind ?_
    rintro libraries _ - rfl
    rw [build_sources libraries hsources]
    unfold ClassModel.build
    split
    · exact .error (.duplicate _)
    · exact .ok rfl
  refine hm.bind ?_
  rintro model _ - rfl
  have hpackages : c₁.packages = c₂.packages := by
    rw [Config.packages, Config.packages, h.pkgConfig]
  rw [hpackages, h.dryRun]
  split
  · exact .ok rfl
  · split
    · exact .error (.noBase _)
    · exact .ok rfl

end Reading

section Agreeing

variable {m m₁ m₂ : Machine} {c₁ c₂ config : Config} {d d₁ d₂ after : Disk}

/-- The paths of the three artifacts lead to three places. -/
def Apart (config : Config) (d : Disk) : Prop :=
  (["moc.cpp", "moc.h", "moc.go"].map fun name => d.locate (config.targetPath name)).Nodup

/-- Reports that say the same; the artifacts that they list as written are the same, where none
takes the place of another. -/
structure SameReport (c₁ c₂ : Config) (d₁ d₂ a₁ a₂ : Disk) (r₁ r₂ : Report) : Prop where
  classes : r₁.classes = r₂.classes
  pruned : r₁.pruned = r₂.pruned
  unmapped : r₁.unmapped = r₂.unmapped
  mocOutput : r₁.mocOutput = r₂.mocOutput
  written : ∃ names : List String, r₁.written = names.map c₁.targetPath ∧
    r₂.written = names.map c₂.targetPath ∧
    (Apart c₁ d₁ → Apart c₂ d₂ → ∀ name ∈ names, ∃ text,
      a₁.text? (c₁.targetPath name) = some text ∧ a₂.text? (c₂.targetPath name) = some text)

/-- Runs that agree: neither fails before it writes or both do, in the same way, and if both end
well their reports say the same. -/
def SameOutcome (c₁ c₂ : Config) (d₁ d₂ : Disk) :
    Except RunFault Report × Disk → Except RunFault Report × Disk → Prop
  | (.ok r₁, a₁), (.ok r₂, a₂) => SameReport c₁ c₂ d₁ d₂ a₁ a₂ r₁ r₂
  | (.error e₁, _), (.error e₂, _) =>
    e₁.precedesWriting = e₂.precedesWriting ∧ (e₁.precedesWriting → SameFault c₁ c₂ e₁ e₂)
  | (.ok _, _), (.error e, _) => e.precedesWriting = false
  | (.error e, _), (.ok _, _) => e.precedesWriting = false

theorem runTools_skipped (hmoc : config.skipMoc) (hfmt : config.skipFmt) :
    m.runTools d config = (.ok none, d) := by
  rw [runTools_skipFmt hfmt, if_pos hmoc]

theorem sameOutcome (h₁ : c₁.skipMoc ∧ c₁.skipFmt) (h₂ : c₂.skipMoc ∧ c₂.skipFmt)
    (h : SameInputs c₁ c₂ (m₁.inputs d₁ c₁) (m₂.inputs d₂ c₂)) :
    SameOutcome c₁ c₂ d₁ d₂ (m₁.generate c₁ d₁) (m₂.generate c₂ d₂) := by
  generalize hp₁ : Plan.ofInputs c₁ (m₁.inputs d₁ c₁) = p₁,
    hp₂ : Plan.ofInputs c₂ (m₂.inputs d₂ c₂) = p₂
  have hfits := fits_ofInputs h
  rw [hp₁, hp₂] at hfits
  cases hfits with
  | error hsame =>
    rw [Machine.generate, Machine.generate, hp₁, hp₂]
    exact ⟨(precedesWriting_ofInputs hp₁).trans (precedesWriting_ofInputs hp₂).symm, fun _ => hsame⟩
  | @ok plan _ hsame =>
    subst hsame
    obtain ⟨hn₁, hr₁⟩ | ⟨hs₁, a₁, -, ho₁, hr₁⟩ := generate_cases hp₁ <;>
    obtain ⟨hn₂, hr₂⟩ | ⟨hs₂, a₂, -, ho₂, hr₂⟩ := generate_cases hp₂
    · rw [hr₁, hr₂]
      exact ⟨rfl, rfl, rfl, rfl, [], rfl, rfl, fun _ _ _ h => absurd h List.not_mem_nil⟩
    · exact absurd (h.dryRun ▸ hn₁) hs₂
    · exact absurd (h.dryRun ▸ hn₂) hs₁
    · generalize m₁.generate c₁ d₁ = o₁, m₂.generate c₂ d₂ = o₂ at hr₁ hr₂
      cases hr₁ with
      | done wrote₁ works₁ =>
        cases hr₂ with
        | done wrote₂ works₂ =>
          rw [runTools_skipped h₁.1 h₁.2] at works₁
          rw [runTools_skipped h₂.1 h₂.2] at works₂
          cases works₁
          cases works₂
          refine ⟨rfl, rfl, rfl, rfl, plan.outputs.map Output.name, List.map_map.symm,
            List.map_map.symm, ?_⟩
          intro hapart₁ hapart₂ name hname
          obtain ⟨o, ho, rfl⟩ := List.mem_map.mp hname
          have htext₁ := wrote₁.holds.text? (by rw [ho₁]; exact hapart₁) ho
          have htext₂ := wrote₂.holds.text? (by rw [ho₁]; exact hapart₂) ho
          exact ⟨o.text, htext₁, htext₂⟩
        | _ => rfl
      | _ =>
        cases hr₂ with
        | done _ _ => rfl
        | _ => exact ⟨rfl, fun h => absurd h Bool.false_ne_true⟩

end Agreeing

end SignalBridge
