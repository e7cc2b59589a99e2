import SignalBridge.Proofs.Run.SameInputs

/-!
A run that writes to none of the files that it reads repeats itself. Its artifacts are never among
them by name; but a link with the name of a source may lead to an artifact, and one with the name of
an artifact to a source (`links_matter`).
-/

namespace SignalBridge

section Repeating

variable {m : Machine} {config : Config} {d d' after after' : Disk} {outputs : List Output}
  {fs : List NamedFile} {isChosen : String → Bool} {directory path : String} {place : List String}
  {content : ByteArray} {plan : Plan}

/-- A place at which a run finds what it reads from a directory: an entry with a name of one kind,
or the place to which it leads. -/
def Disk.IsInput (d : Disk) (isChosen : String → Bool) (directory : String) (place : List String) :
    Prop :=
  ∃ folder name, d.locate directory = .ok folder ∧ isChosen name ∧
    (place = folder ++ [name] ∨
      name ∈ d.fileNames folder ∧ d.locate (joinPath directory name) = .ok place)

/-- The paths of the artifacts lead to no place at which a run finds what it reads. -/
def KeepsInputs (config : Config) (d : Disk) : Prop :=
  ∀ name ∈ ["moc.cpp", "moc.h", "moc.go"], ∀ place,
    d.locate (config.targetPath name) = .ok place →
      ¬ d.IsInput isSourceName config.targetDir place ∧
        ∀ directory, config.libraryDir = some directory → ¬ d.IsInput isModuleName directory place

theorem Wrote.isSome_node? (h : Wrote config d outputs after) (hs : (d.node? place).isSome) :
    (after.node? place).isSome := by
  induction h with
  | nil => exact hs
  | cons leads noFolder _ ih =>
    apply ih
    rw [Disk.node?_put leads noFolder]
    split
    · rfl
    · exact hs

theorem Wrote.read (h : Wrote config d outputs after) (hread : m.read d path = .ok content)
    (hp : ∀ o ∈ outputs, d.locate (config.targetPath o.name) ≠ d.locate path) :
    m.read after path = .ok content := by
  obtain ⟨place, hl, hf, hnode⟩ := Machine.read_eq_ok_iff.mp hread
  rw [hl] at hp
  exact Machine.read_eq_ok_iff.mpr ⟨place, h.ways.locate hl, hf, (h.others hp).trans hnode⟩

/-- What is written elsewhere does not change what a listing finds. -/
theorem Wrote.list (h : Wrote config d outputs after) (hlist : m.list d directory = .ok fs)
    (hread : ∀ f ∈ fs, isChosen f.name → ∃ content, f.content = .ok content)
    (hkeeps : ∀ o ∈ outputs, ∀ place, d.locate (config.targetPath o.name) = .ok place →
      ¬ d.IsInput isChosen directory place) :
    ∃ gs, m.list after directory = .ok gs ∧ SameFiles isChosen fs gs := by
  obtain ⟨folder, hfind, hcases⟩ := Machine.list_eq_ok_iff.mp hlist
  obtain ⟨hp, hs⟩ := Disk.find_eq_ok_iff.mp hfind
  have hafter : after.find directory = .ok folder :=
    Disk.find_eq_ok_iff.mpr ⟨h.ways.locate hp, h.isSome_node? hs⟩
  obtain ⟨hd, hfault, rfl⟩ | ⟨hd, rfl⟩ := hcases
  · refine ⟨_, Machine.list_eq_ok_iff.mpr ⟨folder, hafter,
      .inl ⟨(h.ways.folders folder).trans hd, hfault, rfl⟩⟩, ?_⟩
    have hnames {name : String} (hn : isChosen name) :
        name ∈ after.fileNames folder ↔ name ∈ d.fileNames folder := by
      rw [Disk.mem_fileNames_iff, Disk.mem_fileNames_iff, h.others fun o ho hl =>
        hkeeps o ho _ hl ⟨folder, name, hp, hn, .inl rfl⟩]
    have hcontent {name : String} (hn : isChosen name) (hmem : name ∈ d.fileNames folder) :
        m.read after (joinPath directory name) = m.read d (joinPath directory name) := by
      obtain ⟨content, hc⟩ : ∃ content, m.read d (joinPath directory name) = .ok content :=
        hread _ (List.mem_map_of_mem hmem) hn
      obtain ⟨place, hl, -, -⟩ := Machine.read_eq_ok_iff.mp hc
      have hinput : d.IsInput isChosen directory place := ⟨folder, name, hp, hn, .inr ⟨hmem, hl⟩⟩
      rw [hc]
      exact h.read hc fun o ho he => hkeeps o ho place (he.trans hl) hinput
    intro f hf
    simp only [List.mem_map]
    constructor
    · rintro ⟨name, hmem, rfl⟩
      exact ⟨name, (hnames hf).mpr hmem, by rw [hcontent hf hmem]⟩
    · rintro ⟨name, hmem, rfl⟩
      have hmem := (hnames hf).mp hmem
      exact ⟨name, hmem, by rw [hcontent hf hmem]⟩
  · have hd' := (h.ways.folders folder).trans hd
    exact ⟨[], Machine.list_eq_ok_iff.mpr ⟨folder, hafter, .inr ⟨hd', rfl⟩⟩, fun _ _ => Iff.rfl⟩

theorem writeAll_ok_of_sameWays (h : m.writeAll config outputs d = (.ok (), after))
    (hways : Disk.SameWays d d') : ∃ after', m.writeAll config outputs d' = (.ok (), after') := by
  induction outputs generalizing d d' with
  | nil => exact ⟨d', rfl⟩
  | cons o outputs ih =>
    unfold Machine.writeAll at h ⊢
    split at h
    · rename_i mid hm
      obtain ⟨place, hp, hf, hw, rfl⟩ := Machine.write_eq_ok_iff.mp hm
      have hf' := (hways.folders place).trans hf
      have hm' : m.write d' (config.targetPath o.name) o.text.toUTF8 =
          .ok (d'.put place (.file o.text.toUTF8)) :=
        Machine.write_eq_ok_iff.mpr ⟨place, hways.locate hp, hf', hw, rfl⟩
      rw [hm']
      exact ih h (((Disk.sameWays_put hp hf _).symm.trans hways).trans
        (Disk.sameWays_put (hways.locate hp) hf' _))
    · cases h

/-- The same outputs lead to the same disk, where the disks differ at their places only. -/
theorem Wrote.congr (h : Wrote config d outputs after) (h' : Wrote config d' outputs after')
    (hways : Disk.SameWays d d')
    (hsame : ∀ place, d'.node? place = d.node? place ∨
      ∃ o ∈ outputs, d.locate (config.targetPath o.name) = .ok place) (place : List String) :
    after'.node? place = after.node? place := by
  induction h generalizing d' with
  | nil =>
    cases h'
    exact (hsame place).elim id fun ⟨o, ho, _⟩ => absurd ho List.not_mem_nil
  | @cons d after o outputs p leads noFolder _ ih =>
    cases h' with
    | @cons _ _ _ _ p' leads' noFolder' rest' =>
      obtain rfl : p = p' := Except.ok.inj ((hways.locate leads).symm.trans leads')
      have hput := Disk.sameWays_put leads noFolder o.text.toUTF8
      refine ih rest' ((hput.symm.trans hways).trans (Disk.sameWays_put leads' noFolder' _)) ?_
      intro q
      rw [Disk.node?_put leads noFolder, Disk.node?_put leads' noFolder']
      by_cases hq : q = p
      · simp [hq]
      · rw [if_neg hq, if_neg hq]
        rcases hsame q with hn | ⟨o', ho, hl⟩
        · exact .inl hn
        · rcases List.mem_cons.mp ho with rfl | ho
          · exact absurd (Except.ok.inj (hl.symm.trans leads)) hq
          · exact .inr ⟨o', ho, hput.locate hl⟩

/-- Outputs that are written again change nothing. -/
theorem Wrote.again {again : Disk} (h : Wrote config d outputs after)
    (h' : Wrote config after outputs again) (place : List String) :
    again.node? place = after.node? place := by
  refine h.congr h' h.ways (fun place => ?_) place
  by_cases hp : ∃ o ∈ outputs, d.locate (config.targetPath o.name) = .ok place
  · exact .inr hp
  · exact .inl (h.others fun o ho hl => hp ⟨o, ho, hl⟩)

section Contents

variable {inputs : Inputs}

theorem exists_of_mapM_ok {α β : Type} {f : α → Except RunFault β} {xs : List α} {ys : List β}
    (h : xs.mapM f = .ok ys) {x : α} (hx : x ∈ xs) : ∃ y, f x = .ok y := by
  induction xs generalizing ys with
  | nil => cases hx
  | cons z xs ih =>
    rw [List.mapM_cons, bind_eq_ok_iff] at h
    obtain ⟨y, hy, h⟩ := h
    obtain ⟨ys, hys, -⟩ := bind_eq_ok_iff.mp h
    rcases List.mem_cons.mp hx with rfl | hx
    · exact ⟨y, hy⟩
    · exact ih hys hx

theorem content_of_readText {f : NamedFile} {text : String}
    (h : Inputs.readText path f = .ok text) : ∃ content, f.content = .ok content := by
  unfold Inputs.readText at h
  split at h
  · cases h
  · exact ⟨_, ‹_›⟩

/-- A run that scans its sources has read all of them. -/
theorem contents_of_scan {files : List ScannedFile} (h : inputs.scan config = .ok files) :
    ∃ fs, inputs.target = .ok fs ∧
      ∀ f ∈ fs, isSourceName f.name → ∃ content, f.content = .ok content := by
  unfold Inputs.scan at h
  split at h
  · cases h
  · rename_i fs htarget
    refine ⟨fs, htarget, fun f hf hn => ?_⟩
    obtain ⟨file, hfile⟩ := exists_of_mapM_ok h (mem_chosen.mpr ⟨hf, hn⟩)
    obtain ⟨text, ht, -⟩ := bind_eq_ok_iff.mp hfile
    exact content_of_readText ht

theorem contents_of_libraries {libraries : List LibraryModule}
    (h : inputs.libraries config = .ok libraries) (hdir : config.libraryDir = some directory) :
    ∃ fs, inputs.library = .ok fs ∧
      ∀ f ∈ fs, isModuleName f.name → ∃ content, f.content = .ok content := by
  obtain ⟨own, h, -⟩ := bind_eq_ok_iff.mp h
  rw [Inputs.ownModules, hdir] at h
  cases hlibrary : inputs.library with
  | error cause => simp [hlibrary] at h
  | ok fs =>
    simp only [hlibrary] at h
    refine ⟨fs, rfl, fun f hf hn => ?_⟩
    obtain ⟨module, hmodule⟩ := exists_of_mapM_ok h (mem_chosen.mpr ⟨hf, hn⟩)
    obtain ⟨text, ht, -⟩ := bind_eq_ok_iff.mp hmodule
    exact content_of_readText ht

end Contents

/-- After a run that ends well, what there is to read is the same. -/
theorem sameInputs_after {artifacts : Artifacts}
    (hp : Plan.ofInputs config (m.inputs d config) = .ok plan)
    (h : Wrote config d artifacts.outputs after) (hkeeps : KeepsInputs config d) :
    SameInputs config config (m.inputs d config) (m.inputs after config) := by
  obtain ⟨files, hscan, hm⟩ := bind_eq_ok_iff.mp (plan_cases hp).1
  obtain ⟨libraries, hlibraries, -⟩ := bind_eq_ok_iff.mp hm
  have hnames : ∀ o ∈ artifacts.outputs, o.name ∈ ["moc.cpp", "moc.h", "moc.go"] := by
    simp [artifacts.outputs_eq]
  constructor
  case target =>
    obtain ⟨fs, htarget, hread⟩ := contents_of_scan hscan
    obtain ⟨gs, hgs, hsame⟩ := h.list htarget hread fun o ho place hl =>
      (hkeeps o.name (hnames o ho) place hl).1
    exact ⟨fs, gs, htarget, hgs, hsame⟩
  case library =>
    cases hdir : config.libraryDir with
    | none =>
      simp only [Machine.inputs, hdir]
      exact .ok fun _ _ => Iff.rfl
    | some directory =>
      obtain ⟨fs, hlibrary, hread⟩ := contents_of_libraries hlibraries hdir
      simp only [Machine.inputs, hdir, Option.map_some, Option.getD_some] at hlibrary ⊢
      obtain ⟨gs, hgs, hsame⟩ := h.list hlibrary hread fun o ho place hl =>
        (hkeeps o.name (hnames o ho) place hl).2 directory hdir
      rw [hlibrary, hgs]
      exact .ok hsame
  all_goals rfl

/-- Where the tools are skipped, a run with something to write ends well if all of it is written. -/
theorem generate_eq_ok_iff {report : Report} (hmoc : config.skipMoc) (hfmt : config.skipFmt)
    (hp : Plan.ofInputs config (m.inputs d config) = .ok plan) (hne : plan.outputs ≠ []) :
    m.generate config d = (.ok report, after) ↔
      m.writeAll config plan.outputs d = (.ok (), after) ∧
        plan.model.report (plan.outputs.map fun o => config.targetPath o.name) none = report := by
  rw [Machine.generate, hp]
  simp only
  rw [Machine.carryOut, List.isEmpty_eq_false_iff.mpr hne]
  rcases m.writeAll config plan.outputs d with ⟨e | ⟨⟩, mid⟩
  · simp
  · simp only [runTools_skipped hmoc hfmt]
    constructor
    · intro h
      cases h
      exact ⟨rfl, rfl⟩
    · rintro ⟨h, rfl⟩
      cases h
      rfl

/-- A run that ended well repeats itself on the disk that it left. -/
theorem generate_again {report : Report} (hmoc : config.skipMoc) (hfmt : config.skipFmt)
    (h : m.generate config d = (.ok report, after)) (hkeeps : KeepsInputs config d) :
    ∃ again, m.generate config after = (.ok report, again) ∧
      ∀ place, again.node? place = after.node? place := by
  match hp : Plan.ofInputs config (m.inputs d config) with
  | .error e =>
    rw [Machine.generate, hp] at h
    cases h
  | .ok plan =>
    obtain ⟨-, hr⟩ | ⟨-, artifacts, -, ho, -⟩ := generate_cases hp
    · cases hr.symm.trans h
      exact ⟨d, h, fun _ => rfl⟩
    · have hne : plan.outputs ≠ [] := ho ▸ List.cons_ne_nil _ _
      obtain ⟨hw, hreport⟩ := (generate_eq_ok_iff hmoc hfmt hp hne).mp h
      have hwrote := wrote_of_writeAll_ok hw
      have hfits := fits_ofInputs (sameInputs_after hp (ho ▸ hwrote) hkeeps)
      rw [hp] at hfits
      generalize hp' : Plan.ofInputs config (m.inputs after config) = plan' at hfits
      cases hfits with
      | ok hsame =>
        subst hsame
        obtain ⟨again, hagain⟩ := writeAll_ok_of_sameWays hw hwrote.ways
        exact ⟨again, (generate_eq_ok_iff hmoc hfmt hp' hne).mpr ⟨hagain, hreport⟩,
          hwrote.again (wrote_of_writeAll_ok hagain)⟩

section Links

variable {folder : List String} {name : String}

/-- Where no entry of a kind is a link, a file with a name of another kind is no input. -/
theorem not_isInput_of_noLinks (hname : isChosen name = false)
    (hlinks : ∀ folder, d.locate directory = .ok folder → d.isFolder folder ∧
      ∀ entry ∈ d.fileNames folder, isChosen entry →
        Disk.IsEntryName entry ∧ d.target? (folder ++ [entry]) = none) :
    ¬ d.IsInput isChosen directory (folder ++ [name]) := by
  rintro ⟨directoryFolder, entry, hp, hentry, hplace⟩
  have hend : folder ++ [name] = directoryFolder ++ [entry] := by
    rcases hplace with hplace | ⟨hmem, hl⟩
    · exact hplace
    · obtain ⟨hd, hlinks⟩ := hlinks directoryFolder hp
      obtain ⟨hn, ht⟩ := hlinks entry hmem hentry
      exact Except.ok.inj (hl.symm.trans (Disk.locate_joinPath hn hp hd ht))
  obtain rfl : name = entry := by simpa using congrArg List.getLast? hend
  rw [hname] at hentry
  cases hentry

/-- Where there are no links among the files that are read and the artifacts, a run writes to none
of the files that it reads. -/
theorem keepsInputs_of_noLinks (hp : d.locate config.targetDir = .ok folder)
    (hd : d.isFolder folder)
    (hartifacts : ∀ name ∈ ["moc.cpp", "moc.h", "moc.go"], d.target? (folder ++ [name]) = none)
    (hsources : ∀ name ∈ d.fileNames folder, isSourceName name →
      Disk.IsEntryName name ∧ d.target? (folder ++ [name]) = none)
    (hmodules : ∀ directory, config.libraryDir = some directory →
      ∀ folder, d.locate directory = .ok folder → d.isFolder folder ∧
        ∀ name ∈ d.fileNames folder, isModuleName name →
          Disk.IsEntryName name ∧ d.target? (folder ++ [name]) = none) :
    KeepsInputs config d := by
  have hkinds : ∀ name ∈ ["moc.cpp", "moc.h", "moc.go"], Disk.IsEntryName name ∧
      isSourceName name = false ∧ isModuleName name = false := by decide
  intro name hn place hl
  obtain ⟨hentry, hsource, hmodule⟩ := hkinds name hn
  have hplace := Disk.locate_joinPath hentry hp hd (hartifacts name hn)
  obtain rfl : place = folder ++ [name] := Except.ok.inj (hl.symm.trans hplace)
  constructor
  · apply not_isInput_of_noLinks hsource
    intro folder' hp'
    obtain rfl : folder' = folder := Except.ok.inj (hp'.symm.trans hp)
    exact ⟨hd, hsources⟩
  · intro directory hdir
    exact not_isInput_of_noLinks hmodule (hmodules directory hdir)

end Links

end Repeating

section Runs

variable {c₁ c₂ : Config} {d₁ d₂ : Disk}

/-- Runs that are to read the same agree, whatever else their disks hold; and a run that ended well
and wrote to no place at which it finds what it reads, run again, reports the same and changes
nothing. -/
theorem generate_sameInputs (m₁ m₂ : Machine) (c₁ c₂ : Config) (d₁ d₂ : Disk)
    (h₁ : c₁.skipMoc ∧ c₁.skipFmt) (h₂ : c₂.skipMoc ∧ c₂.skipFmt) :
    (SameInputs c₁ c₂ (m₁.inputs d₁ c₁) (m₂.inputs d₂ c₂) →
      SameOutcome c₁ c₂ d₁ d₂ (m₁.generate c₁ d₁) (m₂.generate c₂ d₂)) ∧
    ∀ report after, m₁.generate c₁ d₁ = (.ok report, after) → KeepsInputs c₁ d₁ →
      ∃ again, m₁.generate c₁ after = (.ok report, again) ∧
        ∀ place, again.node? place = after.node? place :=
  ⟨sameOutcome h₁ h₂, fun _ _ => generate_again h₁.1 h₁.2⟩

/-- The same source file elsewhere, and what is left of an earlier run. -/
def towerDisk : Disk where
  nodes := [(["tower", "bell.go"], .file bellText.toUTF8),
    (["tower", "moc.go"], .file "package bells".toUTF8)]
  places_nodup := by decide

theorem sameInputs_bell :
    SameInputs (bellConfig "shop") (bellConfig "tower")
      (Machine.plain.inputs shopDisk (bellConfig "shop"))
      (Machine.plain.inputs towerDisk (bellConfig "tower")) where
  target := by
    refine ⟨[⟨"notes.txt", .ok "ring twice".toUTF8⟩, ⟨"bell.go", .ok bellText.toUTF8⟩,
      ⟨"todo", .ok "ring twice".toUTF8⟩],
      [⟨"bell.go", .ok bellText.toUTF8⟩, ⟨"moc.go", .ok "package bells".toUTF8⟩], rfl, rfl, ?_⟩
    intro f hf
    have hnotes : f ≠ ⟨"notes.txt", .ok "ring twice".toUTF8⟩ := by
      rintro rfl
      exact absurd hf (by decide)
    have htodo : f ≠ ⟨"todo", .ok "ring twice".toUTF8⟩ := by
      rintro rfl
      exact absurd hf (by decide)
    have hmoc : f ≠ ⟨"moc.go", .ok "package bells".toUTF8⟩ := by
      rintro rfl
      exact absurd hf (by decide)
    simp only [List.mem_cons, List.not_mem_nil, hnotes, htodo, hmoc, or_false, false_or]
  library := .ok fun _ _ => Iff.rfl
  libraryDir := rfl
  pkgConfig := rfl
  dryRun := rfl

theorem apart_bell :
    Apart (bellConfig "shop") shopDisk ∧ Apart (bellConfig "tower") towerDisk := by
  have hshop : ∀ name ∈ ["moc.cpp", "moc.h", "moc.go"],
      shopDisk.locate ((bellConfig "shop").targetPath name) = .ok ["shop", name] := by
    simp only [List.forall_mem_cons]
    exact ⟨rfl, rfl, rfl, fun _ h => absurd h List.not_mem_nil⟩
  have htower : ∀ name ∈ ["moc.cpp", "moc.h", "moc.go"],
      towerDisk.locate ((bellConfig "tower").targetPath name) = .ok ["tower", name] := by
    simp only [List.forall_mem_cons]
    exact ⟨rfl, rfl, rfl, fun _ h => absurd h List.not_mem_nil⟩
  constructor
  · simp [Apart, hshop]
  · simp [Apart, htower]

theorem keepsInputs_bell : KeepsInputs (bellConfig "shop") shopDisk := by
  have hshop : shopDisk.locate (bellConfig "shop").targetDir = .ok ["shop"] := rfl
  exact keepsInputs_of_noLinks hshop rfl (by decide) (by decide) fun _ h => by cases h

theorem generate_sameInputs_bell : ∃ r₁ a₁ r₂ a₂ again,
    Machine.plain.generate (bellConfig "shop") shopDisk = (.ok r₁, a₁) ∧
    Machine.plain.generate (bellConfig "tower") towerDisk = (.ok r₂, a₂) ∧
    r₁.written = ["shop/moc.cpp", "shop/moc.h", "shop/moc.go"] ∧
    SameReport (bellConfig "shop") (bellConfig "tower") shopDisk towerDisk a₁ a₂ r₁ r₂ ∧
    Apart (bellConfig "shop") shopDisk ∧ Apart (bellConfig "tower") towerDisk ∧
    Machine.plain.generate (bellConfig "shop") a₁ = (.ok r₁, again) ∧
    ∀ place, again.node? place = a₁.node? place := by
  have h₁ : (Machine.plain.generate (bellConfig "shop") shopDisk).1.toOption.any fun r =>
      r.written = ["shop/moc.cpp", "shop/moc.h", "shop/moc.go"] := by decide +kernel
  have h₂ : (Machine.plain.generate (bellConfig "tower") towerDisk).1.toOption.any fun _ =>
      true := by decide +kernel
  obtain ⟨r₁, he₁, hwritten⟩ := exists_ok_of_any h₁
  obtain ⟨r₂, he₂, -⟩ := exists_ok_of_any h₂
  have hr₁ : Machine.plain.generate (bellConfig "shop") shopDisk = (.ok r₁, _) := Prod.ext he₁ rfl
  have hr₂ : Machine.plain.generate (bellConfig "tower") towerDisk = (.ok r₂, _) :=
    Prod.ext he₂ rfl
  obtain ⟨hsame, hagain⟩ := generate_sameInputs Machine.plain Machine.plain (bellConfig "shop")
    (bellConfig "tower") shopDisk towerDisk ⟨rfl, rfl⟩ ⟨rfl, rfl⟩
  obtain ⟨again, hrun, hnodes⟩ := hagain r₁ _ hr₁ keepsInputs_bell
  have hsame := hsame sameInputs_bell
  rw [hr₁, hr₂] at hsame
  exact ⟨r₁, _, r₂, _, again, hr₁, hr₂, of_decide_eq_true hwritten, hsame, apart_bell.1,
    apart_bell.2, hrun, hnodes⟩

def gongText : String :=
  "package main\n\ntype Gong struct \x7b\n\tQObject\n\x7d\n"

/-- A folder without source files. -/
def cellarDisk : Disk where
  nodes := [(["shop", "notes.txt"], .file "ring twice".toUTF8)]
  places_nodup := by decide

/-- The same folder with a link to a source file elsewhere. -/
def atticDisk : Disk where
  nodes := [(["shop", "notes.txt"], .file "ring twice".toUTF8),
    (["shop", "gong.go"], .link "../attic/gong.go"), (["attic", "gong.go"], .file gongText.toUTF8)]
  places_nodup := by decide

/-- A link with the name of an artifact to a source file. -/
def echoDisk : Disk where
  nodes := [(["shop", "gong.go"], .file gongText.toUTF8), (["shop", "moc.h"], .link "gong.go")]
  places_nodup := by decide

/-- Links are read too, so it is not enough that directories have the same source files, nor does a
run that ended well always repeat itself. -/
theorem links_matter :
    ¬ (∀ (c : Config) (d₁ d₂ : Disk) (folder : List String), c.skipMoc → c.skipFmt →
        c.libraryDir = none → d₁.locate c.targetDir = .ok folder →
        d₂.locate c.targetDir = .ok folder →
        (∀ name content, isSourceName name →
          (d₁.node? (folder ++ [name]) = some (.file content) ↔
            d₂.node? (folder ++ [name]) = some (.file content))) →
        SameOutcome c c d₁ d₂ (generate c d₁) (generate c d₂)) ∧
      ¬ ∀ (c : Config) (d : Disk) (report : Report) (after : Disk), c.skipMoc → c.skipFmt →
        generate c d = (.ok report, after) → ∃ again, generate c after = (.ok report, again) := by
  constructor
  · intro h
    have hfiles : ∀ name content, isSourceName name →
        (cellarDisk.node? (["shop"] ++ [name]) = some (.file content) ↔
          atticDisk.node? (["shop"] ++ [name]) = some (.file content)) := by
      intro name content hn
      rw [Disk.node?_eq_some_iff (by simp), Disk.node?_eq_some_iff (by simp)]
      simp [cellarDisk, atticDisk]
    have hsame := h (bellConfig "shop") cellarDisk atticDisk ["shop"] rfl rfl rfl rfl rfl hfiles
    have hrun₁ : (generate (bellConfig "shop") cellarDisk).1.toOption.any fun r =>
        r.classes = [] := by decide +kernel
    have hrun₂ : (generate (bellConfig "shop") atticDisk).1.toOption.any fun r =>
        r.classes = ["Gong"] := by decide +kernel
    obtain ⟨r₁, he₁, hc₁⟩ := exists_ok_of_any hrun₁
    obtain ⟨r₂, he₂, hc₂⟩ := exists_ok_of_any hrun₂
    have hr₁ : generate (bellConfig "shop") cellarDisk = (.ok r₁, _) := Prod.ext he₁ rfl
    have hr₂ : generate (bellConfig "shop") atticDisk = (.ok r₂, _) := Prod.ext he₂ rfl
    rw [hr₁, hr₂] at hsame
    have hclasses := hsame.classes
    rw [of_decide_eq_true hc₁, of_decide_eq_true hc₂] at hclasses
    cases hclasses
  · intro h
    have hrun : (generate (bellConfig "shop") echoDisk).1.toOption.any fun r =>
        r.classes = ["Gong"] := by decide +kernel
    obtain ⟨r, he, hc⟩ := exists_ok_of_any hrun
    have hr : generate (bellConfig "shop") echoDisk = (.ok r, _) := Prod.ext he rfl
    obtain ⟨again, hagain⟩ := h (bellConfig "shop") echoDisk r _ rfl rfl hr
    have hsecond : (generate (bellConfig "shop")
        (generate (bellConfig "shop") echoDisk).2).1.toOption.any (fun r =>
          r.classes = ["Gong"]) = false := by decide +kernel
    rw [hagain] at hsecond
    simp [Except.toOption, of_decide_eq_true hc] at hsecond

end Runs

end SignalBridge
