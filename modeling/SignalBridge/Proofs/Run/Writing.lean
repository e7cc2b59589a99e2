import SignalBridge.Proofs.Disk.Access
import SignalBridge.Run.Generate

namespace SignalBridge

section Writing

variable {m : Machine} {config : Config} {d after : Disk} {place : List String}
  {outputs before later : List Output} {o : Output} {e : RunFault}

/-- The outputs written in turn, each where its path leads. -/
inductive Wrote (config : Config) : Disk → List Output → Disk → Prop where
  | nil {d : Disk} : Wrote config d [] d
  | cons {d after : Disk} {o : Output} {outputs : List Output} {place : List String}
      (leads : d.locate (config.targetPath o.name) = .ok place)
      (noFolder : d.isFolder place = false)
      (rest : Wrote config (d.put place (.file o.text.toUTF8)) outputs after) :
      Wrote config d (o :: outputs) after

theorem Wrote.ways (h : Wrote config d outputs after) : Disk.SameWays d after := by
  induction h with
  | nil => exact .refl _
  | cons leads noFolder _ ih => exact (Disk.sameWays_put leads noFolder _).trans ih

theorem Wrote.others (h : Wrote config d outputs after)
    (hp : ∀ o ∈ outputs, d.locate (config.targetPath o.name) ≠ .ok place) :
    after.node? place = d.node? place := by
  induction h with
  | nil => rfl
  | @cons d after o outputs place leads noFolder _ ih =>
    rw [List.forall_mem_cons] at hp
    have hways := Disk.sameWays_put leads noFolder o.text.toUTF8
    rw [ih fun p hmem hl => hp.2 p hmem (hways.symm.locate hl), Disk.node?_put leads noFolder]
    rw [if_neg]
    rintro rfl
    exact hp.1 leads

theorem Wrote.located (h : Wrote config d outputs after) (ho : o ∈ outputs) :
    ∃ place, d.locate (config.targetPath o.name) = .ok place ∧ d.isFolder place = false := by
  induction h with
  | nil => cases ho
  | @cons d after p outputs place leads noFolder _ ih =>
    rcases List.mem_cons.mp ho with rfl | ho
    · exact ⟨_, leads, noFolder⟩
    · obtain ⟨place, hp, hf⟩ := ih ho
      have hways := Disk.sameWays_put leads noFolder p.text.toUTF8
      exact ⟨place, hways.symm.locate hp, (hways.folders place).symm.trans hf⟩

/-- At the place of an output is its text, unless a later output has the same place. -/
theorem Wrote.file (h : Wrote config d (before ++ o :: later) after)
    (hp : d.locate (config.targetPath o.name) = .ok place)
    (hlater : ∀ p ∈ later, d.locate (config.targetPath p.name) ≠ .ok place) :
    after.node? place = some (.file o.text.toUTF8) := by
  induction before generalizing d with
  | nil =>
    cases h with
    | cons leads noFolder rest =>
      have hways := Disk.sameWays_put leads noFolder o.text.toUTF8
      obtain rfl := Except.ok.inj (leads.symm.trans hp)
      rw [rest.others fun p hmem hl => hlater p hmem (hways.symm.locate hl),
        Disk.node?_put leads noFolder, if_pos rfl]
  | cons b before ih =>
    cases h with
    | cons leads noFolder rest =>
      have hways := Disk.sameWays_put leads noFolder b.text.toUTF8
      exact ih rest (hways.locate hp) fun p hmem hl => hlater p hmem (hways.symm.locate hl)

theorem wrote_of_writeAll_ok (h : m.writeAll config outputs d = (.ok (), after)) :
    Wrote config d outputs after := by
  induction outputs generalizing d with
  | nil =>
    cases h
    exact .nil
  | cons o outputs ih =>
    unfold Machine.writeAll at h
    split at h
    · rename_i mid hm
      obtain ⟨place, hp, hf, -, rfl⟩ := Machine.write_eq_ok_iff.mp hm
      exact .cons hp hf (ih h)
    · cases h

/-- Files are written in turn, up to the first that cannot be. -/
theorem wrote_of_writeAll_error (h : m.writeAll config outputs d = (.error e, after)) :
    ∃ written o waiting cause, outputs = written ++ o :: waiting ∧
      e = .notWritten (config.targetPath o.name) cause ∧ Wrote config d written after := by
  induction outputs generalizing d with
  | nil => cases h
  | cons o outputs ih =>
    unfold Machine.writeAll at h
    split at h
    · rename_i mid hm
      obtain ⟨place, hp, hf, -, rfl⟩ := Machine.write_eq_ok_iff.mp hm
      obtain ⟨written, p, waiting, cause, rfl, he, hw⟩ := ih h
      exact ⟨o :: written, p, waiting, cause, rfl, he, .cons hp hf hw⟩
    · rename_i cause _
      cases h
      exact ⟨[], o, outputs, cause, rfl, rfl, .nil⟩

end Writing

section Planning

variable {config : Config} {inputs : Inputs} {plan : Plan} {e : RunFault}

/-- The faults that end a run before anything is written. -/
def RunFault.precedesWriting : RunFault → Bool
  | .notWritten .. | .tool _ => false
  | _ => true

theorem error_of_mapM {α β : Type} {f : α → Except RunFault β} {xs : List α}
    (h : xs.mapM f = .error e) : ∃ x ∈ xs, f x = .error e := by
  induction xs with
  | nil => cases h
  | cons x xs ih =>
    rw [List.mapM_cons, bind_eq_error_iff] at h
    rcases h with h | ⟨y, -, h⟩
    · exact ⟨x, List.mem_cons_self, h⟩
    · rw [bind_eq_error_iff] at h
      rcases h with h | ⟨ys, -, h⟩
      · obtain ⟨z, hz, he⟩ := ih h
        exact ⟨z, List.mem_cons_of_mem x hz, he⟩
      · cases h

theorem kind_readText {path : String} {f : NamedFile}
    (h : Inputs.readText path f = .error e) : e.kind = .input := by
  unfold Inputs.readText at h
  split at h
  · cases h
    rfl
  · split at h <;> cases h
    rfl

theorem kind_scan (h : inputs.scan config = .error e) : e.kind = .input := by
  unfold Inputs.scan at h
  split at h
  · cases h
    rfl
  · obtain ⟨f, -, hf⟩ := error_of_mapM h
    unfold Inputs.scanFile at hf
    rcases bind_eq_error_iff.mp hf with ht | ⟨text, -, hs⟩
    · exact kind_readText ht
    · split at hs <;> cases hs
      rfl

theorem kind_libraries (h : inputs.libraries config = .error e) : e.kind = .input := by
  rcases bind_eq_error_iff.mp h with h | ⟨own, -, h⟩
  · unfold Inputs.ownModules at h
    split at h
    · cases h
    · cases h
      rfl
    · obtain ⟨f, -, hf⟩ := error_of_mapM h
      rcases bind_eq_error_iff.mp hf with ht | ⟨text, -, hm⟩
      · exact kind_readText ht
      · split at hm <;> cases hm
        rfl
  · cases h

/-- Reading and building fail for what is read and for the classes. -/
theorem kind_ofInputs (h : ClassModel.ofInputs config inputs = .error e) :
    e.kind = .input ∨ e.kind = .model := by
  rcases bind_eq_error_iff.mp h with h | ⟨files, -, h⟩
  · exact .inl (kind_scan h)
  · rcases bind_eq_error_iff.mp h with h | ⟨libraries, -, h⟩
    · exact .inl (kind_libraries h)
    · unfold ClassModel.build at h
      split at h <;> cases h
      exact .inr rfl

theorem precedesWriting_ofInputs (h : Plan.ofInputs config inputs = .error e) :
    e.precedesWriting := by
  rcases bind_eq_error_iff.mp h with h | ⟨model, -, h⟩
  · have hkind := kind_ofInputs h
    cases e <;> first | rfl | simp [RunFault.kind] at hkind
  · split at h
    · cases h
    · split at h <;> cases h
      rfl

/-- A plan has nothing to write, or all three artifacts. -/
theorem plan_cases (h : Plan.ofInputs config inputs = .ok plan) :
    ClassModel.ofInputs config inputs = .ok plan.model ∧
      ((config.dryRun ∨ plan.model.discovered = []) ∧ plan.outputs = [] ∨
        ¬(config.dryRun ∨ plan.model.discovered = []) ∧ ∃ artifacts,
          plan.model.registry.emit plan.model.package config.packages = .ok artifacts ∧
          plan.outputs = artifacts.outputs) := by
  obtain ⟨model, hm, h⟩ := bind_eq_ok_iff.mp h
  split at h
  · rename_i hd
    cases h
    exact ⟨hm, .inl ⟨.inr (List.isEmpty_iff.mp hd), rfl⟩⟩
  · rename_i hd
    split at h
    · cases h
    · rename_i artifacts ha
      cases h
      refine ⟨hm, ?_⟩
      by_cases hdry : config.dryRun
      · exact .inl ⟨.inl hdry, if_pos hdry⟩
      · have hne : model.discovered ≠ [] := fun hnil => hd (List.isEmpty_iff.mpr hnil)
        exact .inr ⟨not_or.mpr ⟨hdry, hne⟩, artifacts, ha, if_neg hdry⟩

end Planning

section Leaving

variable {m : Machine} {config : Config} {d after : Disk} {place : List String}
  {outputs : List Output} {plan : Plan} {artifacts : Artifacts}

/-- The disk `after` differs from `d` in that the paths of the outputs lead to their texts. -/
structure Holds (config : Config) (d : Disk) (outputs : List Output) (after : Disk) : Prop where
  /-- Every path leads where it led. -/
  paths : ∀ path place, after.locate path = .ok place ↔ d.locate path = .ok place
  /-- A path leads to the text of its output, or of a later one with the same place. -/
  texts : ∀ before o later, outputs = before ++ o :: later →
    (∀ p ∈ later, d.locate (config.targetPath p.name) ≠ d.locate (config.targetPath o.name)) →
      after.text? (config.targetPath o.name) = some o.text
  /-- Where none of the paths leads, nothing has changed. -/
  others : ∀ place, (∀ o ∈ outputs, d.locate (config.targetPath o.name) ≠ .ok place) →
    after.node? place = d.node? place

theorem fromUTF8?_toUTF8 (text : String) : String.fromUTF8? text.toUTF8 = some text := by
  exact dif_pos text.isValidUTF8

theorem Wrote.holds (h : Wrote config d outputs after) : Holds config d outputs after where
  paths _ _ := h.ways.locate_iff
  texts before o later hsplit hlater := by
    subst hsplit
    obtain ⟨place, hp, -⟩ := h.located (List.mem_append_right before List.mem_cons_self)
    have hnode := h.file hp fun p hmem hl => hlater p hmem (hl.trans hp.symm)
    simp only [Disk.text?, h.ways.locate hp, Except.toOption, Option.bind_some, hnode]
    exact fromUTF8?_toUTF8 o.text
  others _ hp := h.others hp

/-- Where the paths of the outputs lead to different places, each leads to its text. -/
theorem Holds.text? {o : Output} (h : Holds config d outputs after)
    (hapart : (outputs.map fun o => d.locate (config.targetPath o.name)).Nodup) (ho : o ∈ outputs) :
    after.text? (config.targetPath o.name) = some o.text := by
  obtain ⟨before, later, rfl⟩ := List.append_of_mem ho
  rw [List.map_append, List.nodup_append, List.map_cons, List.nodup_cons] at hapart
  exact h.texts before o later rfl fun p hp he => hapart.2.1.1 (he ▸ List.mem_map_of_mem hp)

/-- How carrying out a plan ends: at the first file that cannot be written, or else with all files
written, at the first tool that fails or at the end. -/
inductive Carried (m : Machine) (config : Config) (d : Disk) (plan : Plan) :
    Except RunFault Report × Disk → Prop where
  | notWritten {written waiting : List Output} {o : Output} {cause : SystemFault} {after : Disk}
      (split : plan.outputs = written ++ o :: waiting) (wrote : Wrote config d written after) :
      Carried m config d plan (.error (.notWritten (config.targetPath o.name) cause), after)
  | tool {e : ToolFault} {mid after : Disk} (wrote : Wrote config d plan.outputs mid)
      (fails : m.runTools mid config = (.error e, after)) :
      Carried m config d plan (.error (.tool e), after)
  | done {output : Option String} {mid after : Disk} (wrote : Wrote config d plan.outputs mid)
      (works : m.runTools mid config = (.ok output, after)) :
      Carried m config d plan
        (.ok (plan.model.report (plan.outputs.map fun o => config.targetPath o.name) output), after)

theorem carried (hne : plan.outputs ≠ []) : Carried m config d plan (m.carryOut config plan d) := by
  rw [Machine.carryOut, List.isEmpty_eq_false_iff.mpr hne]
  match hw : m.writeAll config plan.outputs d with
  | (.error e, after) =>
    obtain ⟨written, o, waiting, cause, hsplit, rfl, hwrote⟩ := wrote_of_writeAll_error hw
    exact .notWritten hsplit hwrote
  | (.ok (), mid) =>
    have hwrote := wrote_of_writeAll_ok hw
    match ht : m.runTools mid config with
    | (.error e, after) => simpa [ht] using Carried.tool hwrote ht
    | (.ok output, after) => simpa [ht] using Carried.done hwrote ht

theorem Artifacts.outputs_eq (a : Artifacts) :
    a.outputs = [⟨"moc.cpp", a.source⟩, ⟨"moc.h", a.header⟩, ⟨"moc.go", a.glue⟩] :=
  rfl

/-- The artifacts that a run over a disk is to write. -/
def Emitted (m : Machine) (config : Config) (d : Disk) (artifacts : Artifacts) : Prop :=
  ∃ model, ClassModel.ofInputs config (m.inputs d config) = .ok model ∧ model.discovered ≠ [] ∧
    model.registry.emit model.package config.packages = .ok artifacts

/-- A plan without outputs ends a run at once; with outputs, they are the artifacts. -/
theorem generate_cases (h : Plan.ofInputs config (m.inputs d config) = .ok plan) :
    (config.dryRun ∨ plan.model.discovered = []) ∧
      m.generate config d = (.ok (plan.model.report [] none), d) ∨
    ¬(config.dryRun ∨ plan.model.discovered = []) ∧ ∃ artifacts, Emitted m config d artifacts ∧
      plan.outputs = artifacts.outputs ∧ Carried m config d plan (m.generate config d) := by
  rw [Machine.generate, h]
  obtain ⟨hm, ⟨hnone, ho⟩ | ⟨hsome, artifacts, ha, ho⟩⟩ := plan_cases h
  · refine .inl ⟨hnone, ?_⟩
    simp [Machine.carryOut, ho]
  · exact .inr ⟨hsome, artifacts, ⟨plan.model, hm, (not_or.mp hsome).2, ha⟩, ho,
      carried (ho ▸ List.cons_ne_nil _ _)⟩

theorem runTools_skipFmt (h : config.skipFmt) : m.runTools d config =
    if config.skipMoc then (.ok none, d)
    else ((m.runMoc d config).1.map some, (m.runMoc d config).2) := by
  unfold Machine.runTools
  cases config.skipMoc with
  | true => simp [h]
  | false => cases hr : (m.runMoc d config).1 <;> simp [h, hr, Except.map]

/-- How a run leaves the disk where the compiler is skipped or fails and the formatter is skipped.
The disk is as it was after a fault before the first file is written, after a dry run and where no
struct was found. Where an artifact could not be written, those before it are on the disk, and
otherwise all are. -/
def Leaves (m : Machine) (config : Config) (d : Disk) : Except RunFault Report × Disk → Prop
  | (.ok report, after) =>
    ∃ model, ClassModel.ofInputs config (m.inputs d config) = .ok model ∧
      if config.dryRun ∨ model.discovered = [] then report.written = [] ∧ after = d
      else ∃ a, Emitted m config d a ∧
        Holds config d [⟨"moc.cpp", a.source⟩, ⟨"moc.h", a.header⟩, ⟨"moc.go", a.glue⟩] after ∧
        report.written = [config.targetPath "moc.cpp", config.targetPath "moc.h",
          config.targetPath "moc.go"]
  | (.error (.notWritten path _), after) =>
    ∃ a, Emitted m config d a ∧
      (path = config.targetPath "moc.cpp" ∧ after = d ∨
        path = config.targetPath "moc.h" ∧ Holds config d [⟨"moc.cpp", a.source⟩] after ∨
        path = config.targetPath "moc.go" ∧
          Holds config d [⟨"moc.cpp", a.source⟩, ⟨"moc.h", a.header⟩] after)
  | (.error (.tool _), after) =>
    ∃ a, Emitted m config d a ∧
      Holds config d [⟨"moc.cpp", a.source⟩, ⟨"moc.h", a.header⟩, ⟨"moc.go", a.glue⟩] after
  | (.error _, after) => after = d

section Bell

def bellText : String :=
  "package main\n\ntype Bell struct \x7b\n\tQObject\n" ++
    "\t_ func(times int) \x60signal:\"rung\"\x60\n\x7d\n"

/-- A folder with a source file, a file that no run reads, and a link to it. -/
def shopDisk : Disk where
  nodes := [(["shop", "notes.txt"], .file "ring twice".toUTF8),
    (["shop", "bell.go"], .file bellText.toUTF8), (["shop", "todo"], .link "notes.txt")]
  places_nodup := by decide

def bellConfig (directory : String) : Config :=
  { Config.empty with targetDir := directory, skipMoc := true, skipFmt := true }

end Bell

end Leaving

end SignalBridge
