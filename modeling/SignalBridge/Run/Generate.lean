import SignalBridge.Run.ClassModel
import SignalBridge.Run.Tool

/-!
A whole run: read, build the model, write the artifacts, start the tools. All that can fail in
reading and building does so before the first file is written.
-/

namespace SignalBridge

structure Report where
  /-- The classes that are bound. -/
  classes : List String
  /-- The classes that were dropped. -/
  pruned : List String
  unmapped : Nat
  /-- The paths of the artifacts written, in order. -/
  written : List String
  /-- What the compiler printed, if it ran. -/
  mocOutput : Option String
deriving DecidableEq, Repr

def ClassModel.report (m : ClassModel) (written : List String) (mocOutput : Option String) :
    Report where
  classes := m.classes.map MetaClass.name
  pruned := m.resolution.pruned
  unmapped := m.unmapped
  written := written
  mocOutput := mocOutput

/-- A file of the target directory that a run is to write. -/
structure Output where
  name : String
  text : String
deriving DecidableEq, Repr

/-- The artifacts in the order in which they are written. -/
def Artifacts.outputs (a : Artifacts) : List Output :=
  [⟨sourceName, a.source⟩, ⟨headerName, a.header⟩, ⟨glueName, a.glue⟩]

/-- What a run is to write, once all is read and built. -/
structure Plan where
  model : ClassModel
  outputs : List Output

/-- Without any struct there is nothing to write. A dry run writes nothing either, but its classes
have to be such that they could be written. -/
def Plan.ofInputs (config : Config) (inputs : Inputs) : Except RunFault Plan := do
  let model ← ClassModel.ofInputs config inputs
  if model.discovered.isEmpty then return ⟨model, []⟩
  match model.registry.emit model.package config.packages with
  | .error e => throw (.noBase e)
  | .ok artifacts => return ⟨model, if config.dryRun then [] else artifacts.outputs⟩

namespace Machine

variable (m : Machine)

/-- Writes files in turn, until one cannot be written. -/
def writeAll (config : Config) : List Output → Disk → Except RunFault Unit × Disk
  | [], d => (.ok (), d)
  | o :: os, d =>
    match m.write d (config.targetPath o.name) o.text.toUTF8 with
    | .ok after => writeAll config os after
    | .error cause => (.error (.notWritten (config.targetPath o.name) cause), d)

/-- Carries out a plan. The tools are started only if something was written. -/
def carryOut (config : Config) (plan : Plan) (d : Disk) : Except RunFault Report × Disk :=
  if plan.outputs.isEmpty then (.ok (plan.model.report [] none), d)
  else
    match m.writeAll config plan.outputs d with
    | (.error e, after) => (.error e, after)
    | (.ok (), after) =>
      match m.runTools after config with
      | (.error e, final) => (.error (.tool e), final)
      | (.ok output, final) =>
        let written := plan.outputs.map fun o => config.targetPath o.name
        (.ok (plan.model.report written output), final)

/-- Runs on a disk: the report or the fault, and the disk afterwards. -/
def generate (config : Config) (d : Disk) : Except RunFault Report × Disk :=
  match Plan.ofInputs config (m.inputs d config) with
  | .error e => (.error e, d)
  | .ok plan => m.carryOut config plan d

end Machine

/-- A run on a machine that refuses no file and on which no program can be executed. -/
def generate (config : Config) (d : Disk) : Except RunFault Report × Disk :=
  Machine.plain.generate config d

end SignalBridge
