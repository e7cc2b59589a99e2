import SignalBridge.CommandLine
import SignalBridge.Run.Generate

/-!
The program: reads the command line and the directories, and writes what the plan says. It starts
no tools; the commands that finish the job are printed instead.
-/

namespace SignalBridge.Main

def usage : String :=
  "usage: qtmoc [--moc PATH] [-l | --library-dir DIR] [--pkg-config PACKAGE]... " ++
    "[--skip-moc] [--skip-fmt] [-n | --dry-run] [DIRECTORY]"

def readFile (path : String) : IO (Except SystemFault ByteArray) := do
  let current ← IO.currentDir
  try
    return .ok (← IO.FS.readBinFile (current / path))
  catch e => return .error (.other e.toString)

/-- The files with names of one kind in a directory, links among them. -/
def readFolder (isChosen : String → Bool) (path : String) :
    IO (Except SystemFault (List NamedFile)) := do
  let current ← IO.currentDir
  try
    let mut files := #[]
    for entry in ← (current / path).readDir do
      let kind := (← entry.path.symlinkMetadata).type
      if isChosen entry.fileName && (kind == .file || kind == .symlink) then
        files := files.push ⟨entry.fileName, ← readFile (joinPath path entry.fileName)⟩
    return .ok files.toList
  catch e => return .error (.other e.toString)

def readInputs (config : Config) : IO Inputs := do
  let target ← readFolder isSourceName config.targetDir
  let library ← match config.libraryDir with
    | some directory => readFolder isModuleName directory
    | none => pure (.ok [])
  return { target, library }

def fail (e : RunFault) : IO UInt32 := do
  IO.eprintln e.message
  if let some output := e.diagnostics? then
    IO.eprintln output
  return 1

/-- Prints the class model of a run that writes nothing. -/
def printModel (config : Config) (inputs : Inputs) : IO UInt32 := do
  match ClassModel.ofInputs config inputs with
  | .error e => fail e
  | .ok model =>
    IO.println (Json.array (model.classes.map MetaClass.toJson)).toText
    return 0

/-- The commands that follow a run. -/
def followUps (config : Config) : List String :=
  let compile := (config.mocPath.getD "moc") ::
    mocArguments (config.targetPath sourceName) (config.targetPath metadataName)
  (if config.skipMoc then [] else [" ".intercalate compile]) ++
    if config.skipFmt then [] else ["go fmt " ++ config.targetDir]

def writeOutputs (config : Config) (inputs : Inputs) : IO UInt32 := do
  match Plan.ofInputs config inputs with
  | .error e => fail e
  | .ok plan =>
    for o in plan.outputs do
      IO.FS.writeFile (config.targetPath o.name) o.text
    for o in plan.outputs do
      IO.println (config.targetPath o.name)
    unless plan.outputs.isEmpty do
      for command in followUps config do
        IO.eprintln s!"to finish: {command}"
    return 0

def run (config : Config) : IO UInt32 := do
  let inputs ← readInputs config
  if config.dryRun then printModel config inputs else writeOutputs config inputs

end SignalBridge.Main

open SignalBridge in
def main (words : List String) : IO UInt32 := do
  match Arguments.ofWords ("qtmoc" :: words) with
  | .ok arguments => Main.run (arguments.config (← IO.currentDir).toString)
  | .error .helpWanted => do
    IO.println Main.usage
    return 0
  | .error .versionWanted => do
    IO.println "qtmoc 0.1.0"
    return 0
  | .error _ => do
    IO.eprintln Main.usage
    return 2
