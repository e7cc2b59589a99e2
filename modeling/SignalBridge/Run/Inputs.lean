import SignalBridge.Disk.Machine
import SignalBridge.Library.Builtin
import SignalBridge.Library.Format
import SignalBridge.Run.Config
import SignalBridge.Run.Fault
import SignalBridge.Source.File

/-!
What a run reads: the Go files of the target directory and the library modules. All that matters is
which files the directories hold, for files are read in the order of their names.
-/

namespace SignalBridge

/-- The files of the directories that a run reads, or why a directory cannot be listed. -/
structure Inputs where
  target : Except SystemFault (List NamedFile)
  library : Except SystemFault (List NamedFile)

/-- Without a library directory there is nothing in it. -/
def Machine.inputs (m : Machine) (d : Disk) (config : Config) : Inputs where
  target := m.list d config.targetDir
  library := (config.libraryDir.map (m.list d)).getD (.ok [])

def Disk.inputs (d : Disk) (config : Config) : Inputs :=
  Machine.plain.inputs d config

/-- Files whose names start like those of the artifacts are results of earlier runs. -/
def isSourceName (name : String) : Bool :=
  ".go".toList.isSuffixOf name.toList && !"moc".toList.isPrefixOf name.toList

def isModuleName (name : String) : Bool :=
  ".json".toList.isSuffixOf name.toList

structure ScannedFile where
  path : String
  source : Source.SourceFile
deriving DecidableEq, Repr

namespace Inputs

/-- The files with names of one kind, in the order of their names. -/
def chosen (isChosen : String → Bool) (files : List NamedFile) : List NamedFile :=
  (files.filter fun f => isChosen f.name).mergeSort fun f g => decide (f.name ≤ g.name)

def readText (path : String) (f : NamedFile) : Except RunFault String :=
  match f.content with
  | .error cause => .error (.notText ⟨path, .refused cause⟩)
  | .ok content =>
    match String.fromUTF8? content with
    | some text => .ok text
    | none => .error (.notText ⟨path, .notUtf8⟩)

def scanFile (config : Config) (f : NamedFile) : Except RunFault ScannedFile := do
  let path := config.targetPath f.name
  let text ← readText path f
  match Source.scan text with
  | .ok source => return ⟨path, source⟩
  | .error e => throw (.notScanned path e)

def scan (config : Config) (inputs : Inputs) : Except RunFault (List ScannedFile) :=
  match inputs.target with
  | .error cause => .error (.notListed config.targetDir cause)
  | .ok files => (chosen isSourceName files).mapM (scanFile config)

/-- A module goes by the name of its file in lower case, whatever it calls itself. -/
def readModule (directory : String) (f : NamedFile) : Except RunFault LibraryModule := do
  let name := String.ofList (Text.lower (fileStem f.name).toList)
  let text ← readText (joinPath directory f.name) f
  match LibraryModule.ofText? text with
  | some m => return { m with name }
  | none => throw (.badLibrary name)

/-- The modules of the library directory, if one is asked for. -/
def ownModules (config : Config) (inputs : Inputs) : Except RunFault (List LibraryModule) :=
  match config.libraryDir, inputs.library with
  | none, _ => .ok []
  | some directory, .error cause => .error (.notListed directory cause)
  | some directory, .ok files =>
    (chosen isModuleName files).mapM (readModule directory)

def libraries (config : Config) (inputs : Inputs) : Except RunFault (List LibraryModule) := do
  let own ← ownModules config inputs
  return LibraryModule.builtin ++ own

end Inputs

end SignalBridge
