import SignalBridge.Disk.Basic

/-!
A machine: what decides a run besides the disk. It may refuse to list a folder or to read or write a
file, and programs can be started on it.
-/

namespace SignalBridge

/-- How a program that is to be started ends. -/
inductive Ending where
  | notStarted (cause : SystemFault)
  /-- The program says that it failed. Its output is what it printed, of either kind. -/
  | failed (status output : String)
  | finished (output : String)
deriving DecidableEq, Repr

structure Machine where
  system : String
  processor : String
  /-- Why a folder is not listed. -/
  listFault? : List String → Option SystemFault
  /-- Why what is at a place is not read. -/
  readFault? : List String → Option SystemFault
  /-- Why a content is not written to a place. -/
  writeFault? : List String → ByteArray → Option SystemFault
  /-- Where the program of a name is installed, or why none is found. -/
  installed : String → Except String String
  /-- Starts a program with arguments in a directory: how it ends, and the disk it leaves. -/
  start : (program : String) → (arguments : List String) → (directory : String) → Disk →
    Ending × Disk

/-- A file of a folder, by its name there: its content, or why it is not read. -/
structure NamedFile where
  name : String
  content : Except SystemFault ByteArray

namespace Machine

variable (m : Machine) (d : Disk)

def read (path : String) : Except SystemFault ByteArray := do
  let place ← d.locate path
  match m.readFault? place, d.node? place with
  | some cause, some _ => throw cause
  | none, some (.file content) => return content
  | none, some .folder => throw .isFolder
  | _, _ => throw .notFound

/-- The files that a listing of a path finds, links among them. Below a file there are none. -/
def list (path : String) : Except SystemFault (List NamedFile) := do
  let place ← d.find path
  if d.isFolder place then
    match m.listFault? place with
    | some cause => throw cause
    | none => return (d.fileNames place).map fun name => ⟨name, m.read d (joinPath path name)⟩
  else return []

/-- Writes the whole of a file, whether there is one or not, or nothing. A folder is not
overwritten. -/
def write (path : String) (content : ByteArray) : Except SystemFault Disk := do
  let place ← d.locate path
  if d.isFolder place then throw .isFolder
  else
    match m.writeFault? place content with
    | some cause => throw cause
    | none => return d.put place (.file content)

end Machine

/-- How the start of a program in a directory fails where none can be executed. -/
def Disk.startFault (d : Disk) (program directory : String) : SystemFault :=
  match d.find directory with
  | .error cause => cause
  | .ok place =>
    if d.isFolder place then
      match d.find program with
      | .error cause => cause
      | .ok _ => .denied
    else .notFolder

/-- A machine that refuses no file and on which no program can be executed. -/
def Machine.plain : Machine where
  system := "linux"
  processor := "x86_64"
  listFault? _ := none
  readFault? _ := none
  writeFault? _ _ := none
  installed _ := .error "cannot find binary path"
  start program _ directory d := (.notStarted (d.startFault program directory), d)

end SignalBridge
