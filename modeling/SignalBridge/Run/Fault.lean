import SignalBridge.Artifact.Basic
import SignalBridge.Disk.Basic
import SignalBridge.Registry.Declared
import SignalBridge.Source.Fault

namespace SignalBridge

/-- Why a tool that follows the run does not do its work. -/
inductive ToolFault where
  /-- There is nothing at the path that was given for the compiler. -/
  | nothingAt (path : String)
  /-- The tool is looked for, and not found. -/
  | notInstalled (tool reason : String)
  | notStarted (label : String) (cause : SystemFault)
  /-- The tool did run, and says that it failed. -/
  | failed (label status output : String)
deriving DecidableEq, Repr

namespace ToolFault

def message : ToolFault → String
  | nothingAt path => s!"Failed to find moc binary: moc binary not found at: {path}"
  | notInstalled tool reason => s!"Failed to find {tool} binary: {reason}"
  | notStarted label cause => s!"IO error while running {label}: {cause.text}"
  | failed label status output => s!"{label} failed: status={status}\noutput:{output}"

/-- What a tool printed that ran and failed. -/
def output? : ToolFault → Option String
  | failed _ _ output => some output
  | nothingAt _ | notInstalled .. | notStarted .. => none

end ToolFault

/-- Why a file gives no text. -/
inductive ReadFault where
  | refused (cause : SystemFault)
  /-- The bytes are no UTF-8. -/
  | notUtf8
deriving DecidableEq, Repr

def ReadFault.text : ReadFault → String
  | refused cause => cause.text
  | notUtf8 => "stream did not contain valid UTF-8"

/-- A file that gives no text. -/
structure NoText where
  path : String
  cause : ReadFault
deriving DecidableEq, Repr

inductive RunFault where
  /-- A directory that cannot be listed. -/
  | notListed (path : String) (cause : SystemFault)
  | notText (file : NoText)
  | notScanned (path : String) (cause : Source.ScanError)
  | badLibrary (moduleName : String)
  | duplicate (className : String)
  | noBase (cause : NoBase)
  | notWritten (path : String) (cause : SystemFault)
  | tool (cause : ToolFault)
deriving DecidableEq, Repr

namespace RunFault

def message : RunFault → String
  | notListed path cause =>
    s!"Failed to list {path}: IO error for operation on {path}: {cause.text}"
  | notText file => s!"Failed to read {file.path}: {file.cause.text}"
  | notScanned path cause => s!"{path}:{cause.message}"
  | badLibrary moduleName => s!"Model error: invalid library module {moduleName}"
  | duplicate className => s!"Model error: {DuplicateClass.text className}"
  | noBase cause => s!"Emit error: {cause.message}"
  | notWritten path cause => s!"Failed to write {path}: {cause.text}"
  | tool cause => cause.message

/-- What a tool printed that ran and failed. -/
def diagnostics? : RunFault → Option String
  | tool cause => cause.output?
  | _ => none

/-- Where the reason lies: in what is read, in the classes, or in what is written and started. -/
inductive Kind where
  | input
  | model
  | tooling
deriving DecidableEq, Repr

def kind : RunFault → Kind
  | notListed .. | notText _ | notScanned .. | badLibrary _ => .input
  | duplicate _ => .model
  | noBase _ | notWritten .. | tool _ => .tooling

end RunFault

end SignalBridge
