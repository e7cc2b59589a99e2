import SignalBridge.Disk.Machine
import SignalBridge.Run.Config
import SignalBridge.Run.Fault

namespace SignalBridge

/-- Where the compiler is installed, by operating system and processor. -/
def mocInstallPath? (system processor : String) : Option String :=
  match system, processor with
  | "macos", _ => some "/usr/local/Qt5.6.0/5.6/clang_64/bin/moc"
  | "linux", "x86_64" => some "/usr/local/Qt5.6.0/5.6/gcc_64/bin/moc"
  | "linux", "x86" => some "/usr/local/Qt5.6.0/5.6/gcc/bin/moc"
  | "windows", _ => some "C:\\Qt\\Qt5.6.0\\5.6\\mingw49_32\\bin\\moc.exe"
  | _, _ => none

/-- The arguments with which the compiler turns one file into another. -/
def mocArguments (input output : String) : List String :=
  [input, "-o", output]

/-- The path given for the compiler has to exist. -/
def Disk.findMoc (d : Disk) (path : String) : Except ToolFault String :=
  if (d.find path).isOk then .ok path else .error (.nothingAt path)

namespace Machine

variable (m : Machine) (d : Disk)

def findInstalled (tool : String) : Except ToolFault String :=
  (m.installed tool).mapError (.notInstalled tool)

/-- The compiler is where the run says, or where it is installed usually, or anywhere else. -/
def findMoc (config : Config) : Except ToolFault String :=
  match config.mocPath with
  | some path => d.findMoc path
  | none =>
    match (mocInstallPath? m.system m.processor).filter fun path => (d.find path).isOk with
    | some path => .ok path
    | none => m.findInstalled "moc"

/-- Runs a tool to its end. -/
def runTool (label program : String) (arguments : List String) (directory : String) :
    Except ToolFault String × Disk :=
  match m.start program arguments directory d with
  | (.notStarted cause, after) => (.error (.notStarted label cause), after)
  | (.failed status output, after) => (.error (.failed label status output), after)
  | (.finished output, after) => (.ok output, after)

/-- Compiles the C++ source. -/
def runMoc (config : Config) : Except ToolFault String × Disk :=
  match m.findMoc d config with
  | .error e => (.error e, d)
  | .ok program =>
    let arguments := mocArguments (config.targetPath sourceName) (config.targetPath metadataName)
    m.runTool d "moc.moc" program arguments config.targetDir

/-- The formatter starts in the directory it works on. -/
def format (program directory : String) : Except ToolFault String × Disk :=
  m.runTool d "moc.fmt" program ["fmt"] directory

def runFormat (config : Config) : Except ToolFault String × Disk :=
  match m.findInstalled "go" with
  | .error e => (.error e, d)
  | .ok program => m.format d program config.targetDir

/-- The tools that a run asks for, the compiler before the formatter. What the compiler prints is
kept. -/
def runTools (config : Config) : Except ToolFault (Option String) × Disk :=
  let (compiled, mid) :=
    if config.skipMoc then (.ok none, d)
    else
      let (output, after) := m.runMoc d config
      (output.map some, after)
  match compiled with
  | .error e => (.error e, mid)
  | .ok output =>
    if config.skipFmt then (.ok output, mid)
    else
      let (formatted, after) := m.runFormat mid config
      (formatted.map fun _ => output, after)

end Machine

/-- How the formatter fails where no program can be executed. -/
def Disk.formatFault (d : Disk) (program directory : String) : ToolFault :=
  .notStarted "moc.fmt" (d.startFault program directory)

example (d : Disk) (program directory : String) :
    Machine.plain.format d program directory = (.error (d.formatFault program directory), d) :=
  rfl

end SignalBridge
