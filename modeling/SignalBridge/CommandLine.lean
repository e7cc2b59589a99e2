import SignalBridge.Run.Config

/-!
The command line: options with one letter or a long name, and one argument without a name, the
target directory. Letters without values may stand together, and a value may stand in the same
word. After `--` no word is an option.
-/

namespace SignalBridge

inductive Flag where
  | skipMoc
  | skipFmt
  | dryRun
deriving DecidableEq, Repr

/-- What takes a value: an option, or the argument without a name. -/
inductive Slot where
  | target
  | moc
  | libraryDir
  | pkgConfig
deriving DecidableEq, Repr

inductive CommandOption where
  | flag (f : Flag)
  | valued (s : Slot)
  | help
  | version
deriving DecidableEq, Repr

namespace CommandOption

def longNames : List (String × CommandOption) :=
  [("moc", valued .moc), ("library-dir", valued .libraryDir), ("pkg-config", valued .pkgConfig),
    ("skip-moc", flag .skipMoc), ("skip-fmt", flag .skipFmt), ("dry-run", flag .dryRun),
    ("help", help), ("version", version)]

def letters : List (Char × CommandOption) :=
  [('l', valued .libraryDir), ('n', flag .dryRun), ('h', help), ('V', version)]

end CommandOption

/-- Why a command line does not lead to a run. -/
inductive Refusal where
  /-- An option that does not exist, or an argument too many. -/
  | unknown
  /-- A value is missing, or a path is empty. -/
  | badValue
  /-- What can be given only once is given again. -/
  | repeated
  /-- A value for an option that takes none. -/
  | needlessValue
  | helpWanted
  | versionWanted
deriving DecidableEq, Repr

structure Arguments where
  target : Option String
  moc : Option String
  libraryDir : Option String
  pkgConfig : List String
  skipMoc : Bool
  skipFmt : Bool
  dryRun : Bool
deriving DecidableEq, Repr

namespace Arguments

def empty : Arguments := ⟨none, none, none, [], false, false, false⟩

def has (a : Arguments) : Flag → Bool
  | .skipMoc => a.skipMoc
  | .skipFmt => a.skipFmt
  | .dryRun => a.dryRun

def raise (a : Arguments) (f : Flag) : Except Refusal Arguments :=
  if a.has f then .error .repeated
  else
    match f with
    | .skipMoc => .ok { a with skipMoc := true }
    | .skipFmt => .ok { a with skipFmt := true }
    | .dryRun => .ok { a with dryRun := true }

/-- A path that is given at most once. -/
def newPath (previous : Option String) (again : Refusal) (path : String) : Except Refusal String :=
  if previous.isSome then .error again
  else if path = "" then .error .badValue
  else .ok path

/-- Puts a value into its place. Packages may be many, and any text names one. -/
def fill (a : Arguments) (value : String) : Slot → Except Refusal Arguments
  | .target => (newPath a.target .unknown value).map fun p => { a with target := some p }
  | .moc => (newPath a.moc .repeated value).map fun p => { a with moc := some p }
  | .libraryDir => (newPath a.libraryDir .repeated value).map fun p => { a with libraryDir := some p }
  | .pkgConfig => .ok { a with pkgConfig := a.pkgConfig ++ [value] }

/-- Reads letters that stand together. The rest of the word is the value of the first letter that
takes one, with or without an equals sign; without any rest, the next word is. -/
def readLetters : Arguments → List Char → Except Refusal (Arguments × Option Slot)
  | a, [] => .ok (a, none)
  | a, c :: cs =>
    match CommandOption.letters.lookup c with
    | none => .error .unknown
    | some .help => .error .helpWanted
    | some .version => .error .versionWanted
    | some (.flag f) => do
      let raised ← a.raise f
      readLetters raised cs
    | some (.valued s) =>
      match cs with
      | [] => .ok (a, some s)
      | '=' :: value => (a.fill (String.ofList value) s).map fun filled => (filled, none)
      | value => (a.fill (String.ofList value) s).map fun filled => (filled, none)

/-- Reads a long option, with the value that stands in its word. -/
def readLong (a : Arguments) (name : String) (value : Option String) :
    Except Refusal (Arguments × Option Slot) :=
  match CommandOption.longNames.lookup name, value with
  | none, _ => .error .unknown
  | some (.valued s), some v => (a.fill v s).map fun filled => (filled, none)
  | some (.valued s), none => .ok (a, some s)
  | some _, some _ => .error .needlessValue
  | some (.flag f), none => (a.raise f).map fun raised => (raised, none)
  | some .help, none => .error .helpWanted
  | some .version, none => .error .versionWanted

/-- Reads a word that looks like an option, `--` apart. A lone dash does not. -/
def readOption? (a : Arguments) : List Char → Option (Except Refusal (Arguments × Option Slot))
  | '-' :: '-' :: word =>
    let (name, rest) := (word.takeWhile (· ≠ '='), word.dropWhile (· ≠ '='))
    some (a.readLong (String.ofList name) (rest.tail?.map String.ofList))
  | '-' :: c :: cs => some (a.readLetters (c :: cs))
  | _ => none

/-- Reads the words, while `waiting` waits for the next one to be its value. A word that looks like
an option is no value. -/
def read : Arguments → (waiting : Option Slot) → List String → Except Refusal Arguments
  | a, none, [] => .ok a
  | _, some _, [] => .error .badValue
  | a, waiting, word :: words =>
    if word = "--" then
      if waiting.isSome then .error .badValue
      else words.foldlM (fun a word => a.fill word .target) a
    else
      match a.readOption? word.toList, waiting with
      | some _, some _ => .error .badValue
      | some outcome, none => do
        let (after, next) ← outcome
        read after next words
      | none, _ => do
        let filled ← a.fill word (waiting.getD .target)
        read filled none words

/-- Reads a command line. The first word names the program. -/
def ofWords (words : List String) : Except Refusal Arguments :=
  empty.read none words.tail

/-- The run that the arguments ask for, from the current directory. The path of the compiler stays
as it is given. -/
def config (a : Arguments) (current : String) : Config :=
  let start : Config := {
    targetDir := (a.target.map (absolutePath current)).getD current
    mocPath := a.moc
    libraryDir := a.libraryDir.map (absolutePath current)
    skipMoc := a.skipMoc
    skipFmt := a.skipFmt
    dryRun := a.dryRun
    pkgConfig := [] }
  a.pkgConfig.foldl Config.addPackage start

end Arguments

end SignalBridge
