import SignalBridge.Artifact.Names
import SignalBridge.Disk.Path

namespace SignalBridge

structure Config where
  /-- The directory of the sources, where the artifacts go too. -/
  targetDir : String
  /-- Where Qt's compiler is. -/
  mocPath : Option String
  /-- A directory of library modules. -/
  libraryDir : Option String
  skipMoc : Bool
  skipFmt : Bool
  /-- Write nothing. -/
  dryRun : Bool
  /-- The packages whose compiler flags the Go file asks for, each once. -/
  pkgConfig : List String
deriving DecidableEq, Repr

namespace Config

def empty : Config where
  targetDir := ""
  mocPath := none
  libraryDir := none
  skipMoc := false
  skipFmt := false
  dryRun := false
  pkgConfig := []

/-- Asks for a package, unless that was done before. -/
def addPackage (c : Config) (package : String) : Config :=
  if package ∈ c.pkgConfig then c else { c with pkgConfig := c.pkgConfig ++ [package] }

/-- The packages asked for, or the one that is always needed. -/
def packages (c : Config) : List String :=
  if c.pkgConfig.isEmpty then ["Qt5Core"] else c.pkgConfig

/-- The path of a file in the target directory. -/
def targetPath (c : Config) (name : String) : String :=
  joinPath c.targetDir name

end Config

end SignalBridge
