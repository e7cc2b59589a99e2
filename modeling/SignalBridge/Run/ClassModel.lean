import SignalBridge.Registry.Inheritance
import SignalBridge.Run.Inputs

namespace SignalBridge

structure ClassModel where
  /-- The Go package of the sources. -/
  package : String
  /-- The names of all structs found. -/
  discovered : List String
  /-- How many types of parameters and results have no counterpart. -/
  unmapped : Nat
  resolution : Registry.Resolution

namespace ClassModel

def registry (m : ClassModel) : Registry :=
  m.resolution.registry

/-- The classes that are bound. -/
def classes (m : ClassModel) : List MetaClass :=
  m.registry.declared

/-- The first package that a file names; files without one are in `main`. -/
def packageOf (files : List ScannedFile) : String :=
  (files.filterMap fun f => f.source.package).headD "main"

def build (libraries : List LibraryModule) (files : List ScannedFile) :
    Except RunFault ClassModel :=
  match (Registry.ofModules libraries).build (files.map ScannedFile.source) with
  | .error d => .error (.duplicate d.name)
  | .ok (r, discovered) =>
    .ok {
      package := packageOf files
      discovered
      unmapped := r.unmappedCount
      resolution := r.mapTypes.resolve }

/-- Reads the sources, then the libraries, and builds the model of them. -/
def ofInputs (config : Config) (inputs : Inputs) : Except RunFault ClassModel := do
  let files ← inputs.scan config
  let libraries ← inputs.libraries config
  build libraries files

end ClassModel

end SignalBridge
