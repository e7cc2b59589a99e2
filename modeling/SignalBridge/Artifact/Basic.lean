import SignalBridge.Artifact.Header
import SignalBridge.Artifact.HostFile
import SignalBridge.Artifact.NativeSource
import SignalBridge.Registry.BaseOrder

namespace SignalBridge

structure Artifacts where
  /-- The C++ source. -/
  source : String
  /-- The C header. -/
  header : String
  /-- The Go file. -/
  glue : String
deriving DecidableEq, Repr

/-- A declared class without a base cannot be bound. -/
structure NoBase where
  className : String
deriving DecidableEq, Repr

def NoBase.message (e : NoBase) : String :=
  s!"Cannot emit {e.className}: class has no base to derive from"

namespace Registry

/-- The declared classes as they are written, bases first. -/
def boundClasses (r : Registry) : List BoundClass :=
  r.basesFirst.map r.boundClass

def artifacts (r : Registry) (package : String) (pkgConfig : List String) : Artifacts where
  source := Code.fileText (NativeSource.lines (r.includes r.basesFirst) r.boundClasses)
  header := Code.fileText (headerLines r.boundClasses)
  glue := Code.fileText (HostFile.ofClasses package pkgConfig r.boundClasses).lines

/-- The artifacts, unless a declared class has no base. -/
def emit (r : Registry) (package : String) (pkgConfig : List String) :
    Except NoBase Artifacts :=
  match r.basesFirst.find? (·.base.isNone) with
  | some c => .error ⟨c.name⟩
  | none => .ok (r.artifacts package pkgConfig)

end Registry

end SignalBridge
