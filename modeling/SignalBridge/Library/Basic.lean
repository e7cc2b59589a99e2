import SignalBridge.Registry.Basic
import SignalBridge.Text.LowerCase

namespace SignalBridge

structure LibraryModule where
  name : String
  classes : List MetaClass
deriving DecidableEq, Repr

/-- The name under which the registry knows a module. -/
def LibraryModule.key (m : LibraryModule) : String :=
  String.ofList (Text.lower m.name.toList)

namespace Registry

/-- Inserts the classes of a module in turn, marked with its key. -/
def load (r : Registry) (m : LibraryModule) : Registry :=
  m.classes.foldl
    (fun r c => r.insert { c.qualifyMembers with moduleName := m.key }) r

/-- The registry of some modules, loaded in turn. -/
def ofModules (ms : List LibraryModule) : Registry :=
  ms.foldl load empty

end Registry

end SignalBridge
