import SignalBridge.Artifact.Names
import SignalBridge.Bridge.HostFunction

namespace SignalBridge

/-- A Go function that does not depend on any class. -/
structure HostHelper where
  name : String
  /-- The parameters and the result, as they follow the name. -/
  signature : String
  body : List String
deriving DecidableEq, Repr

def HostHelper.lines (h : HostHelper) : List String :=
  Code.block s!"func {h.name}{h.signature}" h.body

namespace HostFile

/-- The handlers of every object by name, and the lock that guards them. -/
def handlerTable : List String :=
  ["var (",
    "\tmocMu        sync.Mutex",
    "\tmocCallbacks = make(map[unsafe.Pointer]map[string]interface\x7b\x7d)",
    ")"]

/-- A body that runs under the lock. -/
def locked (body : List String) : List String :=
  ["mocMu.Lock()", "defer mocMu.Unlock()"] ++ body

def handlerHelpers : List HostHelper :=
  [⟨"mocConnect", "(ptr unsafe.Pointer, name string, f interface\x7b\x7d)",
      locked (Code.block "if mocCallbacks[ptr] == nil"
          ["mocCallbacks[ptr] = make(map[string]interface\x7b\x7d)"] ++
        ["mocCallbacks[ptr][name] = f"])⟩,
    ⟨"mocDisconnect", "(ptr unsafe.Pointer, name string)",
      locked ["delete(mocCallbacks[ptr], name)"]⟩,
    ⟨"mocCallback", "(ptr unsafe.Pointer, name string) (interface\x7b\x7d, bool)",
      locked ["f, ok := mocCallbacks[ptr][name]", "return f, ok"]⟩,
    ⟨"mocForget", "(ptr unsafe.Pointer)", locked ["delete(mocCallbacks, ptr)"]⟩,
    ⟨"mocBool", "(b bool) C.char", Code.block "if b" ["return 1"] ++ ["return 0"]⟩]

def listHelpers : List HostHelper :=
  [⟨"mocJoinList", "(list []string) string",
      ["var b strings.Builder"] ++
        Code.block "for _, s := range list"
          ["b.WriteString(strconv.Itoa(len(s)))",
            "b.WriteByte(':')",
            "b.WriteString(s)"] ++
        ["return b.String()"]⟩,
    ⟨"mocSplitList", "(data string) []string",
      ["list := make([]string, 0)"] ++
        Code.block "for len(data) > 0"
          (["colon := strings.IndexByte(data, ':')"] ++
            Code.block "if colon < 0" ["break"] ++
            ["n, err := strconv.Atoi(data[:colon])"] ++
            Code.block "if err != nil || n < 0 || colon+1+n > len(data)" ["break"] ++
            ["list = append(list, data[colon+1:colon+1+n])",
              "data = data[colon+1+n:]"]) ++
        ["return list"]⟩]

end HostFile

/-- Whether a list passes as parameter or result. -/
def Binding.passesList (b : Binding) : Bool :=
  b.parameters.any (·.boundary.isList) || (b.returnsValue && b.result.isList)

structure HostFile where
  package : String
  /-- The packages whose compiler flags the C part needs. -/
  pkgConfig : List String
  imports : List String
  helpers : List HostHelper
  functions : List HostFunction
deriving DecidableEq, Repr

namespace HostFile

def ofClasses (package : String) (pkgConfig : List String) (cs : List BoundClass) : HostFile :=
  let lists := cs.any fun c => c.bindings.any Binding.passesList
  { package, pkgConfig
    imports := (if lists then ["strconv", "strings"] else []) ++ ["sync", "unsafe"]
    helpers := handlerHelpers ++ if lists then listHelpers else []
    functions := cs.flatMap BoundClass.hostFunctions }

def lines (file : HostFile) : List String :=
  [generatedLine, "", "package " ++ file.package, "",
    "/*",
    "#cgo CXXFLAGS: -std=c++11 -fPIC",
    "#cgo pkg-config: " ++ " ".intercalate file.pkgConfig,
    "#include <stdlib.h>",
    includeLine headerName,
    "*/",
    "import \"C\"",
    "import ("] ++
    Code.indent (file.imports.map goQuoted) ++
    [")"] ++
    Code.apart handlerTable ++
    file.helpers.flatMap (fun h => Code.apart h.lines) ++
    file.functions.flatMap (fun g => Code.apart g.lines)

end HostFile

end SignalBridge
