import SignalBridge.Bridge.Binding

namespace SignalBridge

inductive HostStatement where
  | act (s : Code.Statement)
  | assign (name : String) (value : Code.Expression)
  | defer (e : Code.Expression)
  | declare (name type : String)
  /-- Acts only if a handler `f` is connected under the key. -/
  | withHandler (key : String) (s : Code.Statement)
deriving DecidableEq, Repr

/-- What stands in the line before a function. -/
inductive Heading where
  | bare
  | remark (text : String)
  /-- The function can be called from C. -/
  | exported
deriving DecidableEq, Repr

structure HostFunction where
  heading : Heading
  name : String
  parameters : List Code.TypedName
  result : Option String
  body : List HostStatement
deriving DecidableEq, Repr

/-- A text as Go writes it between quotes. -/
def goQuoted (text : String) : String :=
  s!"\"{text}\""

/-- A result type as it follows a parameter list. -/
def goResult (result : Option String) : String :=
  (result.map fun type => " " ++ type).getD ""

def HostStatement.lines : HostStatement → List String
  | act s => [s.text]
  | assign name value => [s!"{name} := {value.text}"]
  | defer e => ["defer " ++ e.text]
  | declare name type => [s!"var {name} {type}"]
  | withHandler key s =>
    Code.block s!"if f, ok := mocCallback(ptr, {goQuoted key}); ok" [s.text]

namespace HostFunction

def headingLines (g : HostFunction) : List String :=
  match g.heading with
  | .bare => []
  | .remark text => ["// " ++ text]
  | .exported => ["//export " ++ g.name]

def lines (g : HostFunction) : List String :=
  let parameters := Code.commaList (g.parameters.map Code.TypedName.nameFirst)
  g.headingLines ++
    Code.block s!"func {g.name}({parameters}){goResult g.result}"
      (g.body.flatMap HostStatement.lines)

end HostFunction

/-- The object as a parameter. -/
def receiver : Code.TypedName :=
  ⟨"ptr", CType.pointer.cgoText⟩

/-- The variable that holds the C string of a parameter. -/
def BoundParameter.temporary (p : BoundParameter) : String :=
  p.name ++ "C"

/-- Frees the C string in a variable when the function returns. -/
def freeLater (name : String) : HostStatement :=
  .defer ⟨.named name, [.call "unsafe.Pointer", .call "C.free"]⟩

namespace Binding

def goParameters (b : Binding) : List Code.TypedName :=
  b.parameters.map fun p => ⟨p.name, p.boundary.goType⟩

def goResultType (b : Binding) : Option String :=
  if b.returnsValue then some b.result.goType else none

/-- The name under which handlers are kept, as an argument. -/
def keyArgument (b : Binding) : Code.Argument :=
  ⟨goQuoted b.member.fullName, []⟩

/-- Makes the C strings that the call needs. -/
def cStrings (b : Binding) : List HostStatement :=
  (b.parameters.filter (·.boundary.isCString)).flatMap fun p =>
    [.assign p.temporary ⟨.named p.name, p.boundary.goToC⟩, freeLater p.temporary]

/-- The parameters as C values. -/
def cArguments (b : Binding) : List Code.Argument :=
  b.parameters.map fun p =>
    if p.boundary.isCString then ⟨p.temporary, []⟩ else ⟨p.name, p.boundary.goToC⟩

/-- The subject that calls the wrapper of the member for an object. -/
def wrapperCall (b : Binding) : Code.Subject :=
  .call ("C." ++ b.wrapperName) (⟨"ptr", []⟩ :: b.cArguments)

/-- The Go function that connects a handler. For a signal it calls a C function of the same name. -/
def connectName (b : Binding) : String :=
  s!"{b.owner}_Connect{b.suffix}"

/-- The Go function that disconnects the handler, and for a signal the C function. -/
def disconnectName (b : Binding) : String :=
  s!"{b.owner}_Disconnect{b.suffix}"

def isSignal (b : Binding) : Bool :=
  b.member.category = .signal

/-- The C function that ties or unties a signal; slots need none. -/
def linkCall (b : Binding) (name : String) : List HostStatement :=
  if b.isSignal then [.act (.run (.call ("C." ++ name) [⟨"ptr", []⟩]))] else []

def connectFunction (b : Binding) : HostFunction where
  heading := .bare
  name := b.connectName
  parameters :=
    let types := Code.commaList (b.goParameters.map Code.TypedName.nameFirst)
    [receiver, ⟨"f", s!"func({types}){goResult b.goResultType}"⟩]
  result := none
  body :=
    .act (.run (.call "mocConnect" [⟨"ptr", []⟩, b.keyArgument, ⟨"f", []⟩])) ::
      b.linkCall b.connectName

def disconnectFunction (b : Binding) : HostFunction where
  heading := .bare
  name := b.disconnectName
  parameters := [receiver]
  result := none
  body :=
    b.linkCall b.disconnectName ++
      [.act (.run (.call "mocDisconnect" [⟨"ptr", []⟩, b.keyArgument]))]

/-- Calls the wrapper and gives its result as a Go value. A C string is freed after it is read. -/
def wrapperResult (b : Binding) : List HostStatement :=
  if b.returnsValue then
    if b.result.isCString then
      [.assign "mocResult" ⟨b.wrapperCall, []⟩, freeLater "mocResult",
        .act (.give ⟨.named "mocResult", b.result.goFromC⟩)]
    else [.act (.give ⟨b.wrapperCall, b.result.goFromC⟩)]
  else [.act (.run ⟨b.wrapperCall, []⟩)]

def callFunction (b : Binding) : HostFunction where
  heading := .bare
  name := b.wrapperName
  parameters := receiver :: b.goParameters
  result := b.goResultType
  body := b.cStrings ++ b.wrapperResult

/-- The subject that calls the handler with Go values. -/
def handlerCall (b : Binding) : Code.Subject :=
  let types := Code.commaList (b.goParameters.map Code.TypedName.type)
  .call s!"f.(func({types}){goResult b.goResultType})"
    (b.parameters.map fun p => ⟨p.name, p.boundary.goFromC⟩)

/-- Calls the handler; without one, a result is the zero of its type. -/
def callbackFunction (b : Binding) : HostFunction where
  heading := .exported
  name := b.callbackName
  parameters := receiver :: b.parameters.map fun p => ⟨p.name, p.boundary.cType.cgoText⟩
  result := if b.returnsValue then some b.result.cType.cgoText else none
  body :=
    if b.returnsValue then
      [.withHandler b.member.fullName (.give ⟨b.handlerCall, b.result.goToC⟩),
        .declare "zero" b.result.cType.cgoText, .act (.give (.named "zero"))]
    else [.withHandler b.member.fullName (.run ⟨b.handlerCall, []⟩)]

def createFunction (b : Binding) : HostFunction where
  heading := .remark s!"{b.suffix} creates a {b.owner}."
  name := b.suffix
  parameters := b.goParameters
  result := some "unsafe.Pointer"
  body := b.cStrings ++
    [.act (.give ⟨.call ("C." ++ b.wrapperName) b.cArguments, [.call "unsafe.Pointer"]⟩)]

def deleteFunction (b : Binding) : HostFunction where
  heading := .remark s!"{b.suffix} deletes a {b.owner}."
  name := b.suffix
  parameters := [receiver]
  result := none
  body := [.act (.run (.call ("C." ++ b.wrapperName) [⟨"ptr", []⟩]))]

/-- Forgets the handlers of an object that is deleted. -/
def forgetFunction (b : Binding) : HostFunction where
  heading := .exported
  name := b.callbackName
  parameters := [receiver]
  result := none
  body := [.act (.run (.call "mocForget" [⟨"ptr", []⟩]))]

def hostFunctions (b : Binding) : List HostFunction :=
  match b.member.category with
  | .constructor => [b.createFunction]
  | .destructor => [b.deleteFunction, b.forgetFunction]
  | .signal | .slot =>
    [b.connectFunction, b.disconnectFunction, b.callFunction, b.callbackFunction]

end Binding

def BoundClass.hostFunctions (c : BoundClass) : List HostFunction :=
  c.bindings.flatMap Binding.hostFunctions

end SignalBridge
