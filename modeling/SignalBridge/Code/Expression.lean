import SignalBridge.Code.Layout

namespace SignalBridge.Code

/-- One step by which a value gets another type. -/
inductive Conversion where
  | call (function : String)
  | method (name : String)
  | mark (sign : String)
  | nonzero
deriving DecidableEq, Repr

def Conversion.apply (value : String) : Conversion → String
  | call function => s!"{function}({value})"
  | method name => s!"{value}.{name}()"
  | mark sign => sign ++ value
  | nonzero => value ++ " != 0"

/-- A variable and the conversions that make it an argument, the innermost first. -/
structure Argument where
  name : String
  conversions : List Conversion
deriving DecidableEq, Repr

def Argument.text (a : Argument) : String :=
  a.conversions.foldl Conversion.apply a.name

inductive Subject where
  | named (name : String)
  | call (function : String) (arguments : List Argument)
deriving DecidableEq, Repr

def Subject.text : Subject → String
  | named name => name
  | call function arguments => s!"{function}({commaList (arguments.map Argument.text)})"

structure Expression where
  subject : Subject
  conversions : List Conversion
deriving DecidableEq, Repr

namespace Expression

def text (e : Expression) : String :=
  e.conversions.foldl Conversion.apply e.subject.text

def named (name : String) : Expression :=
  ⟨.named name, []⟩

def call (function : String) (arguments : List Argument) : Expression :=
  ⟨.call function arguments, []⟩

end Expression

inductive Statement where
  | run (e : Expression)
  | give (e : Expression)
deriving DecidableEq, Repr

def Statement.text : Statement → String
  | run e => e.text
  | give e => "return " ++ e.text

structure TypedName where
  name : String
  type : String
deriving DecidableEq, Repr

/-- How C and C++ declare a name. -/
def TypedName.typeFirst (v : TypedName) : String :=
  s!"{v.type} {v.name}"

/-- How Go declares a name. -/
def TypedName.nameFirst (v : TypedName) : String :=
  s!"{v.name} {v.type}"

end SignalBridge.Code
