namespace SignalBridge

inductive CType where
  | string
  | char
  | int
  | double
  | longLong
  | pointer
deriving DecidableEq, Repr

namespace CType

/-- The spelling in C. -/
def text : CType → String
  | string => "char*"
  | char => "char"
  | int => "int"
  | double => "double"
  | longLong => "long long"
  | pointer => "void*"

/-- The spelling in Go, where the types of C are a package. -/
def cgoText : CType → String
  | string => "*C.char"
  | char => "C.char"
  | int => "C.int"
  | double => "C.double"
  | longLong => "C.longlong"
  | pointer => "unsafe.Pointer"

end CType

end SignalBridge
