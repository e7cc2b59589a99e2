import SignalBridge.Bridge.CType
import SignalBridge.Code.Expression
import SignalBridge.Registry.Basic
import SignalBridge.Text.Pieces

namespace SignalBridge

inductive Boundary where
  | text
  | textList
  | bool
  | int
  | real
  | int64
  | rawPointer
  /-- An object, passed as a pointer. -/
  | object (className : String)
  /-- A value of a library class, passed as a pointer to a copy. -/
  | value (className : String)
  /-- A nested name such as an enumeration, passed as a number. -/
  | nested (name : String)
  /-- A type without counterpart, passed as a pointer to anything. -/
  | untyped
deriving DecidableEq, Repr

/-- The class that a pointer type points to. -/
def pointee? (native : List Char) : Option (List Char) :=
  if native.getLast? = some '*' then some native.dropLast else none

/-- How a type that is no primitive crosses. -/
def Registry.classBoundary (r : Registry) (native : String) : Boundary :=
  if Text.occurs "::".toList native.toList then .nested native
  else
    match pointee? native.toList with
    | some name => if r.contains (String.ofList name) then .object (String.ofList name) else .untyped
    | none => if (r.find? native).any (!·.isDeclared) then .value native else .untyped

def Registry.boundary (r : Registry) (native : String) : Boundary :=
  match native with
  | "QString" => .text
  | "QStringList" => .textList
  | "bool" => .bool
  | "int" => .int
  | "qreal" => .real
  | "qint64" => .int64
  | "void*" => .rawPointer
  | "void" => .untyped
  | "" => .untyped
  | _ => r.classBoundary native

namespace Boundary

def cppType : Boundary → String
  | text => "QString"
  | textList => "QStringList"
  | bool => "bool"
  | int => "int"
  | real => "qreal"
  | int64 => "qint64"
  | rawPointer | untyped => "void*"
  | object name => name ++ "*"
  | value name | nested name => name

def cType : Boundary → CType
  | text | textList => .string
  | bool => .char
  | int => .int
  | real => .double
  | int64 | nested _ => .longLong
  | rawPointer | object _ | value _ | untyped => .pointer

def goType : Boundary → String
  | text => "string"
  | textList => "[]string"
  | bool => "bool"
  | int => "int"
  | real => "float64"
  | int64 | nested _ => "int64"
  | rawPointer | object _ | value _ | untyped => "unsafe.Pointer"

/-- Lists of texts are written into one text with a codec of their own. -/
def isList : Boundary → Bool
  | textList => true
  | _ => false

/-- Whether the value in between is a C string, which somebody has to free. -/
def isCString : Boundary → Bool
  | text | textList => true
  | _ => false

/-- From C to C++. A C string that is `taken` is freed once it is read. -/
def cppFromC (taken : Bool) : Boundary → List Code.Conversion
  | text => [.call (if taken then "moc_take_string" else "QString::fromUtf8")]
  | textList => [.call (if taken then "moc_take_list" else "moc_split_list")]
  | bool => [.nonzero]
  | object name => [.call s!"static_cast<{name}*>"]
  | value name => [.call s!"static_cast<{name}*>", .mark "*"]
  | nested name => [.call s!"static_cast<{name}>"]
  | int | real | int64 | rawPointer | untyped => []

/-- From C++ to C. A C string that is `given` is a copy which the receiver frees. -/
def cppToC (given : Bool) : Boundary → List Code.Conversion
  | text =>
    if given then [.method "toUtf8", .call "moc_strdup"]
    else [.method "toUtf8", .method "constData", .call "const_cast<char*>"]
  | textList =>
    if given then [.call "moc_join_list", .call "moc_strdup"]
    else [.call "moc_join_list", .method "constData", .call "const_cast<char*>"]
  | value name => [.call ("new " ++ name)]
  | nested _ => [.call "static_cast<long long>"]
  | bool | int | real | int64 | rawPointer | object _ | untyped => []

/-- From C to Go. -/
def goFromC : Boundary → List Code.Conversion
  | text => [.call "C.GoString"]
  | textList => [.call "C.GoString", .call "mocSplitList"]
  | bool => [.nonzero]
  | int => [.call "int"]
  | real => [.call "float64"]
  | int64 | nested _ => [.call "int64"]
  | rawPointer | object _ | value _ | untyped => []

/-- From Go to C. -/
def goToC : Boundary → List Code.Conversion
  | text => [.call "C.CString"]
  | textList => [.call "mocJoinList", .call "C.CString"]
  | bool => [.call "mocBool"]
  | int => [.call "C.int"]
  | real => [.call "C.double"]
  | int64 | nested _ => [.call "C.longlong"]
  | rawPointer | object _ | value _ | untyped => []

end Boundary

end SignalBridge
