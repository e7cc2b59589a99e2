import SignalBridge.Source.Position

namespace SignalBridge.Source

structure Field where
  /-- The names declared; an embedded field has none. -/
  names : List String
  /-- The type as it is written. -/
  typeText : String
  /-- The tag literal with its quotes. -/
  tag : Option String
  span : Span
deriving DecidableEq, Repr

def Field.isEmbedded (f : Field) : Bool :=
  f.names.isEmpty

inductive TypeBody where
  | struct (fields : List Field)
  /-- Any other type; what it says is not looked at. -/
  | other
deriving DecidableEq, Repr

structure TypeDecl where
  name : String
  body : TypeBody
  span : Span
deriving DecidableEq, Repr

structure SourceFile where
  package : Option String
  /-- The types declared outside all braces, those of groups included, in order. -/
  types : List TypeDecl
deriving DecidableEq, Repr

structure StructDecl where
  name : String
  fields : List Field
deriving DecidableEq, Repr

def TypeDecl.struct? (d : TypeDecl) : Option StructDecl :=
  match d.body with
  | .struct fields => some ⟨d.name, fields⟩
  | .other => none

def SourceFile.structs (file : SourceFile) : List StructDecl :=
  file.types.filterMap TypeDecl.struct?

end SignalBridge.Source
