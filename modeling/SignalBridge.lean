import SignalBridge.Artifact.Basic
import SignalBridge.Artifact.Header
import SignalBridge.Artifact.HostFile
import SignalBridge.Artifact.Names
import SignalBridge.Artifact.NativeSource
import SignalBridge.Bridge.Binding
import SignalBridge.Bridge.Boundary
import SignalBridge.Bridge.CType
import SignalBridge.Bridge.HostFunction
import SignalBridge.Bridge.NativeClass
import SignalBridge.Bridge.Wrapper
import SignalBridge.Code.Expression
import SignalBridge.Code.Layout
import SignalBridge.CommandLine
import SignalBridge.Disk.Basic
import SignalBridge.Disk.Machine
import SignalBridge.Disk.Path
import SignalBridge.Json.Printer
import SignalBridge.Json.Reader
import SignalBridge.Json.Token
import SignalBridge.Json.Value
import SignalBridge.Keyed
import SignalBridge.Library.Basic
import SignalBridge.Library.Builtin
import SignalBridge.Library.Format
import SignalBridge.Main
import SignalBridge.Member.Marker
import SignalBridge.Member.Signature
import SignalBridge.MetaClass
import SignalBridge.NativeType
import SignalBridge.Outcome
import SignalBridge.Proofs.Source.NextLexeme
import SignalBridge.Proofs.Source.Pattern
import SignalBridge.Registry.Ancestry
import SignalBridge.Registry.BaseOrder
import SignalBridge.Registry.Basic
import SignalBridge.Registry.Declared
import SignalBridge.Registry.Inheritance
import SignalBridge.Run.ClassModel
import SignalBridge.Run.Config
import SignalBridge.Run.Fault
import SignalBridge.Run.Generate
import SignalBridge.Run.Inputs
import SignalBridge.Run.Tool
import SignalBridge.Source.Declaration
import SignalBridge.Source.Fault
import SignalBridge.Source.Field
import SignalBridge.Source.File
import SignalBridge.Source.Lexeme
import SignalBridge.Source.Nesting
import SignalBridge.Source.Position
import SignalBridge.Source.Tag
import SignalBridge.Source.Token
import SignalBridge.Text.Blank
import SignalBridge.Text.CaseRun
import SignalBridge.Text.Cased
import SignalBridge.Text.Combining
import SignalBridge.Text.Letter
import SignalBridge.Text.LowerCase
import SignalBridge.Text.Number
import SignalBridge.Text.Pieces
import SignalBridge.Text.Printable
import SignalBridge.Text.Quoted
import SignalBridge.Text.Ranges
import SignalBridge.Text.UpperCase
import SignalBridge.Proofs.Source.LongestLexeme
import SignalBridge.Proofs.Source.Position
import SignalBridge.Proofs.Source.Tokenization
import SignalBridge.Proofs.Registry.Lookup
import SignalBridge.Proofs.Registry.Rounds
import SignalBridge.Proofs.Registry.RoundLimit
import SignalBridge.Proofs.Registry.Heirs
import SignalBridge.Proofs.Registry.ClosedForm
import SignalBridge.Proofs.Registry.Declaration
import SignalBridge.Proofs.Registry.FileOrder
import SignalBridge.Proofs.Source.Nested
import SignalBridge.Proofs.Source.StructBody
import SignalBridge.Proofs.Member.Signature
import SignalBridge.Proofs.Source.Inked
import SignalBridge.Proofs.Host.Type
import SignalBridge.Proofs.Source.FieldLine
import SignalBridge.Proofs.Source.FileOfStructs
import SignalBridge.Proofs.Host.Member
import SignalBridge.Proofs.Host.Class
import SignalBridge.Proofs.Host.RoundTrip
import SignalBridge.Proofs.Source.Matched
import SignalBridge.Proofs.Source.Lookahead
import SignalBridge.Proofs.Source.Alike
import SignalBridge.Proofs.Source.Continued
import SignalBridge.Proofs.Source.Concatenation
import SignalBridge.Proofs.Source.WrittenFile
import SignalBridge.Proofs.Bridge.FunctionNames
import SignalBridge.Proofs.Registry.BasesFirst
import SignalBridge.Proofs.Bridge.NamesApart
import SignalBridge.Proofs.Artifact.FunctionNames
import SignalBridge.Proofs.Disk.Lookup
import SignalBridge.Proofs.Json.Printed
import SignalBridge.Proofs.Library.RoundTrip
import SignalBridge.Proofs.Run.Writing
import SignalBridge.Proofs.Json.Tokens
import SignalBridge.Proofs.Run.SameInputs
import SignalBridge.Proofs.Run.Repetition
import SignalBridge.Proofs.Member.Layout
import SignalBridge.Proofs.Source.Layout
import SignalBridge.Proofs.Registry.Layout
import SignalBridge.Proofs.Registry.Ascent
import SignalBridge.Proofs.Registry.Resolution
import SignalBridge.Proofs.Run.ClassNames
import SignalBridge.Proofs.Artifact.Halves
import SignalBridge.Proofs.Artifact.Prototypes
import SignalBridge.Proofs.Registry.Termination
import SignalBridge.Proofs.Registry.FixedPoint
import SignalBridge.Proofs.Registry.EitherOrder
import SignalBridge.Proofs.Registry.History
import SignalBridge.Proofs.Registry.Climb
import SignalBridge.Proofs.Registry.Pruning
import SignalBridge.Proofs.Run.Emission
import SignalBridge.Proofs.Member.ParameterList
import SignalBridge.Proofs.Host.TypeList
import SignalBridge.Proofs.Bridge.ParameterNames
import SignalBridge.Proofs.Host.Mapping
import SignalBridge.Proofs.Bridge.MappedTypes
import SignalBridge.Proofs.Artifact.ClassTypes
import SignalBridge.Proofs.Artifact.ListCodec
import SignalBridge.Proofs.Source.ArrayType
import SignalBridge.Proofs.Source.FaultPosition
import SignalBridge.Proofs.Source.SameWords
import SignalBridge.Proofs.Library.Spellings
import SignalBridge.Proofs.Registry.MappingPass
import SignalBridge.Proofs.Registry.Registration
import SignalBridge.Proofs.Member.TagSpelling
import SignalBridge.Proofs.Member.Brackets
import SignalBridge.Proofs.Member.FieldMember
import SignalBridge.Proofs.Member.CarryBack
import SignalBridge.Proofs.Source.Cursor
import SignalBridge.Proofs.Source.Agreement
import SignalBridge.Proofs.Source.FieldWalk
import SignalBridge.Proofs.Source.FileWalk
import SignalBridge.Proofs.Source.Advance
