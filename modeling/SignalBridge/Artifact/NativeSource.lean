import SignalBridge.Artifact.Names
import SignalBridge.Bridge.NativeClass
import SignalBridge.Bridge.Wrapper

/-!
The C++ source: the classes and the wrappers, after the functions by which texts and lists pass. A
text passes as UTF-8 in memory that the receiver frees; a list passes as one text, where the number
of its bytes and a colon stand before every element.
-/

namespace SignalBridge

/-- Includes of every source, whatever classes it has. -/
def fixedIncludes : List String :=
  ["QByteArray", "QMetaObject", "QObject", "QString", "QStringList", "cstdlib", "cstring"]

/-- The types that a class mentions, its base first. -/
def MetaClass.mentioned (c : MetaClass) : List String :=
  c.base.toList ++
    c.members.flatMap fun m => m.returnType :: m.parameters.map Parameter.nativeType

/-- Leaves out all stars at the end. -/
def dropStars (type : String) : String :=
  String.ofList (type.toList.reverse.dropWhile (· = '*')).reverse

/-- The library class that a type names or points to. -/
def Registry.libraryClass? (r : Registry) (type : String) : Option String :=
  ((r.find? (dropStars type)).filter (!·.isDeclared)).map MetaClass.name

/-- What the source has to include: sorted, nothing twice. -/
def Registry.includes (r : Registry) (cs : List MetaClass) : List String :=
  ((fixedIncludes ++ (cs.flatMap MetaClass.mentioned).filterMap r.libraryClass?).mergeSort
    (fun a b => decide (a ≤ b))).eraseDups

namespace NativeSource

def copyBytes : List String :=
  Code.definition "static char* moc_strdup(const QByteArray& data)"
    ["char* out = static_cast<char*>(malloc(data.size() + 1));",
      "memcpy(out, data.constData(), data.size() + 1);",
      "return out;"]

def takeString : List String :=
  Code.definition "static QString moc_take_string(char* raw)"
    ["QString out = QString::fromUtf8(raw);",
      "free(raw);",
      "return out;"]

def joinList : List String :=
  Code.definition "static QByteArray moc_join_list(const QStringList& list)"
    (["QByteArray out;"] ++
      Code.block "for (const QString& item : list)"
        ["QByteArray utf8 = item.toUtf8();",
          "out.append(QByteArray::number(utf8.size()));",
          "out.append(':');",
          "out.append(utf8);"] ++
      ["return out;"])

def splitList : List String :=
  Code.definition "static QStringList moc_split_list(const char* raw)"
    (["QStringList list;",
        "QByteArray data(raw);",
        "int pos = 0;"] ++
      Code.block "while (pos < data.size())"
        (["int colon = data.indexOf(':', pos);"] ++
          Code.block "if (colon < 0)" ["break;"] ++
          ["bool ok = false;",
            "int len = data.mid(pos, colon - pos).toInt(&ok);"] ++
          Code.block "if (!ok || len < 0 || colon + 1 + len > data.size())" ["break;"] ++
          ["list.append(QString::fromUtf8(data.mid(colon + 1, len)));",
            "pos = colon + 1 + len;"]) ++
      ["return list;"])

def takeList : List String :=
  Code.definition "static QStringList moc_take_list(char* raw)"
    ["QStringList out = moc_split_list(raw);",
      "free(raw);",
      "return out;"]

def helpers : List (List String) :=
  [copyBytes, takeString, joinList, splitList, takeList]

/-- The class, then its wrappers. -/
def classLines (c : BoundClass) : List String :=
  Code.apart c.native.lines ++ c.wrappers.flatMap fun w => Code.apart w.lines

/-- All classes are announced before the first one, for parameters may name classes that come
later. -/
def lines (includes : List String) (cs : List BoundClass) : List String :=
  [generatedLine, "", includeLine headerName, includeLine "_cgo_export.h", ""] ++
    includes.map (fun name => s!"#include <{name}>") ++
    helpers.flatMap Code.apart ++
    Code.apart (cs.map fun c => s!"class {c.name};") ++
    cs.flatMap classLines ++
    Code.apart [includeLine metadataName]

end NativeSource

end SignalBridge
