import SignalBridge.Library.Basic

/-!
The modules that come with the program: the object hierarchy's root with a few of its classes, and
the most common windows. Full names are left to the registry.
-/

namespace SignalBridge.LibraryModule

/-- A member without result, whose parameters are pairs of a name and a type. -/
def member (category : Category) (name : String) (parameters : List (String × String)) : Member :=
  ⟨name, "", category, "void", none, parameters.map fun (n, t) => ⟨n, "", t⟩, .nonvirtual⟩

/-- A class that is built below a parent of the given type and can be destroyed. -/
def objectClass (name : String) (base : Option String) (parent : String)
    (members : List Member) : MetaClass :=
  ⟨name, .publicAccess, "", base,
    member .constructor name [("parent", parent)] :: member .destructor ("~" ++ name) [] :: members⟩

/-- A class that is copied, and has no members to connect. -/
def valueClass (name : String) : MetaClass :=
  ⟨name, .publicAccess, "", none, []⟩

def core : LibraryModule where
  name := "Core"
  classes := [
    objectClass "QObject" none "QObject*" [
      member .signal "destroyed" [("obj", "QObject*")],
      member .signal "objectNameChanged" [("objectName", "QString")],
      member .slot "deleteLater" []],
    objectClass "QTimer" (some "QObject") "QObject*" [
      member .signal "timeout" [],
      member .slot "start" [("msec", "int")],
      member .slot "stop" []],
    objectClass "QThread" (some "QObject") "QObject*" [
      member .signal "started" [],
      member .signal "finished" [],
      member .slot "quit" []],
    valueClass "QVariant",
    valueClass "QPoint",
    valueClass "QSize",
    valueClass "QRect"]

def widgets : LibraryModule where
  name := "Widgets"
  classes := [
    objectClass "QWidget" (some "QObject") "QWidget*" [
      member .signal "windowTitleChanged" [("title", "QString")],
      member .slot "show" [],
      member .slot "hide" [],
      { member .slot "close" [] with returnType := "bool" }],
    objectClass "QMainWindow" (some "QWidget") "QWidget*" [],
    objectClass "QDialog" (some "QWidget") "QWidget*" [
      member .signal "accepted" [],
      member .signal "rejected" [],
      member .slot "accept" [],
      member .slot "reject" []],
    objectClass "QLabel" (some "QWidget") "QWidget*" [
      member .slot "setText" [("text", "QString")]]]

/-- The modules that every run loads first. -/
def builtin : List LibraryModule := [core, widgets]

end SignalBridge.LibraryModule
