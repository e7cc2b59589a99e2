import SignalBridge.Keyed
import SignalBridge.MetaClass

/-!
The registry: the classes known to a run, in the order in which they first came. No two have the
same name. A class that comes again takes the place of the one before; one that comes again after
its removal goes to the end.
-/

namespace SignalBridge

structure Registry where
  classes : List MetaClass
  names_nodup : (classes.map MetaClass.name).Nodup

namespace Registry

def empty : Registry := ⟨[], List.nodup_nil⟩

def names (r : Registry) : List String :=
  r.classes.map MetaClass.name

def find? (r : Registry) (name : String) : Option MetaClass :=
  r.classes.find? (·.name = name)

def contains (r : Registry) (name : String) : Bool :=
  (r.find? name).isSome

def size (r : Registry) : Nat :=
  r.classes.length

def inModule (r : Registry) (moduleName : String) : List MetaClass :=
  r.classes.filter (·.moduleName = moduleName)

/-- The classes that the sources declare. -/
def declared (r : Registry) : List MetaClass :=
  r.inModule mainModule

def insert (r : Registry) (c : MetaClass) : Registry :=
  ⟨Keyed.put MetaClass.name c r.classes, Keyed.nodup_map_key_put r.names_nodup⟩

def filter (r : Registry) (p : MetaClass → Bool) : Registry :=
  ⟨r.classes.filter p, r.names_nodup.sublist (List.filter_sublist.map _)⟩

def erase (r : Registry) (name : String) : Registry :=
  r.filter (·.name ≠ name)

/-- The registry with other members in its classes; nothing else changes. -/
def mapMembers (r : Registry) (f : MetaClass → List Member) : Registry :=
  ⟨r.classes.map fun c => { c with members := f c }, by
    rw [List.map_map]
    exact r.names_nodup⟩

/-- The registry with members added to the class of one name. -/
def addMembers (r : Registry) (name : String) (members : List Member) : Registry :=
  r.mapMembers fun c => if c.name = name then c.members ++ members else c.members

end Registry

end SignalBridge
