import SignalBridge.Disk.Path
import SignalBridge.Keyed

/-!
A disk as a value: files, folders and links by the names on the way to them from the root. A path is
followed name by name; a link on the way puts the names of its own path in its place.
-/

namespace SignalBridge

/-- Why the operating system refuses. -/
inductive SystemFault where
  | notFound
  | notFolder
  | isFolder
  | denied
  /-- There are more links on the way than are followed. -/
  | tooManyLinks
  /-- Any other reason, as the system words it. -/
  | other (text : String)
deriving DecidableEq, Repr

def SystemFault.text : SystemFault → String
  | notFound => "No such file or directory (os error 2)"
  | notFolder => "Not a directory (os error 20)"
  | isFolder => "Is a directory (os error 21)"
  | denied => "Permission denied (os error 13)"
  | tooManyLinks => "Too many levels of symbolic links (os error 40)"
  | other text => text

inductive Node where
  | file (content : ByteArray)
  | folder
  /-- Stands for the path `target`, which starts at the folder of the link or at the root. -/
  | link (target : String)

structure Disk where
  nodes : List (List String × Node)
  places_nodup : (nodes.map Prod.fst).Nodup

namespace Disk

def empty : Disk := ⟨[], List.nodup_nil⟩

/-- The disk with a node at a place, whatever was there. -/
def put (d : Disk) (place : List String) (node : Node) : Disk :=
  ⟨Keyed.put Prod.fst (place, node) d.nodes, Keyed.nodup_map_key_put d.places_nodup⟩

/-- What is at a place. The root is a folder, and so is all that something lies below. -/
def node? (d : Disk) (place : List String) : Option Node :=
  match d.nodes.find? (·.1 = place) with
  | some (_, node) => some node
  | none =>
    if place.isEmpty || d.nodes.any fun (below, _) => place.isPrefixOf below then some .folder
    else none

def isFolder (d : Disk) (place : List String) : Bool :=
  match d.node? place with
  | some .folder => true
  | _ => false

/-- How many links a path may lead through. -/
def linkLimit : Nat := 40

/-- Where the path of a link starts. -/
def linkStart (place : List String) (target : String) : List String :=
  if target.toList.head? = some '/' then [] else place

/-- Follows names from a place on, as far as the first link; from there `viaLink` goes on. Only from
a folder a path can go on, even if it stays there. The last name need not be there. -/
def followWith (d : Disk)
    (viaLink : (place names : List String) → Except SystemFault (List String)) :
    (place names : List String) → Except SystemFault (List String)
  | place, [] => .ok place
  | place, name :: names =>
    match d.node? place with
    | none => .error .notFound
    | some (.file _) | some (.link _) => .error .notFolder
    | some .folder =>
      if name = "" ∨ name = "." then d.followWith viaLink place names
      else if name = ".." then d.followWith viaLink place.dropLast names
      else
        match d.node? (place ++ [name]) with
        | some (.link target) =>
          if target = "" then .error .notFound
          else viaLink (linkStart place target) (pathSteps target ++ names)
        | _ => d.followWith viaLink (place ++ [name]) names

/-- Follows names from a place on, through that many links at most. -/
def follow (d : Disk) : (links : Nat) → (place names : List String) →
    Except SystemFault (List String)
  | 0 => d.followWith fun _ _ => .error .tooManyLinks
  | links + 1 => d.followWith (d.follow links)

/-- The place that a path leads to, whether something is there or not. The empty path leads
nowhere. -/
def locate (d : Disk) (path : String) : Except SystemFault (List String) :=
  if path = "" then .error .notFound else d.follow linkLimit [] (pathSteps path)

/-- The place that a path leads to, if something is there. -/
def find (d : Disk) (path : String) : Except SystemFault (List String) := do
  let place ← d.locate path
  if (d.node? place).isSome then return place else throw .notFound

/-- The name of a node, if it lies directly in the folder at `place` and is no folder itself. -/
def fileName? (place : List String) : List String × Node → Option String
  | (_, .folder) => none
  | (p, .file _) | (p, .link _) => if p.dropLast = place then p.getLast? else none

/-- The names of the files and links directly in a folder. -/
def fileNames (d : Disk) (place : List String) : List String :=
  d.nodes.filterMap (fileName? place)

/-- The text that the file at a path holds. -/
def text? (d : Disk) (path : String) : Option String :=
  match (d.locate path).toOption.bind d.node? with
  | some (.file content) => String.fromUTF8? content
  | _ => none

end Disk

end SignalBridge
