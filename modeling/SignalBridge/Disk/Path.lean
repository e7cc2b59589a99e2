import SignalBridge.Text.Pieces

namespace SignalBridge

/-- The path of a name in a directory. The empty directory is the current one. -/
def joinPath (directory name : String) : String :=
  if directory = "" ∨ directory.toList.getLast? = some '/' then directory ++ name
  else directory ++ "/" ++ name

/-- The names on a path one by one, empty ones included. -/
def pathSteps (path : String) : List String :=
  (Text.splitAt '/' path.toList).map String.ofList

/-- The names on a path, without those that stay in place. -/
def pathNames (path : String) : List String :=
  ((pathSteps path).filter (· ≠ "")).filter (· ≠ ".")

/-- Where a path starts: at the current directory, or at a root. A root is one slash, but exactly
two slashes stay two. -/
def pathStart (current : String) : List Char → String
  | '/' :: '/' :: '/' :: _ => "/"
  | '/' :: '/' :: _ => "//"
  | '/' :: _ => "/"
  | _ => current

/-- The path from the root, for a path that may be relative to the current directory. Steps up stay
as they are, and so does a slash at the end. -/
def absolutePath (current path : String) : String :=
  let names := (pathNames path).foldl joinPath (pathStart current path.toList)
  if path.toList.getLast? = some '/' then joinPath names "" else names

/-- A file name without its extension. A dot at the very start begins no extension. -/
def fileStem (name : String) : String :=
  match (name.toList.reverse.dropWhile (· ≠ '.')).tail with
  | [] => name
  | stem => String.ofList stem.reverse

end SignalBridge
