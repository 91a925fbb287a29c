import ProxyConfig.Text.Cut

/-!
Paths of files in text: their components, their last component's ending, and paths inside a
directory.
-/

namespace ProxyConfig.Path

/-- What stands between the slashes of a path; empty parts and single points mean nothing. -/
def components (path : String) : List String :=
  ((Text.splitAll (· == '/') path.toList).map String.ofList).filter fun c => c != "" && c != "."

def fileName? (path : String) : Option String :=
  (components path).getLast?.filter (· != "..")

/-- What follows the last point of the file name, if something stands in front of that point. -/
def ending? (path : String) : Option String := do
  match Text.cutLast '.' (← fileName? path).toList with
  | some (_ :: _, ending) => some (String.ofList ending)
  | _ => none

def join (directory name : String) : String :=
  if name.startsWith "/" || directory.isEmpty then name
  else if directory.endsWith "/" then directory ++ name
  else directory ++ "/" ++ name

def parent (path : String) : String :=
  match Text.cutLast '/' path.toList with
  | some (directory, _) => String.ofList directory
  | none => ""

/-- Whether a path can only be one of a directory, by the way it ends. -/
def leadsToDirectory (path : String) : Bool :=
  match (Text.splitAll (· == '/') path.toList).getLast? with
  | some part => part == [] || part == ['.'] || part == ['.', '.']
  | none => true

end ProxyConfig.Path
