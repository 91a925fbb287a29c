import ProxyConfig.Path

/-!
A tree of files and directories, and what can be done with it under the rules of a usual file system
without links.  The basic operations follow a path of names downwards; a path in text is resolved to
one first, where `..` leads out of an existing directory.  Main statements: what is written at a path
is found there, and what is found at an entry of another name stays.
-/

namespace ProxyConfig

inductive FileTree where
  | file (content : ByteArray)
  | directory (entries : List (String × FileTree))
  deriving Inhabited

inductive FileError where
  | notFound
  | notDirectory
  | isDirectory
  | nameTooLong
  | badPath
  deriving DecidableEq, Repr

namespace FileTree

def empty : FileTree := .directory []

def nameLimit : Nat := 255

def child? (name : String) (entries : List (String × FileTree)) : Option FileTree :=
  entries.lookup name

def eraseChild (name : String) (entries : List (String × FileTree)) : List (String × FileTree) :=
  entries.filter fun e => e.1 != name

/-- The entries with a new one in the place of the one that has its name, or behind all others. -/
def putChild (name : String) (t : FileTree) :
    List (String × FileTree) → List (String × FileTree)
  | [] => [(name, t)]
  | (n, u) :: rest => if n = name then (name, t) :: rest else (n, u) :: putChild name t rest

@[simp] theorem child?_nil (name : String) : child? name [] = none := rfl

theorem child?_cons (name n : String) (t : FileTree) (entries : List (String × FileTree)) :
    child? name ((n, t) :: entries) = if name = n then some t else child? name entries := by
  by_cases h : name = n
  · simp [child?, h]
  · simp [child?, List.lookup_cons, beq_false_of_ne h, h]

theorem child?_eraseChild (name other : String) (entries : List (String × FileTree)) :
    child? other (eraseChild name entries) = if other = name then none else child? other entries := by
  induction entries with
  | nil => simp [eraseChild]
  | cons e entries ih =>
    obtain ⟨n, t⟩ := e
    have hcons : eraseChild name ((n, t) :: entries) =
        if n = name then eraseChild name entries else (n, t) :: eraseChild name entries := by
      by_cases hn : n = name <;> simp [eraseChild, hn]
    rw [hcons, child?_cons]
    by_cases hn : n = name
    · subst hn
      by_cases ho : other = n
      · subst ho; simp [ih]
      · simp [ih, ho]
    · by_cases ho : other = n
      · subst ho; simp [hn, child?_cons]
      · simp [hn, child?_cons, ho, ih]

theorem child?_putChild (name other : String) (t : FileTree) (entries : List (String × FileTree)) :
    child? other (putChild name t entries) = if other = name then some t else child? other entries := by
  induction entries with
  | nil => simp [putChild, child?_cons]
  | cons e entries ih =>
    obtain ⟨n, u⟩ := e
    rw [putChild]
    by_cases hn : n = name
    · subst hn
      by_cases ho : other = n <;> simp [child?_cons, ho]
    · by_cases ho : other = n
      · subst ho; simp [hn, child?_cons]
      · simp [hn, child?_cons, ho, ih]

def find : FileTree → List String → Except FileError FileTree
  | t, [] => .ok t
  | .file _, _ :: _ => .error .notDirectory
  | .directory entries, name :: rest =>
    if nameLimit < name.utf8ByteSize then .error .nameTooLong
    else match child? name entries with
      | none => .error .notFound
      | some t => t.find rest

/-- The tree with another entry at a path: `f` gives the new one, or none, from what is there.  The
directory that holds it has to exist. -/
def alter (f : Option FileTree → Except FileError (Option FileTree)) :
    FileTree → List String → Except FileError FileTree
  | _, [] => .error .isDirectory
  | .file _, _ :: _ => .error .notDirectory
  | .directory entries, [name] => do
    if nameLimit < name.utf8ByteSize then .error .nameTooLong
    else match ← f (child? name entries) with
      | some t => pure (.directory (putChild name t entries))
      | none => pure (.directory (eraseChild name entries))
  | .directory entries, name :: rest => do
    if nameLimit < name.utf8ByteSize then .error .nameTooLong
    else match child? name entries with
      | none => .error .notFound
      | some t => pure (.directory (putChild name (← t.alter f rest) entries))

def read (t : FileTree) (path : List String) : Except FileError ByteArray := do
  match ← t.find path with
  | .file content => pure content
  | .directory _ => .error .isDirectory

def list (t : FileTree) (path : List String) : Except FileError (List (String × FileTree)) := do
  match ← t.find path with
  | .file _ => .error .notDirectory
  | .directory entries => pure entries

def write (content : ByteArray) (t : FileTree) (path : List String) : Except FileError FileTree :=
  t.alter (fun
    | some (.directory _) => .error .isDirectory
    | _ => .ok (some (.file content))) path

def unlink (t : FileTree) (path : List String) : Except FileError FileTree :=
  t.alter (fun
    | none => .error .notFound
    | some (.directory _) => .error .isDirectory
    | some (.file _) => .ok none) path

def remove (t : FileTree) (path : List String) : Except FileError FileTree :=
  t.alter (fun
    | none => .error .notFound
    | some _ => .ok none) path

def rename (t : FileTree) (source target : List String) : Except FileError FileTree := do
  let content ← t.read source
  (← t.write content target).unlink source

/-- Makes the directories along a path that are missing.  Those made before one that cannot be made
remain. -/
def makeDirectories : FileTree → List String → Option FileError × FileTree
  | .file content, _ => (some .notDirectory, .file content)
  | .directory entries, [] => (none, .directory entries)
  | .directory entries, name :: rest =>
    if nameLimit < name.utf8ByteSize then (some .nameTooLong, .directory entries)
    else
      let (e, t) := ((child? name entries).getD empty).makeDirectories rest
      (e, .directory (putChild name t entries))

/-- The path of names that components lead to from `above`, the names passed so far with the last one
first. -/
def resolve (t : FileTree) (above : List String) : List String → Except FileError (List String)
  | [] => .ok above.reverse
  | ".." :: rest => do
    let _ ← t.list above.reverse
    t.resolve above.tail rest
  | name :: rest => t.resolve (name :: above) rest

def locate (t : FileTree) (path : String) : Except FileError (List String) :=
  if '\x00' ∈ path.toList then .error .badPath
  else if path.isEmpty then .error .notFound
  else t.resolve [] (Path.components path)

def locateFile (t : FileTree) (path : String) : Except FileError (List String) :=
  if Path.leadsToDirectory path then .error .isDirectory else t.locate path

def readPath (t : FileTree) (path : String) : Except FileError ByteArray := do
  t.read (← t.locateFile path)

def listPath (t : FileTree) (path : String) : Except FileError (List (String × FileTree)) := do
  t.list (← t.locate path)

def writePath (content : ByteArray) (t : FileTree) (path : String) : Except FileError FileTree := do
  t.write content (← t.locateFile path)

def unlinkPath (t : FileTree) (path : String) : Except FileError FileTree := do
  t.unlink (← t.locateFile path)

def removePath (t : FileTree) (path : String) : Except FileError FileTree := do
  t.remove (← t.locate path)

def renamePath (t : FileTree) (source target : String) : Except FileError FileTree := do
  t.rename (← t.locateFile source) (← t.locateFile target)

/-- Makes the directories along components; where one leads upwards, what it leads out of is made
first. -/
def makeAlong (above : List String) : List String → FileTree → Option FileError × FileTree
  | [], t => t.makeDirectories above.reverse
  | ".." :: rest, t =>
    match t.makeDirectories above.reverse with
    | (none, t) => makeAlong above.tail rest t
    | failed => failed
  | name :: rest, t => makeAlong (name :: above) rest t

def makePath (t : FileTree) (path : String) : Option FileError × FileTree :=
  if '\x00' ∈ path.toList then (some .badPath, t) else makeAlong [] (Path.components path) t

theorem find_append (t : FileTree) (p q : List String) :
    t.find (p ++ q) = (t.find p).bind fun u => u.find q := by
  induction p generalizing t with
  | nil => rfl
  | cons name p ih =>
    cases t with
    | file => rfl
    | directory entries =>
      simp only [List.cons_append, find]
      split
      · rfl
      · split
        · rfl
        · exact ih _

end FileTree

end ProxyConfig
