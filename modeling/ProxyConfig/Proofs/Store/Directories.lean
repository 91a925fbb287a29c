import ProxyConfig.FileTree

/-!
Changes of one directory of a tree.  `graft` puts another tree in the place of what is found at a
path, and every change of an entry is a graft of its directory with other entries.  Main statements:
grafts and the making of directories keep all directories, so that paths with `..` in them keep
leading where they led, and making directories that are there changes nothing.
-/

namespace ProxyConfig.FileTree

def setChild (name : String) : Option FileTree → List (String × FileTree) → List (String × FileTree)
  | some t, entries => putChild name t entries
  | none, entries => eraseChild name entries

theorem child?_setChild (name other : String) (t : Option FileTree)
    (entries : List (String × FileTree)) :
    child? other (setChild name t entries) = if other = name then t else child? other entries := by
  cases t with
  | none => exact child?_eraseChild name other entries
  | some t => exact child?_putChild name other t entries

theorem putChild_of_child? {name : String} {t : FileTree} {entries : List (String × FileTree)}
    (there : child? name entries = some t) : putChild name t entries = entries := by
  induction entries with
  | nil => cases there
  | cons e entries ih =>
    obtain ⟨n, u⟩ := e
    rw [child?_cons] at there
    rw [putChild]
    split at there
    case isTrue same =>
      cases there
      simp [same]
    case isFalse other => rw [if_neg (Ne.symm other), ih there]

theorem putChild_putChild (name : String) (t u : FileTree) (entries : List (String × FileTree)) :
    putChild name t (putChild name u entries) = putChild name t entries := by
  induction entries with
  | nil => simp [putChild]
  | cons e entries ih =>
    obtain ⟨n, v⟩ := e
    by_cases same : n = name <;> simp [putChild, same, ih]

theorem find_cons_eq_ok {t u : FileTree} {name : String} {path : List String}
    (h : t.find (name :: path) = .ok u) :
    ∃ entries child, t = .directory entries ∧ ¬ nameLimit < name.utf8ByteSize ∧
      child? name entries = some child ∧ child.find path = .ok u := by
  cases t with
  | file content => cases h
  | directory entries =>
    rw [find] at h
    split at h
    · cases h
    · split at h
      · cases h
      · exact ⟨entries, _, rfl, ‹_›, ‹_›, h⟩

theorem find_cons_of_child? {entries : List (String × FileTree)} {name : String}
    {child : FileTree} (short : ¬ nameLimit < name.utf8ByteSize)
    (there : child? name entries = some child) (path : List String) :
    (directory entries).find (name :: path) = child.find path := by
  rw [find, if_neg short]
  simp only [there]

def childAt (name : String) (entries : List (String × FileTree)) : Except FileError FileTree :=
  match child? name entries with
  | none => .error .notFound
  | some t => .ok t

theorem find_entry {t : FileTree} {path : List String} {entries : List (String × FileTree)}
    (there : t.find path = .ok (.directory entries)) {name : String}
    (short : ¬ nameLimit < name.utf8ByteSize) :
    t.find (path ++ [name]) = childAt name entries := by
  rw [find_append, there, childAt]
  change (directory entries).find [name] = _
  rw [find, if_neg short]
  cases child? name entries <;> rfl

theorem find_tooLong {t : FileTree} {path : List String} {entries : List (String × FileTree)}
    (there : t.find path = .ok (.directory entries)) {name : String}
    (long : nameLimit < name.utf8ByteSize) : t.find (path ++ [name]) = .error .nameTooLong := by
  rw [find_append, there]
  simp only [Except.bind, find, if_pos long]

/-- The tree with another one in the place of what is found at a path. -/
def graft : FileTree → List String → FileTree → FileTree
  | _, [], u => u
  | .file content, _ :: _, _ => .file content
  | .directory entries, name :: rest, u =>
    .directory (putChild name (((child? name entries).getD empty).graft rest u) entries)

theorem find_graft {t old : FileTree} {path : List String} (there : t.find path = .ok old)
    (u : FileTree) : (t.graft path u).find path = .ok u := by
  induction path generalizing t with
  | nil => rfl
  | cons name path ih =>
    obtain ⟨entries, child, rfl, short, entry, found⟩ := find_cons_eq_ok there
    rw [graft, find_cons_of_child? short (by rw [child?_putChild, if_pos rfl])]
    simp only [entry, Option.getD_some, ih found]

theorem graft_self {t u : FileTree} {path : List String} (there : t.find path = .ok u) :
    t.graft path u = t := by
  induction path generalizing t with
  | nil =>
    cases there
    rfl
  | cons name path ih =>
    obtain ⟨entries, child, rfl, -, entry, found⟩ := find_cons_eq_ok there
    rw [graft, entry, Option.getD_some, ih found, putChild_of_child? entry]

theorem graft_graft {t old : FileTree} {path : List String} (there : t.find path = .ok old)
    (u v : FileTree) : (t.graft path u).graft path v = t.graft path v := by
  induction path generalizing t with
  | nil => rfl
  | cons name path ih =>
    obtain ⟨entries, child, rfl, -, entry, found⟩ := find_cons_eq_ok there
    simp only [graft, child?_putChild, entry, Option.getD_some, putChild_putChild, ih found,
      ↓reduceIte]

theorem graft_append {t : FileTree} {path : List String} {entries : List (String × FileTree)}
    (there : t.find path = .ok (.directory entries)) (name : String) (u : FileTree) :
    t.graft (path ++ [name]) u = t.graft path (.directory (putChild name u entries)) := by
  induction path generalizing t with
  | nil =>
    cases there
    rfl
  | cons first path ih =>
    obtain ⟨siblings, child, rfl, -, entry, found⟩ := find_cons_eq_ok there
    simp only [List.cons_append, graft, entry, Option.getD_some, ih found]

theorem alter_cons (f : Option FileTree → Except FileError (Option FileTree))
    {entries : List (String × FileTree)} {name : String} (short : ¬ nameLimit < name.utf8ByteSize)
    {child : FileTree} (there : child? name entries = some child) {path : List String}
    (more : path ≠ []) :
    (directory entries).alter f (name :: path) =
      (child.alter f path).map fun u => .directory (putChild name u entries) := by
  rw [alter.eq_4 _ _ _ _ more, if_neg short]
  simp only [there]
  rfl

theorem alter_append (f : Option FileTree → Except FileError (Option FileTree)) (t : FileTree)
    (path : List String) (name : String) :
    t.alter f (path ++ [name]) =
      (t.find path).bind fun u => (u.alter f [name]).map (t.graft path) := by
  induction path generalizing t with
  | nil =>
    change t.alter f [name] = (t.alter f [name]).map fun u => u
    cases t.alter f [name] <;> rfl
  | cons first path ih =>
    cases t with
    | file content => rfl
    | directory entries =>
      rw [List.cons_append]
      by_cases allowed : nameLimit < first.utf8ByteSize
      · rw [alter.eq_4 _ _ _ _ (by simp), find, if_pos allowed, if_pos allowed]
        rfl
      · cases entry : child? first entries with
        | none =>
          rw [alter.eq_4 _ _ _ _ (by simp), find, if_neg allowed, if_neg allowed]
          simp only [entry]
          rfl
        | some child =>
          -- on the way back, the changed child is put where the old one was
          rw [alter_cons f allowed entry (by simp), ih, find_cons_of_child? allowed entry]
          cases child.find path with
          | error e => rfl
          | ok u =>
            simp only [Except.bind]
            cases u.alter f [name] with
            | error e => rfl
            | ok v => simp only [Except.map, graft, entry, Option.getD_some]

section Alter

variable {t : FileTree} {path : List String} {name : String}
  {f : Option FileTree → Except FileError (Option FileTree)}

theorem alter_entry {entries : List (String × FileTree)}
    (there : t.find path = .ok (.directory entries)) (short : ¬ nameLimit < name.utf8ByteSize) :
    t.alter f (path ++ [name]) =
      (f (child? name entries)).map fun u => t.graft path (.directory (setChild name u entries)) := by
  rw [alter_append, there]
  simp only [Except.bind, alter, if_neg short]
  cases f (child? name entries) with
  | error e => rfl
  | ok u => cases u <;> rfl

theorem alter_tooLong {entries : List (String × FileTree)}
    (there : t.find path = .ok (.directory entries)) (long : nameLimit < name.utf8ByteSize) :
    t.alter f (path ++ [name]) = .error .nameTooLong := by
  rw [alter_append, there]
  simp only [Except.bind, alter, if_pos long]
  rfl

theorem alter_of_find_file {content : ByteArray} (there : t.find path = .ok (.file content)) :
    t.alter f (path ++ [name]) = .error .notDirectory := by
  rw [alter_append, there]
  rfl

theorem alter_of_find_error {e : FileError} (missing : t.find path = .error e) :
    t.alter f (path ++ [name]) = .error e := by
  rw [alter_append, missing]
  rfl

end Alter

/-- Every directory of the first tree is one of the second, perhaps with other entries. -/
def KeepsDirectories (t u : FileTree) : Prop :=
  ∀ path entries, t.find path = .ok (.directory entries) →
    ∃ others, u.find path = .ok (.directory others)

theorem KeepsDirectories.refl (t : FileTree) : t.KeepsDirectories t :=
  fun _ entries there => ⟨entries, there⟩

theorem KeepsDirectories.trans {t u v : FileTree} (first : t.KeepsDirectories u)
    (second : u.KeepsDirectories v) : t.KeepsDirectories v := by
  intro path entries there
  obtain ⟨others, between⟩ := first path entries there
  exact second path others between

theorem keepsDirectories_directory {entries others : List (String × FileTree)}
    (kept : ∀ name below, child? name entries = some (.directory below) →
      ∃ u, child? name others = some u ∧ (directory below).KeepsDirectories u) :
    (directory entries).KeepsDirectories (directory others) := by
  intro path below there
  cases path with
  | nil => exact ⟨others, rfl⟩
  | cons name path =>
    obtain ⟨_, child, same, short, entry, found⟩ := find_cons_eq_ok there
    cases same
    cases child with
    | file content => cases path <;> cases found
    | directory inner =>
      obtain ⟨u, entry', keeps⟩ := kept name inner entry
      rw [find_cons_of_child? short entry']
      exact keeps path below found

theorem keepsDirectories_graft {t : FileTree} {path : List String}
    {entries others : List (String × FileTree)} (there : t.find path = .ok (.directory entries))
    (kept : ∀ name below, child? name entries = some (.directory below) →
      child? name others = some (.directory below)) :
    t.KeepsDirectories (t.graft path (.directory others)) := by
  induction path generalizing t with
  | nil =>
    cases there
    exact keepsDirectories_directory fun name below entry => ⟨_, kept name below entry, .refl _⟩
  | cons first path ih =>
    obtain ⟨siblings, child, rfl, -, entry, found⟩ := find_cons_eq_ok there
    refine keepsDirectories_directory fun name below at_name => ?_
    rw [child?_putChild, entry, Option.getD_some]
    split
    case isTrue same =>
      rw [same, entry] at at_name
      cases at_name
      exact ⟨_, rfl, ih found⟩
    case isFalse => exact ⟨_, at_name, .refl _⟩

theorem keepsDirectories_makeDirectories (t : FileTree) (path : List String) :
    t.KeepsDirectories (t.makeDirectories path).2 := by
  induction path generalizing t with
  | nil => cases t <;> exact .refl _
  | cons first path ih =>
    cases t with
    | file content => exact .refl _
    | directory entries =>
      rw [makeDirectories]
      split
      · exact .refl _
      · refine keepsDirectories_directory fun name below at_name => ?_
        rw [child?_putChild]
        split
        case isTrue same =>
          rw [← same, at_name, Option.getD_some]
          exact ⟨_, rfl, ih _⟩
        case isFalse => exact ⟨_, at_name, .refl _⟩

theorem makeDirectories_of_find {t : FileTree} {path : List String}
    {entries : List (String × FileTree)} (there : t.find path = .ok (.directory entries)) :
    t.makeDirectories path = (none, t) := by
  induction path generalizing t with
  | nil =>
    cases there
    rfl
  | cons first path ih =>
    obtain ⟨siblings, child, rfl, short, entry, found⟩ := find_cons_eq_ok there
    simp only [makeDirectories, if_neg short, entry, Option.getD_some, ih found,
      putChild_of_child? entry]

theorem makeDirectories_append {t u : FileTree} {path : List String}
    (made : t.makeDirectories path = (none, u)) (more : List String) :
    t.makeDirectories (path ++ more) = u.makeDirectories (path ++ more) := by
  induction path generalizing t u with
  | nil =>
    cases t with
    | file content => cases made
    | directory entries =>
      cases made
      rfl
  | cons first path ih =>
    cases t with
    | file content => cases made
    | directory entries =>
      rw [makeDirectories] at made
      split at made
      case isTrue => cases made
      case isFalse short =>
        rcases result : ((child? first entries).getD empty).makeDirectories path with ⟨e, below⟩
        simp only [result, Prod.mk.injEq] at made
        obtain ⟨rfl, rfl⟩ := made
        simp only [List.cons_append, makeDirectories, if_neg short, ih result, child?_putChild,
          Option.getD_some, putChild_putChild, ↓reduceIte]

theorem makeDirectories_new {t : FileTree} {path : List String}
    {entries : List (String × FileTree)} (there : t.find path = .ok (.directory entries))
    {name : String} (short : ¬ nameLimit < name.utf8ByteSize)
    (missing : child? name entries = none) :
    t.makeDirectories (path ++ [name]) =
      (none, t.graft path (.directory (putChild name empty entries))) := by
  induction path generalizing t with
  | nil =>
    cases there
    simp only [List.nil_append, makeDirectories, if_neg short, missing, Option.getD_none]
    rfl
  | cons first path ih =>
    obtain ⟨siblings, child, rfl, allowed, entry, found⟩ := find_cons_eq_ok there
    simp only [List.cons_append, makeDirectories, if_neg allowed, entry, Option.getD_some,
      ih found, graft]

theorem makeDirectories_of_file {t : FileTree} {path : List String}
    {entries : List (String × FileTree)} (there : t.find path = .ok (.directory entries))
    {name : String} (short : ¬ nameLimit < name.utf8ByteSize) {content : ByteArray}
    (taken : child? name entries = some (.file content)) :
    t.makeDirectories (path ++ [name]) = (some .notDirectory, t) := by
  induction path generalizing t with
  | nil =>
    cases there
    simp only [List.nil_append, makeDirectories, if_neg short, taken, Option.getD_some,
      putChild_of_child? taken]
  | cons first path ih =>
    obtain ⟨siblings, child, rfl, allowed, entry, found⟩ := find_cons_eq_ok there
    simp only [List.cons_append, makeDirectories, if_neg allowed, entry, Option.getD_some,
      ih found, putChild_of_child? entry]

/-- Directories that were made either were there, or were missing and are empty now. -/
theorem find_of_makeDirectories {t u : FileTree} {path : List String}
    (made : t.makeDirectories path = (none, u)) :
    (u = t ∧ ∃ entries, t.find path = .ok (.directory entries)) ∨
      (t.find path = .error .notFound ∧ u.find path = .ok empty) := by
  induction path generalizing t u with
  | nil =>
    cases t with
    | file content => cases made
    | directory entries =>
      cases made
      exact .inl ⟨rfl, entries, rfl⟩
  | cons first path ih =>
    cases t with
    | file content => cases made
    | directory entries =>
      rw [makeDirectories] at made
      split at made
      case isTrue => cases made
      case isFalse short =>
        rcases result : ((child? first entries).getD empty).makeDirectories path with ⟨e, below⟩
        simp only [result, Prod.mk.injEq] at made
        obtain ⟨rfl, rfl⟩ := made
        have now : (directory (putChild first below entries)).find (first :: path) =
            below.find path :=
          find_cons_of_child? short (by rw [child?_putChild, if_pos rfl]) path
        rw [now]
        -- below a missing directory nothing is found, and what is made there is new
        cases entry : child? first entries with
        | some child =>
          rw [entry, Option.getD_some] at result
          rw [find_cons_of_child? short entry]
          refine (ih result).imp_left fun ⟨same, found⟩ => ⟨?_, found⟩
          rw [same, putChild_of_child? entry]
        | none =>
          rw [entry, Option.getD_none] at result
          refine .inr ⟨by simp [find, if_neg short, entry], ?_⟩
          rcases ih result with ⟨rfl, others, found⟩ | ⟨-, found⟩
          · cases path with
            | nil => rfl
            | cons second path =>
              obtain ⟨_, child, same, -, entry, -⟩ := find_cons_eq_ok found
              cases same
              cases entry
          · exact found

end ProxyConfig.FileTree
