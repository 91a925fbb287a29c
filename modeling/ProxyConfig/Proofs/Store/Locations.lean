import ProxyConfig.Proofs.Store.Directories
import ProxyConfig.Proofs.Store.EntryPaths

/-!
Where paths in text lead in a tree.  `LeadsTo` says that a path leads to a directory, and `Shows`
what a directory holds for those who make it before they write: its entries if it is there, none if
it has to be made first.  Main statements: a path that was made leads somewhere, and it keeps
leading there when entries change; a file of a directory is read from its entries alone.
-/

namespace ProxyConfig.FileTree

open ProxyConfig.Path

theorem resolve_up (t : FileTree) (above rest : List String) :
    t.resolve above (".." :: rest) =
      (t.list above.reverse).bind fun _ => t.resolve above.tail rest := rfl

theorem resolve_name (t : FileTree) (above : List String) {name : String} (down : name ≠ "..")
    (rest : List String) : t.resolve above (name :: rest) = t.resolve (name :: above) rest := by
  rw [resolve.eq_3]
  simpa using down

theorem makeAlong_name (above : List String) {name : String} (down : name ≠ "..")
    (rest : List String) (t : FileTree) :
    makeAlong above (name :: rest) t = makeAlong (name :: above) rest t := by
  rw [makeAlong.eq_3]
  simpa using down

theorem list_eq_ok_iff {t : FileTree} {path : List String} {entries : List (String × FileTree)} :
    t.list path = .ok entries ↔ t.find path = .ok (.directory entries) := by
  rw [list]
  cases t.find path with
  | error e => exact ⟨nofun, nofun⟩
  | ok u =>
    cases u with
    | file content => exact ⟨nofun, nofun⟩
    | directory others =>
      exact ⟨fun same => by cases same; rfl, fun same => by cases same; rfl⟩

theorem resolve_up_eq_ok_iff {t : FileTree} {above rest names : List String} :
    t.resolve above (".." :: rest) = .ok names ↔
      (∃ entries, t.find above.reverse = .ok (.directory entries)) ∧
        t.resolve above.tail rest = .ok names := by
  rw [resolve_up]
  simp only [← list_eq_ok_iff]
  cases t.list above.reverse with
  | error e => exact ⟨nofun, fun ⟨⟨_, there⟩, _⟩ => nomatch there⟩
  | ok entries => exact ⟨fun leads => ⟨⟨entries, rfl⟩, leads⟩, And.right⟩

theorem resolve_append {t : FileTree} {above path : List String} {name : String}
    (down : name ≠ "..") :
    t.resolve above (path ++ [name]) = (t.resolve above path).map (· ++ [name]) := by
  induction path generalizing above with
  | nil =>
    rw [List.nil_append, resolve_name t above down]
    simp [resolve, Except.map]
  | cons first path ih =>
    rw [List.cons_append]
    by_cases up : first = ".."
    · subst up
      rw [resolve_up, resolve_up]
      cases t.list above.reverse with
      | error e => rfl
      | ok entries => exact ih
    · rw [resolve_name t above up, resolve_name t above up, ih]

/-- Steps upwards lead out of directories, so a path leads where it led while these stay. -/
theorem resolve_of_keeps {t u : FileTree} (keeps : t.KeepsDirectories u)
    {above path names : List String} (leads : t.resolve above path = .ok names) :
    u.resolve above path = .ok names := by
  -- the tree is looked at for steps upwards only
  induction path generalizing above with
  | nil => exact leads
  | cons first path ih =>
    by_cases up : first = ".."
    · subst up
      obtain ⟨⟨entries, there⟩, leads⟩ := resolve_up_eq_ok_iff.1 leads
      exact resolve_up_eq_ok_iff.2 ⟨keeps _ _ there, ih leads⟩
    · rw [resolve_name _ _ up] at leads ⊢
      exact ih leads

theorem makeAlong_of_resolve {t : FileTree} {above path names : List String}
    {entries : List (String × FileTree)} (leads : t.resolve above path = .ok names)
    (there : t.find names = .ok (.directory entries)) : makeAlong above path t = (none, t) := by
  induction path generalizing above with
  | nil =>
    cases leads
    exact makeDirectories_of_find there
  | cons first path ih =>
    by_cases up : first = ".."
    · subst up
      obtain ⟨⟨others, passed⟩, leads⟩ := resolve_up_eq_ok_iff.1 leads
      rw [makeAlong, makeDirectories_of_find passed]
      exact ih leads
    · rw [resolve_name _ _ up] at leads
      rw [makeAlong_name above up]
      exact ih leads

theorem keepsDirectories_makeAlong (t : FileTree) (above path : List String) :
    t.KeepsDirectories (makeAlong above path t).2 := by
  induction path generalizing above t with
  | nil => exact keepsDirectories_makeDirectories t above.reverse
  | cons first path ih =>
    by_cases up : first = ".."
    · subst up
      rw [makeAlong]
      have passed := keepsDirectories_makeDirectories t above.reverse
      split
      case h_1 u made =>
        rw [made] at passed
        exact passed.trans (ih u above.tail)
      case h_2 => exact passed
    · rw [makeAlong_name above up]
      exact ih t (first :: above)

theorem makeAlong_up {t u : FileTree} {above path : List String}
    (made : makeAlong above (".." :: path) t = (none, u)) :
    ∃ v, t.makeDirectories above.reverse = (none, v) ∧
      makeAlong above.tail path v = (none, u) := by
  rw [makeAlong] at made
  split at made
  case h_1 v passed => exact ⟨v, passed, made⟩
  case h_2 failed => exact absurd made (failed u)

theorem resolve_of_makeAlong {t u : FileTree} {above path : List String}
    (made : makeAlong above path t = (none, u)) :
    ∃ names entries, u.resolve above path = .ok names ∧
      u.find names = .ok (.directory entries) := by
  induction path generalizing above t with
  | nil =>
    refine ⟨above.reverse, ?_⟩
    rcases find_of_makeDirectories made with ⟨rfl, entries, there⟩ | ⟨-, there⟩
    · exact ⟨entries, rfl, there⟩
    · exact ⟨[], rfl, there⟩
  | cons first path ih =>
    by_cases up : first = ".."
    · subst up
      obtain ⟨v, passed, more⟩ := makeAlong_up made
      obtain ⟨names, entries, leads, there⟩ := ih more
      -- what was made first is still there when the rest has been made
      have keeps := keepsDirectories_makeAlong v above.tail path
      rw [more] at keeps
      have stays : ∃ others, v.find above.reverse = .ok (.directory others) := by
        rcases find_of_makeDirectories passed with ⟨rfl, there⟩ | ⟨-, there⟩
        · exact there
        · exact ⟨[], there⟩
      obtain ⟨others, left⟩ := stays
      exact ⟨names, entries, resolve_up_eq_ok_iff.2 ⟨keeps _ _ left, leads⟩, there⟩
    · rw [makeAlong_name above up] at made
      obtain ⟨names, entries, leads, there⟩ := ih made
      exact ⟨names, entries, by rw [resolve_name _ _ up, leads], there⟩

theorem makeAlong_append {t u : FileTree} {above path names : List String} {name : String}
    (made : makeAlong above path t = (none, u)) (leads : u.resolve above path = .ok names)
    (down : name ≠ "..") :
    makeAlong above (path ++ [name]) t = u.makeDirectories (names ++ [name]) := by
  induction path generalizing above t with
  | nil =>
    cases leads
    rw [List.nil_append, makeAlong_name above down, makeAlong, List.reverse_cons]
    exact makeDirectories_append made [name]
  | cons first path ih =>
    by_cases up : first = ".."
    · subst up
      obtain ⟨v, passed, more⟩ := makeAlong_up made
      rw [List.cons_append, makeAlong, passed]
      exact ih more (resolve_up_eq_ok_iff.1 leads).2
    · rw [makeAlong_name above up] at made
      rw [resolve_name _ _ up] at leads
      rw [List.cons_append, makeAlong_name above up]
      exact ih made leads

theorem notFound_of_makeAlong {t u : FileTree} {above path : List String}
    (made : makeAlong above path t = (none, u)) :
    u = t ∨ (t.resolve above path).bind t.find = .error .notFound := by
  induction path generalizing above t with
  | nil => exact (find_of_makeDirectories made).imp And.left And.left
  | cons first path ih =>
    by_cases up : first = ".."
    · subst up
      obtain ⟨v, passed, more⟩ := makeAlong_up made
      rw [resolve_up]
      rcases find_of_makeDirectories passed with ⟨rfl, entries, there⟩ | ⟨missing, -⟩
      · rw [list_eq_ok_iff.2 there]
        exact ih more
      · refine .inr ?_
        rw [list, missing]
        rfl
    · rw [makeAlong_name above up] at made
      rw [resolve_name _ _ up]
      exact ih made

/-- A path leads to the directory at `names`, which has the entries. -/
structure LeadsTo (t : FileTree) (directory : String) (names : List String)
    (entries : List (String × FileTree)) : Prop where
  text : '\x00' ∉ directory.toList
  leads : t.resolve [] (components directory) = .ok names
  found : t.find names = .ok (.directory entries)

variable {t u : FileTree} {directory name : String} {names : List String}
  {entries others : List (String × FileTree)}

theorem LeadsTo.makePath (led : t.LeadsTo directory names entries) :
    t.makePath directory = (none, t) := by
  rw [FileTree.makePath, if_neg led.text, makeAlong_of_resolve led.leads led.found]

theorem exists_leadsTo_of_makePath (made : t.makePath directory = (none, u)) :
    ∃ names entries, u.LeadsTo directory names entries := by
  rw [FileTree.makePath] at made
  split at made
  case isTrue => cases made
  case isFalse text =>
    obtain ⟨names, entries, leads, found⟩ := resolve_of_makeAlong made
    exact ⟨names, entries, text, leads, found⟩

theorem LeadsTo.graft (led : t.LeadsTo directory names entries)
    (kept : ∀ name below, child? name entries = some (.directory below) →
      child? name others = some (.directory below)) :
    (t.graft names (.directory others)).LeadsTo directory names others where
  text := led.text
  leads := resolve_of_keeps (keepsDirectories_graft led.found kept) led.leads
  found := find_graft led.found _

theorem makePath_parent_join (plain : Plain name) (t : FileTree) (directory : String) :
    t.makePath (parent (join directory name)) = t.makePath directory := by
  obtain ⟨same, zero⟩ := parent_join plain directory
  simp only [FileTree.makePath, same, zero]

theorem locateFile_join (plain : Plain name) (t : FileTree) {directory : String}
    (text : '\x00' ∉ directory.toList) :
    t.locateFile (join directory name) =
      (t.resolve [] (components directory)).map (· ++ [name]) := by
  have some : (join directory name).isEmpty = false :=
    Bool.eq_false_iff.2 (mt String.isEmpty_iff.1 (join_ne_empty plain directory))
  rw [locateFile, not_leadsToDirectory_join plain, if_neg Bool.false_ne_true, locate,
    if_neg (mt (zero_mem_join_iff plain directory).1 text), some, if_neg Bool.false_ne_true,
    components_join plain, resolve_append plain.notUp]

theorem LeadsTo.locateFile (led : t.LeadsTo directory names entries) (plain : Plain name) :
    t.locateFile (join directory name) = .ok (names ++ [name]) := by
  rw [locateFile_join plain t led.text, led.leads]
  rfl

theorem LeadsTo.locate (led : t.LeadsTo directory names entries) (some : directory ≠ "") :
    t.locate directory = .ok names := by
  rw [FileTree.locate, if_neg led.text, if_neg (mt String.isEmpty_iff.1 some), led.leads]

def contentOf : Option FileTree → Except FileError ByteArray
  | none => .error .notFound
  | some (.file content) => .ok content
  | some (.directory _) => .error .isDirectory

theorem LeadsTo.readPath (led : t.LeadsTo directory names entries) (plain : Plain name)
    (short : ¬ nameLimit < name.utf8ByteSize) :
    t.readPath (join directory name) = contentOf (child? name entries) := by
  rw [FileTree.readPath, led.locateFile plain]
  change t.read (names ++ [name]) = _
  rw [read, find_entry led.found short, childAt]
  cases child? name entries with
  | none => rfl
  | some u => cases u <;> rfl

/-- What a directory holds once it is made: its entries if it is there, none if it was missing. -/
def Shows (t : FileTree) (directory : String) (entries : List (String × FileTree)) : Prop :=
  ∃ u names, t.makePath directory = (none, u) ∧ u.LeadsTo directory names entries ∧
    (u = t ∨ entries = [])

theorem LeadsTo.shows (led : t.LeadsTo directory names entries) : t.Shows directory entries :=
  ⟨t, names, led.makePath, led, .inl rfl⟩

theorem shows_of_makePath (made : t.makePath directory = (none, u)) :
    ∃ entries, u.Shows directory entries := by
  obtain ⟨names, entries, led⟩ := exists_leadsTo_of_makePath made
  exact ⟨entries, led.shows⟩

theorem notFound_of_makePath (made : t.makePath directory = (none, u)) (new : u ≠ t) :
    '\x00' ∉ directory.toList ∧
      (t.resolve [] (components directory) = .error .notFound ∨
        ∃ names, t.resolve [] (components directory) = .ok names ∧
          t.find names = .error .notFound) := by
  rw [FileTree.makePath] at made
  split at made
  case isTrue => cases made
  case isFalse text =>
    refine ⟨text, ?_⟩
    have missing := (notFound_of_makeAlong made).resolve_left new
    cases leads : t.resolve [] (components directory) with
    | error e =>
      rw [leads] at missing
      cases missing
      exact .inl rfl
    | ok names =>
      rw [leads] at missing
      exact .inr ⟨names, rfl, missing⟩

theorem readPath_of_makePath (made : t.makePath directory = (none, u)) (new : u ≠ t)
    (plain : Plain name) : t.readPath (join directory name) = .error .notFound := by
  obtain ⟨text, leads | ⟨names, leads, missing⟩⟩ := notFound_of_makePath made new
  · rw [FileTree.readPath, locateFile_join plain t text, leads]
    rfl
  · rw [FileTree.readPath, locateFile_join plain t text, leads]
    change t.read (names ++ [name]) = _
    rw [read, find_append, missing]
    rfl

theorem Shows.readPath (shows : t.Shows directory entries) (plain : Plain name)
    (short : ¬ nameLimit < name.utf8ByteSize) :
    t.readPath (join directory name) = contentOf (child? name entries) := by
  obtain ⟨u, names, made, led, here⟩ := shows
  by_cases same : u = t
  · subst same
    exact led.readPath plain short
  · rw [readPath_of_makePath made same plain, here.resolve_left same]
    rfl

theorem Shows.readPath_eq_ok_iff (shows : t.Shows directory entries) (plain : Plain name)
    (content : ByteArray) :
    t.readPath (join directory name) = .ok content ↔
      ¬ nameLimit < name.utf8ByteSize ∧ child? name entries = some (.file content) := by
  by_cases long : nameLimit < name.utf8ByteSize
  · obtain ⟨u, names, made, led, -⟩ := shows
    refine ⟨fun done => ?_, fun ⟨short, _⟩ => absurd long short⟩
    by_cases same : u = t
    · subst same
      rw [FileTree.readPath, led.locateFile plain] at done
      change u.read (names ++ [name]) = .ok content at done
      rw [read, find_tooLong led.found long] at done
      cases done
    · rw [readPath_of_makePath made same plain] at done
      cases done
  · rw [shows.readPath plain long]
    rcases child? name entries with _ | ⟨other⟩ | ⟨below⟩
    · simp [contentOf]
    · simp [contentOf, long]
    · simp [contentOf]

theorem Shows.listPath (shows : t.Shows directory entries) (some : directory ≠ "") :
    t.listPath directory = .ok entries ∨
      t.listPath directory = .error .notFound ∧ entries = [] := by
  obtain ⟨u, names, made, led, here⟩ := shows
  by_cases same : u = t
  · subst same
    rw [FileTree.listPath, led.locate some]
    exact .inl (list_eq_ok_iff.2 led.found)
  · obtain ⟨text, leads⟩ := notFound_of_makePath made same
    refine .inr ⟨?_, here.resolve_left same⟩
    rw [FileTree.listPath, FileTree.locate, if_neg text, if_neg (mt String.isEmpty_iff.1 some)]
    obtain leads | ⟨names, leads, missing⟩ := leads
    · rw [leads]
      rfl
    · rw [leads]
      change t.list names = _
      rw [list, missing]
      rfl

theorem makePath_join (made : t.makePath directory = (none, u))
    (led : u.LeadsTo directory names entries) (plain : Plain name) :
    t.makePath (join directory name) = u.makeDirectories (names ++ [name]) := by
  rw [FileTree.makePath, if_neg led.text] at made
  rw [FileTree.makePath, if_neg (mt (zero_mem_join_iff plain directory).1 led.text),
    components_join plain, makeAlong_append made led.leads plain.notUp]

theorem LeadsTo.inside (led : t.LeadsTo directory names entries) (plain : Plain name)
    (short : ¬ nameLimit < name.utf8ByteSize) {below : List (String × FileTree)}
    (entry : child? name entries = some (.directory below)) :
    t.LeadsTo (join directory name) (names ++ [name]) below where
  text := mt (zero_mem_join_iff plain directory).1 led.text
  leads := by
    rw [components_join plain, resolve_append plain.notUp, led.leads]
    rfl
  found := by rw [find_entry led.found short, childAt, entry]

theorem LeadsTo.make (led : t.LeadsTo directory names entries)
    (short : ¬ nameLimit < name.utf8ByteSize) (missing : child? name entries = none) :
    t.makeDirectories (names ++ [name]) =
        (none, t.graft names (.directory (putChild name empty entries))) ∧
      (t.graft names (.directory (putChild name empty entries))).LeadsTo directory names
        (putChild name empty entries) := by
  refine ⟨makeDirectories_new led.found short missing, led.graft fun other deep there => ?_⟩
  rw [child?_putChild]
  split
  case isTrue same =>
    rw [same, missing] at there
    cases there
  case isFalse => exact there

theorem Shows.inside (shows : t.Shows directory entries) (plain : Plain name)
    (short : ¬ nameLimit < name.utf8ByteSize) {below : List (String × FileTree)}
    (held : (child? name entries).getD empty = .directory below) :
    t.Shows (join directory name) below := by
  obtain ⟨u, names, made, led, here⟩ := shows
  -- a missing directory is made, and one that is there shows that the outer one is there as well
  cases entry : child? name entries with
  | none =>
    obtain rfl : below = [] := by
      rw [entry, Option.getD_none] at held
      cases held
      rfl
    obtain ⟨added, now⟩ := led.make short entry
    refine ⟨_, names ++ [name], (makePath_join made led plain).trans added,
      now.inside plain short ?_, .inr rfl⟩
    rw [child?_putChild, if_pos rfl]
    rfl
  | some child =>
    rw [entry, Option.getD_some] at held
    subst held
    have same : u = t := here.resolve_right fun none => by simp [none] at entry
    subst same
    exact (led.inside plain short entry).shows

end ProxyConfig.FileTree
