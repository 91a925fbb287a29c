import Mathlib.Data.List.Induction
import ProxyConfig.Proofs.Store.CertificateChanges

/-!
Which paths a change of the files touches.  A path is touched if another file, a directory or nothing
stands there afterwards.  Main statements: making the directories of a path makes some of those that
the path leads through, and touches nothing else; changing the entries of a directory touches those
entries alone; so saving a certificate makes its directory and changes two entries in it, and
deleting one takes away one entry.
-/

namespace ProxyConfig

open FileTree ProxyConfig.Path Store

namespace FileTree

inductive Node where
  | file (content : ByteArray)
  | directory

instance : DecidableEq Node
  | .file a, .file b => decidable_of_iff (a.data = b.data)
    ⟨fun same => congrArg Node.file (ByteArray.ext same), fun same => by cases same; rfl⟩
  | .file _, .directory => isFalse (by simp)
  | .directory, .file _ => isFalse (by simp)
  | .directory, .directory => isTrue rfl

def node : FileTree → Node
  | .file content => .file content
  | .directory _ => .directory

def nodeAt (t : FileTree) (path : List String) : Option Node :=
  (t.find path).toOption.map node

/-- Something else stands at the path in the second tree than in the first. -/
def Touched (t u : FileTree) (path : List String) : Prop := u.nodeAt path ≠ t.nodeAt path

instance (t u : FileTree) (path : List String) : Decidable (Touched t u path) :=
  inferInstanceAs (Decidable (_ ≠ _))

@[simp] theorem nodeAt_nil (t : FileTree) : t.nodeAt [] = some t.node := rfl

@[simp] theorem nodeAt_file_cons (content : ByteArray) (name : String) (path : List String) :
    (file content).nodeAt (name :: path) = none := rfl

theorem nodeAt_cons (entries : List (String × FileTree)) (name : String) (path : List String) :
    (directory entries).nodeAt (name :: path) =
      if nameLimit < name.utf8ByteSize then none
      else (child? name entries).bind fun t => t.nodeAt path := by
  rw [nodeAt, find]
  split
  · rfl
  · cases child? name entries <;> rfl

theorem touched_putChild {entries : List (String × FileTree)} {name : String} {u : FileTree}
    {path : List String}
    (touched : Touched (directory entries) (directory (putChild name u entries)) path) :
    ∃ rest, path = name :: rest ∧
      (directory entries).nodeAt path = (child? name entries).bind (nodeAt · rest) ∧
      (directory (putChild name u entries)).nodeAt path = u.nodeAt rest := by
  cases path with
  | nil => exact absurd rfl touched
  | cons first rest =>
    rw [Touched, nodeAt_cons, nodeAt_cons, child?_putChild] at touched
    by_cases long : nameLimit < first.utf8ByteSize
    · exact absurd (by rw [if_pos long, if_pos long]) touched
    · by_cases same : first = name
      · subst same
        exact ⟨rest, rfl, by rw [nodeAt_cons, if_neg long],
          by rw [nodeAt_cons, if_neg long, child?_putChild, if_pos rfl, Option.bind_some]⟩
      · exact absurd (by rw [if_neg same]) touched

/-- Directories are made at some of the paths, where nothing was, and nothing else is touched. -/
def Makes (allowed : List String → Prop) (t u : FileTree) : Prop :=
  ∀ path, Touched t u path →
    allowed path ∧ t.nodeAt path = none ∧ u.nodeAt path = some .directory

theorem Makes.refl (allowed : List String → Prop) (t : FileTree) : Makes allowed t t :=
  fun _ touched => absurd rfl touched

theorem Makes.mono {allowed more : List String → Prop} (le : ∀ path, allowed path → more path)
    {t u : FileTree} (makes : Makes allowed t u) : Makes more t u :=
  fun path touched => (makes path touched).imp_left (le path)

theorem Makes.trans {allowed : List String → Prop} {t u v : FileTree} (first : Makes allowed t u)
    (second : Makes allowed u v) : Makes allowed t v := by
  intro path touched
  by_cases early : u.nodeAt path = t.nodeAt path
  · have late : Touched u v path := fun same => touched (same.trans early)
    rw [← early]
    exact second path late
  · obtain ⟨here, missing, made⟩ := first path early
    -- what was made is a directory, and the second change makes directories where nothing is
    by_cases late : v.nodeAt path = u.nodeAt path
    · exact ⟨here, missing, late.trans made⟩
    · rw [(second path late).2.1] at made
      cases made

theorem node_makeDirectories (entries : List (String × FileTree)) (path : List String) :
    ((directory entries).makeDirectories path).2.node = .directory := by
  cases path with
  | nil => rfl
  | cons name path =>
    rw [makeDirectories]
    split <;> rfl

theorem makes_makeDirectories (t : FileTree) (names : List String) :
    Makes (· <+: names) t (t.makeDirectories names).2 := by
  induction names generalizing t with
  | nil => cases t <;> exact .refl _ _
  | cons name names ih =>
    cases t with
    | file content => exact .refl _ _
    | directory entries =>
      rw [makeDirectories]
      split
      case isTrue => exact .refl _ _
      case isFalse short =>
        intro path touched
        obtain ⟨rest, rfl, before, after⟩ := touched_putChild touched
        rw [Touched, before, after] at touched
        rw [before, after]
        cases entry : child? name entries with
        | some child =>
          rw [entry] at touched
          obtain ⟨further, missing, made⟩ := ih child rest touched
          exact ⟨List.cons_prefix_cons.2 ⟨rfl, further⟩, missing, made⟩
        | none =>
          -- the directory itself is new, and so is all that was made below it
          rw [entry] at touched
          have new : rest <+: names ∧
              (empty.makeDirectories names).2.nodeAt rest = some .directory := by
            cases rest with
            | nil => exact ⟨List.nil_prefix, by rw [nodeAt_nil, empty, node_makeDirectories]⟩
            | cons second rest =>
              have missing : empty.nodeAt (second :: rest) = none := by
                rw [empty, nodeAt_cons]
                split <;> rfl
              have below : Touched empty (empty.makeDirectories names).2 (second :: rest) := by
                rw [Touched, missing]
                exact touched
              obtain ⟨further, -, made⟩ := ih empty (second :: rest) below
              exact ⟨further, made⟩
          exact ⟨List.cons_prefix_cons.2 ⟨rfl, new.1⟩, rfl, new.2⟩

/-- One component further: a step upwards takes the last name back. -/
def stepTo (names : List String) (component : String) : List String :=
  if component = ".." then names.dropLast else names ++ [component]

def location (components : List String) : List String := components.foldl stepTo []

def Through (directory : String) (path : List String) : Prop :=
  ∃ front, front <+: components directory ∧ path = location front

theorem stepTo_up (above : List String) : stepTo above.reverse ".." = above.tail.reverse := by
  rw [stepTo, if_pos rfl, List.dropLast_reverse]

theorem stepTo_name (above : List String) {name : String} (down : name ≠ "..") :
    stepTo above.reverse name = (name :: above).reverse := by
  rw [stepTo, if_neg down, List.reverse_cons]

theorem eq_of_resolve {t : FileTree} {above path names : List String}
    (leads : t.resolve above path = .ok names) : names = path.foldl stepTo above.reverse := by
  induction path generalizing above with
  | nil =>
    cases leads
    rfl
  | cons first path ih =>
    rw [List.foldl_cons]
    by_cases up : first = ".."
    · subst up
      rw [stepTo_up]
      exact ih (resolve_up_eq_ok_iff.1 leads).2
    · rw [resolve_name t above up] at leads
      rw [stepTo_name above up]
      exact ih leads

/-- What components lead past from `names`: each directory they lead to, and what that is in. -/
def Passed (names components path : List String) : Prop :=
  ∃ front, front <+: components ∧ path <+: front.foldl stepTo names

theorem passed_of_prefix {names path : List String} (here : path <+: names)
    (components : List String) : Passed names components path :=
  ⟨[], List.nil_prefix, here⟩

theorem Passed.cons {names components path : List String} {first : String}
    (passed : Passed (stepTo names first) components path) :
    Passed names (first :: components) path := by
  obtain ⟨front, before, here⟩ := passed
  exact ⟨first :: front, List.cons_prefix_cons.2 ⟨rfl, before⟩, here⟩

theorem makes_makeAlong (above components : List String) (t : FileTree) :
    Makes (Passed above.reverse components) t (makeAlong above components t).2 := by
  induction components generalizing above t with
  | nil =>
    exact (makes_makeDirectories t above.reverse).mono fun path here => passed_of_prefix here []
  | cons first components ih =>
    by_cases up : first = ".."
    · subst up
      -- what is left upwards is made before it is left
      have passing : Makes (Passed above.reverse (".." :: components)) t
          (t.makeDirectories above.reverse).2 :=
        (makes_makeDirectories t above.reverse).mono fun path here => passed_of_prefix here _
      rw [makeAlong]
      split
      case h_1 u made =>
        rw [made] at passing
        have further := ih above.tail u
        rw [← stepTo_up] at further
        exact passing.trans (further.mono fun path => Passed.cons)
      case h_2 => exact passing
    · have further := ih (first :: above) t
      rw [← stepTo_name above up] at further
      rw [makeAlong_name above up]
      exact further.mono fun path => Passed.cons

theorem exists_location_of_prefix {components names : List String}
    (before : names <+: location components) :
    ∃ front, front <+: components ∧ names = location front := by
  induction components using List.reverseRecOn with
  | nil => exact ⟨[], List.nil_prefix, List.prefix_nil.1 before⟩
  | append_singleton components last ih =>
    have shorter (earlier : names <+: location components) :
        ∃ front, front <+: components ++ [last] ∧ names = location front := by
      obtain ⟨front, further, eq⟩ := ih earlier
      exact ⟨front, further.trans (List.prefix_append _ _), eq⟩
    have whole : location (components ++ [last]) = stepTo (location components) last := by
      rw [location, List.foldl_append]
      rfl
    rw [whole, stepTo] at before
    split at before
    · exact shorter (before.trans (List.dropLast_prefix _))
    · rcases List.prefix_concat_iff.1 before with same | earlier
      · exact ⟨components ++ [last], List.prefix_rfl, by rw [whole, stepTo, if_neg ‹_›, same]⟩
      · exact shorter earlier

/-- Making the directories of a path touches what is missing of those that it leads through. -/
theorem makes_makePath (t : FileTree) (directory : String) :
    Makes (Through directory) t (t.makePath directory).2 := by
  rw [makePath]
  split
  case isTrue => exact .refl _ _
  case isFalse =>
    refine (makes_makeAlong [] (components directory) t).mono fun path passed => ?_
    obtain ⟨front, before, here⟩ := passed
    obtain ⟨least, further, eq⟩ := exists_location_of_prefix here
    exact ⟨least, further.trans before, eq⟩

section Entries

variable {t : FileTree} {names path : List String} {entries others : List (String × FileTree)}

theorem nodeAt_entry (there : t.find names = .ok (.directory entries)) (name : String) :
    t.nodeAt (names ++ [name]) =
      if nameLimit < name.utf8ByteSize then none else (child? name entries).map node := by
  split
  case isTrue long =>
    rw [nodeAt, find_tooLong there long]
    rfl
  case isFalse short =>
    rw [nodeAt, find_entry there short, childAt]
    cases child? name entries <;> rfl

theorem nodeAt_entry_ne_directory (there : t.find names = .ok (.directory entries)) {name : String}
    (free : Writable name entries) : t.nodeAt (names ++ [name]) ≠ some .directory := by
  rw [nodeAt_entry there]
  rcases entry : child? name entries with _ | ⟨content⟩ | ⟨below⟩
  · simp
  · simp [node]
  · exact absurd entry (free.ne_directory below)

theorem nodeAt_below {name : String} (free : Writable name entries) {rest : List String}
    (more : rest ≠ []) : (directory entries).nodeAt (name :: rest) = none := by
  obtain ⟨second, rest, rfl⟩ := List.exists_cons_of_ne_nil more
  rw [nodeAt_cons]
  rcases entry : child? name entries with _ | ⟨content⟩ | ⟨below⟩
  · simp
  · simp
  · exact absurd entry (free.ne_directory below)

theorem touched_graft (there : t.find names = .ok (.directory entries))
    (free : ∀ name, child? name others ≠ child? name entries →
      Writable name entries ∧ Writable name others)
    (touched : Touched t (t.graft names (.directory others)) path) :
    ∃ name, path = names ++ [name] ∧ child? name others ≠ child? name entries := by
  induction names generalizing t path with
  | nil =>
    cases there
    cases path with
    | nil => exact absurd rfl touched
    | cons name rest =>
      have changed : child? name others ≠ child? name entries := fun same =>
        touched (by rw [graft, nodeAt_cons, nodeAt_cons, same])
      by_cases last : rest = []
      · exact ⟨name, by rw [last]; rfl, changed⟩
      · obtain ⟨before, after⟩ := free name changed
        exact absurd ((nodeAt_below after last).trans (nodeAt_below before last).symm) touched
  | cons first names ih =>
    obtain ⟨siblings, child, rfl, -, entry, found⟩ := find_cons_eq_ok there
    obtain ⟨rest, rfl, before, after⟩ := touched_putChild touched
    rw [Touched, graft, before, after, entry] at touched
    obtain ⟨name, rfl, changed⟩ := ih found touched
    exact ⟨name, rfl, changed⟩

theorem touched_graft_eraseChild (there : t.find names = .ok (.directory entries)) {name : String}
    {content : ByteArray} (stored : child? name entries = some (.file content))
    (touched : Touched t (t.graft names (.directory (eraseChild name entries))) path) :
    path = names ++ [name] ∧ t.nodeAt path = some (.file content) ∧
      (t.graft names (.directory (eraseChild name entries))).nodeAt path = none := by
  have free : Writable name entries := by simp [Writable, stored, isDirectory]
  have gone : Writable name (eraseChild name entries) := by simp [Writable, child?_eraseChild]
  have changes {other : String}
      (changed : child? other (eraseChild name entries) ≠ child? other entries) : other = name := by
    by_cases same : other = name
    · exact same
    · exact absurd (by rw [child?_eraseChild, if_neg same]) changed
  obtain ⟨other, rfl, changed⟩ := touched_graft there
    (fun other changed => by rw [changes changed]; exact ⟨free, gone⟩) touched
  obtain rfl := changes changed
  rw [Touched, nodeAt_entry there, nodeAt_entry (find_graft there _)] at touched
  rw [nodeAt_entry there, nodeAt_entry (find_graft there _), stored, child?_eraseChild, if_pos rfl]
  by_cases long : nameLimit < other.utf8ByteSize
  · exact absurd (by rw [if_pos long, if_pos long]) touched
  · rw [if_neg long, if_neg long]
    exact ⟨rfl, rfl, rfl⟩

end Entries

/-- Nothing is touched but missing directories on the way to a directory, which are made, and entries
of that directory with some names, which are no directories before or afterwards. -/
def Confined (directory : String) (names : List String) (t u : FileTree) : Prop :=
  ∀ path, Touched t u path →
    (Through directory path ∧ t.nodeAt path = none ∧ u.nodeAt path = some .directory) ∨
      (∃ name ∈ names, path = location (components directory) ++ [name]) ∧
        t.nodeAt path ≠ some .directory ∧ u.nodeAt path ≠ some .directory

variable {t u : FileTree} {directory name : String} {names : List String}
  {entries others : List (String × FileTree)}

theorem Makes.confined (makes : Makes (Through directory) t u) (names : List String) :
    Confined directory names t u :=
  fun path touched => .inl (makes path touched)

theorem Makes.graft (makes : Makes (Through directory) t u)
    (led : u.LeadsTo directory names entries) {changing : List String}
    (free : ∀ name, child? name others ≠ child? name entries →
      name ∈ changing ∧ Writable name entries ∧ Writable name others) :
    Confined directory changing t (u.graft names (.directory others)) := by
  intro path touched
  by_cases late : (u.graft names (.directory others)).nodeAt path = u.nodeAt path
  · rw [Touched, late] at touched
    rw [late]
    exact .inl (makes path touched)
  · obtain ⟨name, rfl, changed⟩ :=
      touched_graft led.found (fun name changed => (free name changed).2) late
    obtain ⟨listed, before, after⟩ := free name changed
    have here := nodeAt_entry_ne_directory led.found before
    have early : u.nodeAt (names ++ [name]) = t.nodeAt (names ++ [name]) := by
      by_cases same : u.nodeAt (names ++ [name]) = t.nodeAt (names ++ [name])
      · exact same
      · exact absurd (makes _ same).2.2 here
    have place : names = location (components directory) := eq_of_resolve led.leads
    rw [← early]
    exact .inr ⟨⟨name, listed, by rw [place]⟩, here,
      nodeAt_entry_ne_directory (find_graft led.found _) after⟩

end FileTree

namespace Store

variable {p : Paths} {t u : FileTree} {name : String} {content : ByteArray}

theorem changed_by_replaced {entries : List (String × FileTree)} {other : String}
    (changed : child? other (replaced name content entries).2 ≠ child? other entries) :
    other ∈ [name, temporary name] ∧ Writable other entries ∧
      Writable other (replaced name content entries).2 := by
  have file {word : String} (u : Option FileTree) (leaf : u.any isDirectory = false)
      (entry : child? word (replaced name content entries).2 = u) :
      Writable word (replaced name content entries).2 := by
    rw [Writable, entry, leaf]
  -- nothing is written, or the temporary file alone, or the file itself
  obtain ⟨e, result⟩ | ⟨free, result⟩ | ⟨free, open_, result⟩ :=
    @replaced_cases name content entries
  · exact absurd (by rw [result]) changed
  · by_cases same : other = temporary name
    · subst same
      refine ⟨by simp, free, file (some (.file content)) rfl ?_⟩
      rw [result, child?_putChild, if_pos rfl]
    · exact absurd (by rw [result, child?_putChild, if_neg same]) changed
  · have ended : (replaced name content entries).1 = .ok () := by rw [result]
    rw [child?_replaced_of_ok ended] at changed
    by_cases same : other = temporary name
    · subst same
      exact ⟨by simp, free, file none rfl (by rw [child?_replaced_of_ok ended, if_pos rfl])⟩
    · by_cases here : other = name
      · subst here
        refine ⟨by simp, open_, file (some (.file content)) rfl ?_⟩
        rw [child?_replaced_of_ok ended, if_neg same, if_pos rfl]
      · exact absurd (by rw [if_neg same, if_neg here]) changed

theorem confined_replaceFile (plain : Plain name) {directory : String}
    (makes : Makes (Through directory) t u) (made : u.makePath directory = (none, u)) :
    Confined directory [name, temporary name] t
      (replaceFile (join directory name) content u).2 := by
  obtain ⟨names, entries, led⟩ := exists_leadsTo_of_makePath made
  rw [led.replaceFile plain]
  exact makes.graft led fun other => changed_by_replaced

/-- Saving a certificate makes its directory, and changes the entries of its name and its temporary
name. -/
theorem confined_saveCertificate (p : Paths) (name : String) (content : ByteArray) (t : FileTree) :
    Confined p.certsDir [name, temporary name] t (saveCertificate p name content t).2 := by
  unfold saveCertificate
  split
  case isFalse => exact (Makes.refl _ t).confined _
  case isTrue valid =>
    have makes := makes_makePath t p.certsDir
    rw [makeDirectories]
    rcases made : t.makePath p.certsDir with ⟨_ | e, u⟩
    · rw [made] at makes
      obtain ⟨names, entries, led⟩ := exists_leadsTo_of_makePath made
      dsimp only [andThen]
      exact confined_replaceFile (Certificate.plain_of_validName valid) makes led.makePath
    · rw [made] at makes
      exact makes.confined _

theorem exists_leadsTo_of_unlinkPath (plain : Plain name) {directory : String}
    (deleted : t.unlinkPath (join directory name) = .ok u) :
    ∃ names entries, t.LeadsTo directory names entries := by
  by_cases zero : '\x00' ∈ directory.toList
  · have bad : t.locateFile (join directory name) = .error .badPath := by
      rw [locateFile, not_leadsToDirectory_join plain, if_neg Bool.false_ne_true, locate,
        if_pos ((zero_mem_join_iff plain directory).2 zero)]
    rw [unlinkPath, bad] at deleted
    cases deleted
  · cases leads : t.resolve [] (components directory) with
    | error e =>
      rw [unlinkPath, locateFile_join plain t zero, leads] at deleted
      cases deleted
    | ok names =>
      rw [unlinkPath, locateFile_join plain t zero, leads] at deleted
      change t.unlink (names ++ [name]) = .ok u at deleted
      rcases found : t.find names with e | ⟨content⟩ | ⟨entries⟩
      · rw [unlink, alter_of_find_error found] at deleted
        cases deleted
      · rw [unlink, alter_of_find_file found] at deleted
        cases deleted
      · exact ⟨names, entries, zero, leads, found⟩

theorem touched_deleteCertificate {path : List String}
    (touched : Touched t (deleteCertificate p name t).2 path) :
    path = location (components p.certsDir) ++ [name] ∧
      (∃ content, t.nodeAt path = some (.file content)) ∧
      (deleteCertificate p name t).2.nodeAt path = none := by
  rcases ended : deleteCertificate p name t with ⟨e | _, u⟩
  · rw [ended, eq_of_deleteCertificate_error ended] at touched
    exact absurd rfl touched
  · obtain ⟨valid, deleted⟩ := deleteCertificate_eq_ok ended
    have plain := Certificate.plain_of_validName valid
    obtain ⟨names, entries, led⟩ := exists_leadsTo_of_unlinkPath plain deleted
    obtain ⟨⟨content, there⟩, rfl⟩ := led.unlinkPath plain deleted
    have place : names = location (components p.certsDir) := eq_of_resolve led.leads
    rw [ended] at touched
    obtain ⟨here, before, after⟩ := touched_graft_eraseChild led.found there touched
    exact ⟨by rw [here, place], ⟨content, before⟩, after⟩

end Store

end ProxyConfig
