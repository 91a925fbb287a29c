import ProxyConfig.Proofs.Store.Locations

/-!
What replacing and deleting a file does to the directory it is in.  `replaced` says it of the
entries: the new file is written under another name first, so an entry of that name is lost.  Main
statements: replacing a file of a directory is this change of its entries, and when it fails, no
entry changes but the one of the other name.
-/

namespace ProxyConfig

open FileTree ProxyConfig.Path Store

namespace Store

theorem mapError_eq_ok_iff {x : Except ε α} {f : ε → ε'} {a : α} :
    x.mapError f = .ok a ↔ x = .ok a := by
  cases x with
  | error e => exact ⟨nofun, nofun⟩
  | ok b => exact ⟨fun same => by cases same; rfl, fun same => by cases same; rfl⟩

theorem plain_temporary {name : String} (plain : Plain name) : Plain (temporary name) := by
  have long : 4 ≤ (temporary name).length := by
    rw [temporary, String.length_append]
    exact Nat.le_add_left _ _
  have apart {word : String} (short : word.length < 4) : temporary name ≠ word :=
    fun same => by rw [same] at long; omega
  refine ⟨apart (by decide), apart (by decide), apart (by decide), ?_, ?_⟩
  · simp [temporary, plain.noSlash]
  · simp [temporary, plain.noZero]

theorem temporary_join {name : String} (plain : Plain name) (directory : String) :
    temporary (join directory name) = join directory (temporary name) :=
  join_append plain directory ".tmp" (plain_temporary plain)

theorem temporary_ne (name : String) : temporary name ≠ name := by
  intro same
  have length := congrArg String.length same
  rw [temporary, String.length_append] at length
  have : ".tmp".length = 4 := by decide
  omega

theorem not_long_of_temporary {name : String}
    (short : ¬ nameLimit < (temporary name).utf8ByteSize) : ¬ nameLimit < name.utf8ByteSize := by
  rw [temporary, String.utf8ByteSize_append] at short
  omega

end Store

namespace FileTree

def isDirectory : FileTree → Bool
  | .file _ => false
  | .directory _ => true

/-- An entry may be written if it is no directory. -/
def Writable (name : String) (entries : List (String × FileTree)) : Prop :=
  (child? name entries).any isDirectory = false

instance (name : String) (entries : List (String × FileTree)) :
    Decidable (Writable name entries) := inferInstanceAs (Decidable (_ = _))

end FileTree

namespace Store

/-- What replacing a file does to the entries of its directory, and how it ends. -/
def replaced (name : String) (content : ByteArray) (entries : List (String × FileTree)) :
    Except FileError Unit × List (String × FileTree) :=
  let written := putChild (temporary name) (.file content) entries
  if nameLimit < (temporary name).utf8ByteSize then (.error .nameTooLong, entries)
  else if ¬ Writable (temporary name) entries then (.error .isDirectory, entries)
  else if ¬ Writable name entries then (.error .isDirectory, written)
  else (.ok (), eraseChild (temporary name) (putChild name (.file content) written))

end Store

namespace FileTree

theorem exists_of_not_writable {name : String} {entries : List (String × FileTree)}
    (taken : ¬ Writable name entries) :
    ∃ below, child? name entries = some (.directory below) := by
  rcases there : child? name entries with _ | ⟨content⟩ | ⟨below⟩
  · simp [Writable, there] at taken
  · simp [Writable, there, isDirectory] at taken
  · exact ⟨below, rfl⟩

theorem Writable.ne_directory {name : String} {entries : List (String × FileTree)}
    (free : Writable name entries) (below : List (String × FileTree)) :
    child? name entries ≠ some (.directory below) := by
  intro there
  simp [Writable, there, isDirectory] at free

theorem Writable.kept {name : String} {entries : List (String × FileTree)}
    (free : Writable name entries) (t : Option FileTree) :
    ∀ other below, child? other entries = some (.directory below) →
      child? other (setChild name t entries) = some (.directory below) := by
  intro other below there
  rw [child?_setChild]
  split
  case isTrue same => exact absurd (same ▸ there) (free.ne_directory below)
  case isFalse => exact there

section Entries

variable {t : FileTree} {directory : String} {names : List String}
  {entries : List (String × FileTree)} (led : t.LeadsTo directory names entries) {name : String}
  (short : ¬ nameLimit < name.utf8ByteSize)
include led short

theorem LeadsTo.write (free : Writable name entries) (content : ByteArray) :
    t.write content (names ++ [name]) =
      .ok (t.graft names (.directory (putChild name (.file content) entries))) := by
  rw [FileTree.write, alter_entry led.found short]
  rcases there : child? name entries with _ | ⟨old⟩ | ⟨below⟩
  · rfl
  · rfl
  · exact absurd there (free.ne_directory below)

theorem LeadsTo.write_directory {below : List (String × FileTree)}
    (there : child? name entries = some (.directory below)) (content : ByteArray) :
    t.write content (names ++ [name]) = .error .isDirectory := by
  rw [FileTree.write, alter_entry led.found short, there]
  rfl

theorem LeadsTo.unlink {content : ByteArray} (there : child? name entries = some (.file content)) :
    t.unlink (names ++ [name]) =
      .ok (t.graft names (.directory (eraseChild name entries))) := by
  rw [FileTree.unlink, alter_entry led.found short, there]
  rfl

theorem LeadsTo.read {content : ByteArray} (there : child? name entries = some (.file content)) :
    t.read (names ++ [name]) = .ok content := by
  rw [FileTree.read, find_entry led.found short, childAt, there]
  rfl

end Entries

end FileTree

namespace FileTree.LeadsTo

variable {t : FileTree} {directory : String} {names : List String}
  {entries : List (String × FileTree)} (led : t.LeadsTo directory names entries) {name : String}
  (plain : Plain name)
include led plain

theorem rename_temporary (short : ¬ nameLimit < (temporary name).utf8ByteSize)
    {content : ByteArray} (there : child? (temporary name) entries = some (.file content)) :
    t.renamePath (join directory (temporary name)) (join directory name) =
      (t.write content (names ++ [name])).bind (·.unlink (names ++ [temporary name])) := by
  rw [renamePath, led.locateFile (plain_temporary plain), led.locateFile plain]
  change t.rename (names ++ [temporary name]) (names ++ [name]) = _
  rw [rename, led.read short there]
  rfl

theorem move_temporary (short : ¬ nameLimit < (temporary name).utf8ByteSize)
    {content : ByteArray} (there : child? (temporary name) entries = some (.file content)) :
    attempt t (t.renamePath (join directory (temporary name)) (join directory name)) =
      if Writable name entries then
        (.ok (), t.graft names (.directory
          (eraseChild (temporary name) (putChild name (.file content) entries))))
      else (.error (.io .isDirectory), t) := by
  have shorter := not_long_of_temporary short
  rw [led.rename_temporary plain short there]
  split
  case isTrue free =>
    have moved := led.graft (free.kept (some (.file content)))
    have still : child? (temporary name) (setChild name (some (.file content)) entries) =
        some (.file content) := by
      rw [child?_setChild, if_neg (temporary_ne name), there]
    have unlinked := moved.unlink short still
    rw [graft_graft led.found] at unlinked
    rw [led.write shorter free content]
    exact congrArg (attempt t) unlinked
  case isFalse taken =>
    obtain ⟨below, there⟩ := exists_of_not_writable taken
    rw [led.write_directory shorter there]
    rfl

theorem replaceFile (content : ByteArray) :
    Store.replaceFile (join directory name) content t =
      ((replaced name content entries).1.mapError .io,
        t.graft names (.directory (replaced name content entries).2)) := by
  have unchanged : t.graft names (.directory entries) = t := graft_self led.found
  have made : Store.makeDirectories (parent (join directory name)) t = (.ok (), t) := by
    rw [Store.makeDirectories, makePath_parent_join plain, led.makePath]
  rw [Store.replaceFile, made]
  dsimp only [andThen]
  rw [writePath, temporary_join plain, led.locateFile (plain_temporary plain)]
  change andThen (attempt t (t.write content (names ++ [temporary name]))) _ = _
  unfold replaced
  split
  -- the new file is written under the temporary name, unless the name or a directory is in the way
  case isTrue long =>
    rw [FileTree.write, alter_tooLong led.found long]
    exact Prod.ext rfl unchanged.symm
  case isFalse short =>
    rw [ite_not, ite_not]
    split
    case isFalse taken =>
      obtain ⟨below, there⟩ := exists_of_not_writable taken
      rw [led.write_directory short there]
      exact Prod.ext rfl unchanged.symm
    case isTrue free =>
      -- from here on the directory holds the written file, and the move is made in it
      have written := led.graft (free.kept (some (.file content)))
      have same : Writable name (putChild (temporary name) (.file content) entries) ↔
          Writable name entries := by
        rw [Writable, child?_putChild, if_neg (temporary_ne name).symm, Writable]
      have moved := written.move_temporary plain short (by rw [child?_setChild, if_pos rfl])
      rw [graft_graft led.found] at moved
      rw [led.write short free content]
      refine moved.trans ?_
      simp only [setChild, same]
      split <;> rfl

end FileTree.LeadsTo

namespace Store

variable {name : String} {content : ByteArray} {entries : List (String × FileTree)}

/-- Replacing a file stops at the first obstacle: before anything is written, or with the new file
under its temporary name. -/
theorem replaced_cases :
    (∃ e, replaced name content entries = (.error e, entries)) ∨
      Writable (temporary name) entries ∧ replaced name content entries =
        (.error .isDirectory, putChild (temporary name) (.file content) entries) ∨
      Writable (temporary name) entries ∧ Writable name entries ∧
        replaced name content entries = (.ok (), eraseChild (temporary name)
          (putChild name (.file content) (putChild (temporary name) (.file content) entries))) := by
  unfold replaced
  dsimp only
  split
  case isTrue => exact .inl ⟨_, rfl⟩
  case isFalse =>
    rw [ite_not]
    split
    case isFalse => exact .inl ⟨_, rfl⟩
    case isTrue free =>
      rw [ite_not]
      split
      case isFalse => exact .inr (.inl ⟨free, rfl⟩)
      case isTrue open_ => exact .inr (.inr ⟨free, open_, rfl⟩)

theorem child?_replaced_of_ok (ok : (replaced name content entries).1 = .ok ()) (other : String) :
    child? other (replaced name content entries).2 =
      if other = temporary name then none
      else if other = name then some (.file content) else child? other entries := by
  obtain ⟨e, result⟩ | ⟨-, result⟩ | ⟨-, -, result⟩ := @replaced_cases name content entries
  · simp [result] at ok
  · simp [result] at ok
  · rw [result, child?_eraseChild, child?_putChild, child?_putChild]
    split
    · rfl
    · rfl

theorem child?_replaced_of_error {e : FileError}
    (failed : (replaced name content entries).1 = .error e) {other : String}
    (ne : other ≠ temporary name) :
    child? other (replaced name content entries).2 = child? other entries := by
  obtain ⟨e, result⟩ | ⟨-, result⟩ | ⟨-, -, result⟩ := @replaced_cases name content entries
  · rw [result]
  · rw [result, child?_putChild, if_neg ne]
  · simp [result] at failed

theorem kept_replaced (other : String) (below : List (String × FileTree))
    (there : child? other entries = some (.directory below)) :
    child? other (replaced name content entries).2 = some (.directory below) := by
  have apart {word : String} (free : Writable word entries) : other ≠ word :=
    fun same => free.ne_directory below (same ▸ there)
  obtain ⟨e, result⟩ | ⟨free, result⟩ | ⟨free, open_, result⟩ :=
    @replaced_cases name content entries
  · rw [result, there]
  · rw [result, child?_putChild, if_neg (apart free), there]
  · rw [result, child?_eraseChild, if_neg (apart free), child?_putChild, if_neg (apart open_),
      child?_putChild, if_neg (apart free), there]

end Store

namespace FileTree

variable {t u : FileTree} {directory : String} {entries : List (String × FileTree)}
  {name : String}

theorem replaceFile_of_makePath (plain : Plain name) (made : t.makePath directory = (none, u))
    (content : ByteArray) :
    Store.replaceFile (join directory name) content t =
      Store.replaceFile (join directory name) content u := by
  obtain ⟨names, entries, led⟩ := exists_leadsTo_of_makePath made
  simp only [Store.replaceFile, Store.makeDirectories, makePath_parent_join plain, made,
    led.makePath]

theorem replaceFile_of_not_made (plain : Plain name) {e : FileError}
    (failed : t.makePath directory = (some e, u)) (content : ByteArray) :
    Store.replaceFile (join directory name) content t = (.error (.io e), u) := by
  simp only [Store.replaceFile, Store.makeDirectories, makePath_parent_join plain, failed,
    andThen]

theorem Shows.replaceFile (shows : t.Shows directory entries) (plain : Plain name)
    (content : ByteArray) :
    (Store.replaceFile (join directory name) content t).1 =
        (replaced name content entries).1.mapError .io ∧
      (Store.replaceFile (join directory name) content t).2.Shows directory
        (replaced name content entries).2 := by
  obtain ⟨u, names, made, led, -⟩ := shows
  rw [replaceFile_of_makePath plain made, led.replaceFile plain]
  exact ⟨rfl, (led.graft kept_replaced).shows⟩

theorem Shows.of_replaced (shows : t.Shows directory entries) (plain : Plain name)
    {content : ByteArray}
    (done : Store.replaceFile (join directory name) content t = (.ok (), u)) :
    ∃ others, u.Shows directory others ∧ ∀ other, child? other others =
      if other = temporary name then none
      else if other = name then some (.file content) else child? other entries := by
  obtain ⟨result, after⟩ := shows.replaceFile plain content
  rw [done] at result after
  exact ⟨_, after, child?_replaced_of_ok (mapError_eq_ok_iff.1 result.symm)⟩

theorem Shows.of_not_replaced (shows : t.Shows directory entries) (plain : Plain name)
    {content : ByteArray} {e : StoreError}
    (failed : Store.replaceFile (join directory name) content t = (.error e, u)) :
    ∃ others, u.Shows directory others ∧
      ∀ other, other ≠ temporary name → child? other others = child? other entries := by
  obtain ⟨result, after⟩ := shows.replaceFile plain content
  rw [failed] at result after
  refine ⟨_, after, fun other ne => ?_⟩
  cases ended : (replaced name content entries).1 with
  | ok =>
    rw [ended] at result
    cases result
  | error e => exact child?_replaced_of_error ended ne

theorem shows_of_replaceFile (plain : Plain name) {content : ByteArray}
    (done : Store.replaceFile (join directory name) content t = (.ok (), u)) :
    ∃ entries others, (t.makePath directory).2.Shows directory entries ∧
      u.Shows directory others ∧ ∀ other, child? other others =
        if other = temporary name then none
        else if other = name then some (.file content) else child? other entries := by
  rcases made : t.makePath directory with ⟨_ | e, v⟩
  · obtain ⟨entries, shows⟩ := shows_of_makePath made
    rw [replaceFile_of_makePath plain made] at done
    obtain ⟨others, after, result⟩ := shows.of_replaced plain done
    exact ⟨entries, others, shows, after, result⟩
  · rw [replaceFile_of_not_made plain made] at done
    cases done

theorem replaceFile_failed (plain : Plain name) {content : ByteArray} {e : StoreError}
    (failed : Store.replaceFile (join directory name) content t = (.error e, u)) :
    u = (t.makePath directory).2 ∨
      ∃ entries others, (t.makePath directory).2.Shows directory entries ∧
        u.Shows directory others ∧
        ∀ other, other ≠ temporary name → child? other others = child? other entries := by
  rcases made : t.makePath directory with ⟨_ | e, v⟩
  · obtain ⟨entries, shows⟩ := shows_of_makePath made
    rw [replaceFile_of_makePath plain made] at failed
    obtain ⟨others, after, same⟩ := shows.of_not_replaced plain failed
    exact .inr ⟨entries, others, shows, after, same⟩
  · rw [replaceFile_of_not_made plain made] at failed
    cases failed
    exact .inl rfl

theorem LeadsTo.unlinkPath {names : List String} (led : t.LeadsTo directory names entries)
    (plain : Plain name) (deleted : t.unlinkPath (join directory name) = .ok u) :
    (∃ content, child? name entries = some (.file content)) ∧
      u = t.graft names (.directory (eraseChild name entries)) := by
  rw [FileTree.unlinkPath, led.locateFile plain] at deleted
  change t.unlink (names ++ [name]) = .ok u at deleted
  by_cases short : nameLimit < name.utf8ByteSize
  · rw [FileTree.unlink, alter_tooLong led.found short] at deleted
    cases deleted
  · rw [FileTree.unlink, alter_entry led.found short] at deleted
    rcases there : child? name entries with _ | ⟨content⟩ | ⟨below⟩
    · rw [there] at deleted
      cases deleted
    · rw [there] at deleted
      cases deleted
      exact ⟨⟨content, rfl⟩, rfl⟩
    · rw [there] at deleted
      cases deleted

theorem Shows.unlinkPath (shows : t.Shows directory entries) (plain : Plain name)
    (deleted : t.unlinkPath (join directory name) = .ok u) :
    (∃ content, child? name entries = some (.file content)) ∧
      u.Shows directory (eraseChild name entries) := by
  obtain ⟨made, names, making, led, -⟩ := shows
  by_cases same : made = t
  · subst same
    obtain ⟨⟨content, there⟩, rfl⟩ := led.unlinkPath plain deleted
    have free : Writable name entries := by simp [Writable, there, isDirectory]
    exact ⟨⟨content, there⟩, (led.graft (free.kept none)).shows⟩
  · obtain ⟨text, leads | ⟨names, leads, missing⟩⟩ := notFound_of_makePath making same
    · rw [FileTree.unlinkPath, locateFile_join plain t text, leads] at deleted
      cases deleted
    · rw [FileTree.unlinkPath, locateFile_join plain t text, leads] at deleted
      change t.unlink (names ++ [name]) = .ok u at deleted
      rw [FileTree.unlink, alter_of_find_error missing] at deleted
      cases deleted

end FileTree

end ProxyConfig
