import ProxyConfig.Proofs.Store.ReplacedFiles

/-!
What saving and deleting certificates leaves alone.  Certificates are kept in a directory of their
own inside the data directory.  Main statements: whatever comes of a call, no other entry of the data
directory changes; and a call that is refused for its name, or for a file that is not there, changes
nothing at all.
-/

namespace ProxyConfig

open FileTree ProxyConfig.Path Store

namespace FileTree

variable {t u : FileTree} {directory name : String} {names : List String}
  {entries below others : List (String × FileTree)}

theorem LeadsTo.graft_inside (led : t.LeadsTo directory names entries)
    (short : ¬ nameLimit < name.utf8ByteSize)
    (entry : child? name entries = some (.directory below))
    (kept : ∀ other deep, child? other below = some (.directory deep) →
      child? other others = some (.directory deep)) :
    (t.graft (names ++ [name]) (.directory others)).LeadsTo directory names
      (putChild name (.directory others) entries) where
  text := led.text
  leads := by
    have found : t.find (names ++ [name]) = .ok (.directory below) := by
      rw [find_entry led.found short, childAt, entry]
    exact resolve_of_keeps (keepsDirectories_graft found kept) led.leads
  found := by
    rw [graft_append led.found]
    exact find_graft led.found _

end FileTree

namespace Store

variable {t u : FileTree} {directory : String} {names : List String}
  {entries others below : List (String × FileTree)}

/-- The entries are the same but for one name. -/
def SameBut (name : String) (entries others : List (String × FileTree)) : Prop :=
  ∀ other, other ≠ name → child? other others = child? other entries

theorem SameBut.refl (name : String) (entries : List (String × FileTree)) :
    SameBut name entries entries := fun _ _ => rfl

theorem SameBut.trans {name : String} {deep : List (String × FileTree)}
    (first : SameBut name entries others) (second : SameBut name others deep) :
    SameBut name entries deep :=
  fun other ne => (second other ne).trans (first other ne)

theorem sameBut_putChild (name : String) (u : FileTree) (entries : List (String × FileTree)) :
    SameBut name entries (putChild name u entries) := by
  intro other ne
  rw [child?_putChild, if_neg ne]

theorem plain_certs : Plain "certs" := by decide

theorem short_certs : ¬ nameLimit < "certs".utf8ByteSize := by decide

theorem shows_of_replaceFile_inside (led : t.LeadsTo directory names entries)
    (entry : child? "certs" entries = some (.directory below)) {name : String} (plain : Plain name)
    (content : ByteArray) :
    ∃ others, (replaceFile (join (join directory "certs") name) content t).2.Shows directory others ∧
      SameBut "certs" entries others := by
  rw [(led.inside plain_certs short_certs entry).replaceFile plain content]
  exact ⟨_, (led.graft_inside short_certs entry kept_replaced).shows, sameBut_putChild _ _ _⟩

theorem shows_of_saveCertificate (shows : t.Shows directory entries) (name : String)
    (content : ByteArray) :
    ∃ others, (saveCertificate (.of directory) name content t).2.Shows directory others ∧
      SameBut "certs" entries others := by
  unfold saveCertificate
  split
  case isFalse => exact ⟨entries, shows, .refl _ _⟩
  case isTrue valid =>
    have plain := Certificate.plain_of_validName valid
    obtain ⟨u, names, made, led, -⟩ := shows
    change ∃ others, (andThen (makeDirectories (join directory "certs") t) _).2.Shows _ others ∧ _
    rw [makeDirectories, makePath_join made led plain_certs]
    -- the certificates' directory is missing, or something else is in its place, or it is there
    rcases entry : child? "certs" entries with _ | ⟨other⟩ | ⟨below⟩
    · obtain ⟨added, now⟩ := led.make short_certs entry
      rw [added]
      dsimp only [andThen]
      obtain ⟨others, after, same⟩ := shows_of_replaceFile_inside now
        (by rw [child?_putChild, if_pos rfl]; rfl) plain content
      exact ⟨others, after, (sameBut_putChild _ _ _).trans same⟩
    · rw [makeDirectories_of_file led.found short_certs entry]
      exact ⟨entries, led.shows, .refl _ _⟩
    · have there : u.find (names ++ ["certs"]) = .ok (.directory below) := by
        rw [find_entry led.found short_certs, childAt, entry]
      rw [makeDirectories_of_find there]
      dsimp only [andThen]
      exact shows_of_replaceFile_inside led entry plain content

theorem shows_of_unlinkPath_inside (shows : t.Shows directory entries) {name : String}
    (plain : Plain name) (deleted : t.unlinkPath (join (join directory "certs") name) = .ok u) :
    ∃ others, u.Shows directory others ∧ SameBut "certs" entries others := by
  rcases entry : child? "certs" entries with _ | ⟨other⟩ | ⟨below⟩
  · have inside : t.Shows (join directory "certs") [] :=
      shows.inside plain_certs short_certs (by rw [entry]; rfl)
    obtain ⟨⟨content, there⟩, -⟩ := inside.unlinkPath plain deleted
    cases there
  -- an entry is there, so the directory was not missing and nothing had to be made
  all_goals
    obtain ⟨v, names, made, led, here⟩ := shows
    obtain rfl : v = t := here.resolve_right fun none => by simp [none] at entry
  · have found : v.find (names ++ ["certs"]) = .ok (.file other) := by
      rw [find_entry led.found short_certs, childAt, entry]
    have located : v.locateFile (join (join directory "certs") name) =
        .ok (names ++ ["certs"] ++ [name]) := by
      rw [locateFile_join plain v (mt (zero_mem_join_iff plain_certs directory).1 led.text),
        components_join plain_certs, resolve_append plain_certs.notUp, led.leads]
      rfl
    rw [FileTree.unlinkPath, located] at deleted
    change v.unlink (names ++ ["certs"] ++ [name]) = .ok u at deleted
    rw [FileTree.unlink, alter_of_find_file found] at deleted
    cases deleted
  · have inside := led.inside plain_certs short_certs entry
    obtain ⟨⟨content, there⟩, rfl⟩ := inside.unlinkPath plain deleted
    have free : Writable name below := by simp [Writable, there, isDirectory]
    exact ⟨_, (led.graft_inside short_certs entry (free.kept none)).shows, sameBut_putChild _ _ _⟩

theorem eq_of_deleteCertificate_error {p : Paths} {name : String} {e : StoreError}
    (failed : deleteCertificate p name t = (.error e, u)) : u = t := by
  unfold deleteCertificate at failed
  split at failed
  case isFalse =>
    cases failed
    rfl
  case isTrue =>
    cases result : t.unlinkPath (join p.certsDir name) with
    | ok v =>
      rw [result] at failed
      cases failed
    | error f =>
      rw [result] at failed
      cases f <;> cases failed <;> rfl

theorem deleteCertificate_eq_ok {p : Paths} {name : String}
    (deleted : deleteCertificate p name t = (.ok (), u)) :
    Certificate.validName name = true ∧ t.unlinkPath (join p.certsDir name) = .ok u := by
  unfold deleteCertificate at deleted
  split at deleted
  case isFalse => cases deleted
  case isTrue valid =>
    cases result : t.unlinkPath (join p.certsDir name) with
    | ok v =>
      rw [result] at deleted
      cases deleted
      exact ⟨valid, rfl⟩
    | error f =>
      rw [result] at deleted
      cases f <;> cases deleted

theorem shows_of_deleteCertificate (shows : t.Shows directory entries) (name : String) :
    ∃ others, (deleteCertificate (.of directory) name t).2.Shows directory others ∧
      SameBut "certs" entries others := by
  rcases ended : deleteCertificate (.of directory) name t with ⟨e | _, u⟩
  · rw [eq_of_deleteCertificate_error ended]
    exact ⟨entries, shows, .refl _ _⟩
  · obtain ⟨valid, deleted⟩ := deleteCertificate_eq_ok ended
    exact shows_of_unlinkPath_inside shows (Certificate.plain_of_validName valid) deleted

/-- Nothing but the files themselves makes the operation fail. -/
def FailsInFiles (o : Outcome Unit) : Prop := ∀ e, o.1 = .error e → ∃ f, e = .io f

theorem failsInFiles_attempt (t : FileTree) (changed : Except FileError FileTree) :
    FailsInFiles (attempt t changed) := by
  intro e failed
  cases changed with
  | ok u => cases failed
  | error f =>
    cases failed
    exact ⟨f, rfl⟩

theorem failsInFiles_makeDirectories (path : String) (t : FileTree) :
    FailsInFiles (makeDirectories path t) := by
  intro e failed
  unfold makeDirectories at failed
  split at failed
  · cases failed
  · cases failed
    exact ⟨_, rfl⟩

theorem FailsInFiles.andThen {o : Outcome Unit} {next : FileTree → Outcome Unit}
    (first : FailsInFiles o) (second : ∀ t, FailsInFiles (next t)) :
    FailsInFiles (Store.andThen o next) := by
  obtain ⟨f | _, t⟩ := o
  · exact first
  · exact second t

theorem failsInFiles_replaceFile (path : String) (content : ByteArray) (t : FileTree) :
    FailsInFiles (replaceFile path content t) :=
  (failsInFiles_makeDirectories _ t).andThen fun _ =>
    (failsInFiles_attempt _ _).andThen fun _ => failsInFiles_attempt _ _

theorem saveCertificate_error {p : Paths} {name : String} {content : ByteArray} {e : StoreError}
    (failed : saveCertificate p name content t = (.error e, u)) :
    u = t ∨ ∃ f, e = .io f := by
  unfold saveCertificate at failed
  split at failed
  case isFalse =>
    cases failed
    exact .inl rfl
  case isTrue =>
    have inFiles := (failsInFiles_makeDirectories p.certsDir t).andThen
      fun v => failsInFiles_replaceFile (join p.certsDir name) content v
    rw [FailsInFiles, failed] at inFiles
    exact .inr (inFiles e rfl)

end Store

end ProxyConfig
