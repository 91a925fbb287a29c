import ProxyConfig.Proofs.Store.CertificateMap
import ProxyConfig.Proofs.Store.WholeWrites

/-!
Certificates that cannot be saved.  The new file is written beside the old one, under a name that is
listed like any other, and nothing takes it away again when it cannot be moved into its place.  Main
statement: a save that fails leaves all certificates as they were, unless a directory has the
certificate's name; then the temporary file stays behind, and only if it was there with the same
content before does it make no difference.
-/

namespace ProxyConfig

open FileTree ProxyConfig.Path Store

namespace FileTree

theorem mem_fileNames_putChild {name : String} {entries : List (String × FileTree)}
    (free : Writable name entries) (content : ByteArray) (other : String) :
    other ∈ fileNames (putChild name (.file content) entries) ↔
      other = name ∨ other ∈ fileNames entries := by
  induction entries with
  | nil => simp [putChild, fileNames]
  | cons e entries ih =>
    obtain ⟨n, u⟩ := e
    rw [putChild]
    by_cases same : n = name
    · subst same
      cases u with
      | file old => simp [fileNames]
      | directory below =>
        exact absurd (by rw [child?_cons, if_pos rfl]) (free.ne_directory below)
    · rw [Writable, child?_cons, if_neg (Ne.symm same)] at free
      rw [if_neg same]
      cases u with
      | file old =>
        change other ∈ n :: fileNames _ ↔ _ ∨ other ∈ n :: fileNames entries
        rw [List.mem_cons, ih free, List.mem_cons, or_left_comm]
      | directory below => exact ih free

theorem Shows.unique {t : FileTree} {directory : String} {entries others : List (String × FileTree)}
    (shows : t.Shows directory entries) (again : t.Shows directory others) : entries = others := by
  obtain ⟨u, names, made, led, -⟩ := shows
  obtain ⟨v, path, remade, led', -⟩ := again
  obtain rfl : u = v := by
    rw [made] at remade
    exact (Prod.mk.inj remade).2
  obtain rfl : names = path := by
    have same := led.leads
    rw [led'.leads] at same
    exact (Except.ok.inj same).symm
  have found := led.found
  rw [led'.found] at found
  exact (FileTree.directory.inj (Except.ok.inj found)).symm

theorem Direct.join {directory name : String} (direct : Direct directory) (plain : Plain name)
    (short : ¬ nameLimit < name.utf8ByteSize) : Direct (join directory name) where
  down := by
    rw [components_join plain]
    simp [direct.down, plain.notUp.symm]
  short := by
    rw [components_join plain, List.forall_mem_append, List.forall_mem_singleton]
    exact ⟨direct.short, short⟩

end FileTree

namespace Store

variable {p : Paths} {t u : FileTree} {name : String} {content : ByteArray}
  {entries : List (String × FileTree)}

/-- The new file can be written under its temporary name and cannot be moved from there, since a
directory has the name of the file. -/
def Stuck (name : String) (entries : List (String × FileTree)) : Prop :=
  ¬ nameLimit < (temporary name).utf8ByteSize ∧ Writable (temporary name) entries ∧
    ¬ Writable name entries

theorem replaced_of_stuck (stuck : Stuck name entries) (content : ByteArray) :
    replaced name content entries =
      (.error .isDirectory, putChild (temporary name) (.file content) entries) := by
  obtain ⟨short, free, taken⟩ := stuck
  simp only [replaced, if_neg short, not_true_eq_false, ↓reduceIte, free, taken,
    not_false_eq_true]

theorem entries_of_not_stuck (moving : ¬ Stuck name entries) {e : FileError}
    (failed : (replaced name content entries).1 = .error e) :
    (replaced name content entries).2 = entries := by
  unfold replaced at failed ⊢
  dsimp only at failed ⊢
  split
  case isTrue => rfl
  case isFalse short =>
    split
    case isTrue => rfl
    case isFalse free =>
      split
      case isTrue taken => exact absurd ⟨short, Decidable.not_not.1 free, taken⟩ moving
      case isFalse open_ =>
        rw [if_neg short, if_neg free, if_neg open_] at failed
        cases failed

def Listed (p : Paths) (t : FileTree) (name : String) : Prop :=
  ∃ names, listCertificates p t = .ok names ∧ name ∈ names

/-- What is read as the certificate of this name. -/
def Holding (p : Paths) (t : FileTree) (name : String) (content : ByteArray) : Prop :=
  t.readPath (join p.certsDir name) = .ok content

/-- The same certificates are listed, and each file of the directory has the same content. -/
structure SameCertificates (p : Paths) (t u : FileTree) : Prop where
  listed : listCertificates p u = listCertificates p t
  held : ∀ name, Plain name → ∀ content, Holding p u name content ↔ Holding p t name content

theorem SameCertificates.refl (p : Paths) (t : FileTree) : SameCertificates p t t where
  listed := rfl
  held _ _ _ := .rfl

theorem sameCertificates_of_shows (named : p.certsDir ≠ "") (before : t.Shows p.certsDir entries)
    (after : u.Shows p.certsDir entries) : SameCertificates p t u where
  listed := by rw [listCertificates_of_shows after named, listCertificates_of_shows before named]
  held name plain content := by
    rw [Holding, Holding, after.readPath_eq_ok_iff plain, before.readPath_eq_ok_iff plain]

theorem listed_iff_of_shows (named : p.certsDir ≠ "") (shows : t.Shows p.certsDir entries) :
    Listed p t name ↔ name ∈ fileNames entries := by
  rw [Listed, listCertificates_of_shows shows named]
  simp

theorem saveCertificate_eq_replaceFile (valid : Certificate.validName name = true)
    (content : ByteArray) (t : FileTree) :
    saveCertificate p name content t = replaceFile (join p.certsDir name) content t := by
  have plain := Certificate.plain_of_validName valid
  rw [saveCertificate, if_pos valid, makeDirectories]
  rcases made : t.makePath p.certsDir with ⟨_ | e, u⟩
  · dsimp only [andThen]
    rw [replaceFile_of_makePath plain made]
  · dsimp only [andThen]
    rw [replaceFile_of_not_made plain made]

def LeavesTemporary (p : Paths) (name : String) (t : FileTree) : Prop :=
  Certificate.validName name = true ∧ ∃ entries, t.Shows p.certsDir entries ∧ Stuck name entries

section Failed

variable {directory : String} {e : StoreError}

/-- A save that fails changes nothing that is seen of the certificates, or the directory has the
temporary file as one entry more. -/
theorem failed_save_cases
    (reach : Direct directory ∨ ∃ entries, t.Shows (Paths.of directory).certsDir entries)
    (failed : saveCertificate (.of directory) name content t = (.error e, u)) :
    (¬ LeavesTemporary (.of directory) name t ∧ SameCertificates (.of directory) t u) ∨
      LeavesTemporary (.of directory) name t ∧ ∃ entries, Stuck name entries ∧
        t.Shows (Paths.of directory).certsDir entries ∧
        u.Shows (Paths.of directory).certsDir
          (putChild (temporary name) (.file content) entries) := by
  by_cases valid : Certificate.validName name = true
  · have plain := Certificate.plain_of_validName valid
    have made : (∃ entries, t.Shows (Paths.of directory).certsDir entries) ∨
        ∃ e, t.makePath (Paths.of directory).certsDir = (some e, t) := by
      rcases reach with direct | shows
      · exact (direct.join plain_certs short_certs).shows_or_not_made t
      · exact .inl shows
    -- from here on the save is the replacement of a file in a directory that shows its entries
    rw [saveCertificate_eq_replaceFile valid] at failed
    rcases made with ⟨entries, before⟩ | ⟨f, unmade⟩
    · obtain ⟨result, after⟩ := before.replaceFile plain content
      rw [failed] at result after
      -- only the move comes behind the write of the temporary file
      by_cases stuck : Stuck name entries
      · rw [replaced_of_stuck stuck] at after
        exact .inr ⟨⟨valid, entries, before, stuck⟩, entries, stuck, before, after⟩
      · cases ended : (replaced name content entries).1 with
        | ok =>
          rw [ended] at result
          cases result
        | error f =>
          rw [entries_of_not_stuck stuck ended] at after
          refine .inl ⟨fun ⟨_, others, shows, stuckThere⟩ => ?_,
            sameCertificates_of_shows (join_ne_empty plain_certs directory) before after⟩
          rw [FileTree.Shows.unique shows before] at stuckThere
          exact stuck stuckThere
    · rw [replaceFile_of_not_made plain unmade] at failed
      cases failed
      refine .inl ⟨fun ⟨_, others, ⟨v, names, made, _⟩, _⟩ => ?_, .refl _ _⟩
      rw [unmade] at made
      cases made
  · rw [saveCertificate, if_neg valid] at failed
    cases failed
    exact .inl ⟨fun ⟨there, _⟩ => valid there, .refl _ _⟩

/-- A save that fails leaves all certificates as they were, unless it leaves its temporary file behind
and that was not there with the same content; then the temporary file is one of the certificates, and
the others are as they were. -/
theorem failed_save_keeps_certificates_iff
    (reach : Direct directory ∨ ∃ entries, t.Shows (Paths.of directory).certsDir entries)
    (failed : saveCertificate (.of directory) name content t = (.error e, u)) :
    (SameCertificates (.of directory) t u ↔
        ¬ LeavesTemporary (.of directory) name t ∨
          Holding (.of directory) t (temporary name) content) ∧
      (LeavesTemporary (.of directory) name t →
        Listed (.of directory) u (temporary name) ∧
          Holding (.of directory) u (temporary name) content) ∧
      ∀ other, Plain other → other ≠ temporary name →
        (Listed (.of directory) u other ↔ Listed (.of directory) t other) ∧
          ∀ held, Holding (.of directory) u other held ↔ Holding (.of directory) t other held := by
  have named : (Paths.of directory).certsDir ≠ "" := join_ne_empty plain_certs directory
  rcases failed_save_cases reach failed with ⟨clean, same⟩ | ⟨leaves, entries, stuck, before, after⟩
  · refine ⟨iff_of_true same (.inl clean), fun leaves => absurd leaves clean,
      fun other plain _ => ⟨?_, same.held other plain⟩⟩
    rw [Listed, same.listed, Listed]
  · obtain ⟨short, free, -⟩ := stuck
    have temp : Plain (temporary name) := plain_temporary (Certificate.plain_of_validName leaves.1)
    have listed (other : String) : Listed (.of directory) u other ↔
        other = temporary name ∨ Listed (.of directory) t other := by
      rw [listed_iff_of_shows named after, listed_iff_of_shows named before,
        mem_fileNames_putChild free]
    have held {other : String} (plain : Plain other) (ne : other ≠ temporary name)
        (content : ByteArray) :
        Holding (.of directory) u other content ↔ Holding (.of directory) t other content := by
      rw [Holding, Holding, after.readPath_eq_ok_iff plain, before.readPath_eq_ok_iff plain,
        child?_putChild, if_neg ne]
    have left : Holding (.of directory) u (temporary name) content := by
      rw [Holding, after.readPath_eq_ok_iff temp, child?_putChild, if_pos rfl]
      exact ⟨short, rfl⟩
    refine ⟨⟨fun same => .inr ((same.held _ temp content).1 left), ?_⟩,
      fun _ => ⟨(listed _).2 (.inl rfl), left⟩,
      fun other plain ne => ⟨by rw [listed, or_iff_right ne], held plain ne⟩⟩
    rintro (clean | there)
    · exact absurd leaves clean
    · -- the same entry was written again
      rw [Holding, before.readPath_eq_ok_iff temp] at there
      rw [putChild_of_child? there.2] at after
      exact sameCertificates_of_shows named before after

end Failed

def occupied (entries : List (String × FileTree)) : FileTree :=
  .directory [("data", .directory [("certs", .directory (("site.pem", .directory []) :: entries))])]

/-- The save fails, and a certificate is listed afterwards where there was none before. -/
theorem occupied_lists_temporary :
    (saveCertificate (.of "data") "site.pem" "new".toUTF8 (occupied [])).1 =
        .error (.io .isDirectory) ∧
      listCertificates (.of "data") (occupied []) = .ok [] ∧
      listCertificates (.of "data")
          (saveCertificate (.of "data") "site.pem" "new".toUTF8 (occupied [])).2 =
        .ok ["site.pem.tmp"] := by
  decide +kernel

theorem failed_save_keeps_certificates_iff_occupied :
    Direct "data" ∧
      ∃ e u, saveCertificate (.of "data") "site.pem" "new".toUTF8
          (occupied [("site.pem.tmp", .file "old".toUTF8)]) = (.error e, u) ∧
        Holding (.of "data") (occupied [("site.pem.tmp", .file "old".toUTF8)]) "site.pem.tmp"
          "old".toUTF8 ∧
        Holding (.of "data") u "site.pem.tmp" "new".toUTF8 := by
  have direct : Direct "data" := by decide
  have failed : saveCertificate (.of "data") "site.pem" "new".toUTF8
        (occupied [("site.pem.tmp", .file "old".toUTF8)]) =
      (.error (.io .isDirectory), (saveCertificate (.of "data") "site.pem" "new".toUTF8
        (occupied [("site.pem.tmp", .file "old".toUTF8)])).2) := Prod.ext (by decide +kernel) rfl
  have shows : (occupied [("site.pem.tmp", .file "old".toUTF8)]).Shows (Paths.of "data").certsDir
      [("site.pem", .directory []), ("site.pem.tmp", .file "old".toUTF8)] :=
    @LeadsTo.shows _ _ ["data", "certs"] _ ⟨by decide +kernel, by decide +kernel, rfl⟩
  have leaves : LeavesTemporary (.of "data") "site.pem"
      (occupied [("site.pem.tmp", .file "old".toUTF8)]) :=
    ⟨by decide, _, shows, by decide, by decide, by decide⟩
  have kept := failed_save_keeps_certificates_iff (.inl direct) failed
  exact ⟨direct, _, _, failed, by rw [Holding]; decide +kernel, (kept.2.1 leaves).2⟩

end Store

end ProxyConfig
