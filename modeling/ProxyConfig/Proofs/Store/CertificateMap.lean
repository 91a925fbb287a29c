import Mathlib.Data.List.Sublists
import Mathlib.Data.String.Basic
import Mathlib.Logic.Function.Basic
import ProxyConfig.Proofs.Store.CertificateChanges

/-!
The stored certificates as a map from names to contents.  A save sets the content of its name and
clears the name that its file is first written under; a deletion clears its name.  Main statement:
after any calls that succeed, the names that are listed and the files that are read are those of the
map that these changes make, and where no saved name is the temporary name of another one, it is the
map of the calls themselves.
-/

namespace ProxyConfig

namespace FileTree

theorem mem_iff_child? {entries : List (String × FileTree)}
    (distinct : (entries.map Prod.fst).Nodup) {name : String} {t : FileTree} :
    (name, t) ∈ entries ↔ child? name entries = some t := by
  induction entries with
  | nil => simp
  | cons e entries ih =>
    obtain ⟨n, u⟩ := e
    obtain ⟨new, rest⟩ := List.nodup_cons.1 distinct
    rw [List.mem_cons, ih rest, child?_cons]
    split
    case isTrue same =>
      subst same
      have none : child? name entries ≠ some t := fun there =>
        new (List.mem_map.2 ⟨_, (ih rest).2 there, rfl⟩)
      simp [none, eq_comm]
    case isFalse other => simp [other]

theorem map_fst_putChild (name : String) (t : FileTree) (entries : List (String × FileTree)) :
    (putChild name t entries).map Prod.fst =
      if name ∈ entries.map Prod.fst then entries.map Prod.fst
      else entries.map Prod.fst ++ [name] := by
  induction entries with
  | nil => simp [putChild]
  | cons e entries ih =>
    obtain ⟨n, u⟩ := e
    rw [putChild]
    by_cases same : n = name
    · simp [same]
    · rw [if_neg same, List.map_cons, ih, List.map_cons]
      by_cases there : name ∈ entries.map Prod.fst
      · rw [if_pos there, if_pos (List.mem_cons_of_mem n there)]
      · rw [if_neg there, if_neg (List.not_mem_cons_of_ne_of_not_mem (Ne.symm same) there)]
        rfl

theorem nodup_putChild {entries : List (String × FileTree)}
    (distinct : (entries.map Prod.fst).Nodup) (name : String) (t : FileTree) :
    ((putChild name t entries).map Prod.fst).Nodup := by
  rw [map_fst_putChild]
  split
  case isTrue => exact distinct
  case isFalse new =>
    exact List.Nodup.append distinct (List.nodup_singleton name) (by simpa using new)

theorem nodup_eraseChild {entries : List (String × FileTree)}
    (distinct : (entries.map Prod.fst).Nodup) (name : String) :
    ((eraseChild name entries).map Prod.fst).Nodup :=
  distinct.sublist (List.filter_sublist.map _)

theorem nodup_replaced {entries : List (String × FileTree)}
    (distinct : (entries.map Prod.fst).Nodup) (name : String) (content : ByteArray) :
    ((Store.replaced name content entries).2.map Prod.fst).Nodup := by
  obtain ⟨e, result⟩ | ⟨-, result⟩ | ⟨-, -, result⟩ := @Store.replaced_cases name content entries
  · rw [result]
    exact distinct
  · rw [result]
    exact nodup_putChild distinct _ _
  · rw [result]
    exact nodup_eraseChild (nodup_putChild (nodup_putChild distinct _ _) _ _) _

def fileNames (entries : List (String × FileTree)) : List String :=
  entries.filterMap fun
    | (name, .file _) => some name
    | (_, .directory _) => none

theorem mem_fileNames_iff {entries : List (String × FileTree)} {name : String} :
    name ∈ fileNames entries ↔ ∃ content, (name, .file content) ∈ entries := by
  rw [fileNames, List.mem_filterMap]
  constructor
  · rintro ⟨⟨n, t⟩, there, same⟩
    cases t with
    | file content =>
      cases same
      exact ⟨content, there⟩
    | directory below => cases same
  · rintro ⟨content, there⟩
    exact ⟨_, there, rfl⟩

theorem fileNames_sublist (entries : List (String × FileTree)) :
    (fileNames entries).Sublist (entries.map Prod.fst) := by
  induction entries with
  | nil => exact .slnil
  | cons e entries ih =>
    obtain ⟨name, t⟩ := e
    cases t with
    | file content => exact ih.cons_cons name
    | directory below => exact ih.cons name

end FileTree

open FileTree ProxyConfig.Path

namespace Store

inductive CertificateCall where
  | save (name : String) (content : ByteArray)
  | delete (name : String)

abbrev Contents := String → Option ByteArray

namespace CertificateCall

def run (p : Paths) : CertificateCall → FileTree → Outcome Unit
  | save name content, t => saveCertificate p name content t
  | delete name, t => deleteCertificate p name t

def change : CertificateCall → Contents → Contents
  | save name content, m => Function.update m name (some content)
  | delete name, m => Function.update m name none

/-- The change of the stored certificates: a save clears its temporary name first. -/
def store : CertificateCall → Contents → Contents
  | save name content, m => (save name content).change ((delete (temporary name)).change m)
  | delete name, m => (delete name).change m

theorem store_save_apply (name : String) (content : ByteArray) (m : Contents) (other : String) :
    (save name content).store m other =
      if other = temporary name then none else if other = name then some content else m other := by
  simp only [store, change, Function.update_apply]
  by_cases cleared : other = temporary name
  · simp [cleared, temporary_ne]
  · simp [cleared]

theorem store_delete_apply (name : String) (m : Contents) (other : String) :
    (delete name).store m other = if other = name then none else m other :=
  Function.update_apply m name none other

end CertificateCall

def runCalls (p : Paths) : List CertificateCall → FileTree → Outcome Unit
  | [], t => (.ok (), t)
  | call :: calls, t => andThen (call.run p t) (runCalls p calls)

/-- The contents after changes, from nothing. -/
def contentsAfter (change : CertificateCall → Contents → Contents) (calls : List CertificateCall) :
    Contents :=
  calls.foldl (fun m call => change call m) fun _ => none

/-- The directory holds a file for each name with a content, and nothing else. -/
structure Holds (t : FileTree) (directory : String) (contents : Contents)
    (entries : List (String × FileTree)) : Prop where
  shows : t.Shows directory entries
  distinct : (entries.map Prod.fst).Nodup
  files : ∀ name, child? name entries = (contents name).map .file
  short : ∀ name content, contents name = some content → ¬ nameLimit < name.utf8ByteSize

theorem not_long_of_replaced {name : String} {content : ByteArray}
    {entries : List (String × FileTree)} (ok : (replaced name content entries).1 = .ok ()) :
    ¬ nameLimit < (temporary name).utf8ByteSize := by
  intro long
  rw [replaced, if_pos long] at ok
  cases ok

theorem listCertificates_of_shows {p : Paths} {t : FileTree} {entries : List (String × FileTree)}
    (shows : t.Shows p.certsDir entries) (named : p.certsDir ≠ "") :
    listCertificates p t = .ok ((fileNames entries).mergeSort fun a b => a ≤ b) := by
  rw [listCertificates]
  rcases shows.listPath named with there | ⟨missing, rfl⟩
  · rw [there]
    rfl
  · rw [missing]
    simp [fileNames]

section Calls

variable {p : Paths} {t u : FileTree} {contents : Contents} {entries : List (String × FileTree)}
  (holds : Holds t p.certsDir contents entries)
include holds

theorem Holds.save {name : String} {content : ByteArray}
    (saved : saveCertificate p name content t = (.ok (), u)) :
    ∃ others, Holds u p.certsDir ((CertificateCall.save name content).store contents) others := by
  unfold saveCertificate at saved
  split at saved
  case isFalse => cases saved
  case isTrue valid =>
    have plain := Certificate.plain_of_validName valid
    -- making the directory changes nothing that it shows
    obtain ⟨v, names, made, led, -⟩ := holds.shows
    rw [makeDirectories, made] at saved
    dsimp only [andThen] at saved
    obtain ⟨result, after⟩ := led.shows.replaceFile plain content
    rw [saved] at result after
    have ok := mapError_eq_ok_iff.1 result.symm
    have short := not_long_of_replaced ok
    refine ⟨_, after, nodup_replaced holds.distinct name content, fun other => ?_,
      fun other known there => ?_⟩
    · rw [child?_replaced_of_ok ok, holds.files, CertificateCall.store_save_apply]
      split
      · rfl
      · split <;> rfl
    · rw [CertificateCall.store_save_apply] at there
      split at there
      case isTrue => cases there
      case isFalse =>
        split at there
        case isTrue same => exact same ▸ not_long_of_temporary short
        case isFalse => exact holds.short other known there

theorem Holds.delete {name : String} (deleted : deleteCertificate p name t = (.ok (), u)) :
    ∃ others, Holds u p.certsDir ((CertificateCall.delete name).store contents) others := by
  obtain ⟨valid, done⟩ := deleteCertificate_eq_ok deleted
  have plain := Certificate.plain_of_validName valid
  refine ⟨_, (holds.shows.unlinkPath plain done).2, nodup_eraseChild holds.distinct name,
    fun other => ?_, fun other known there => ?_⟩
  · rw [child?_eraseChild, holds.files, CertificateCall.store_delete_apply]
    split <;> rfl
  · rw [CertificateCall.store_delete_apply] at there
    split at there
    case isTrue => cases there
    case isFalse => exact holds.short other known there

theorem Holds.step {call : CertificateCall} (ran : call.run p t = (.ok (), u)) :
    ∃ others, Holds u p.certsDir (call.store contents) others := by
  cases call with
  | save name content => exact holds.save ran
  | delete name => exact holds.delete ran

theorem Holds.run {calls : List CertificateCall} (ran : runCalls p calls t = (.ok (), u)) :
    ∃ others, Holds u p.certsDir
      (calls.foldl (fun m call => call.store m) contents) others := by
  -- on the calls, with `Holds` as the invariant
  induction calls generalizing t contents entries with
  | nil =>
    cases ran
    exact ⟨entries, holds⟩
  | cons call calls ih =>
    rw [runCalls] at ran
    rcases first : call.run p t with ⟨_ | _, v⟩
    · rw [first] at ran
      cases ran
    · rw [first] at ran
      obtain ⟨others, between⟩ := holds.step first
      exact ih between ran

theorem Holds.listed (named : p.certsDir ≠ "") :
    ∃ names, listCertificates p t = .ok names ∧ names.Pairwise (· < ·) ∧
      ∀ name, name ∈ names ↔ ∃ content, contents name = some content := by
  refine ⟨(fileNames entries).mergeSort fun a b => a ≤ b,
    listCertificates_of_shows holds.shows named, ?_, fun name => ?_⟩
  · have sorted : ((fileNames entries).mergeSort fun a b => a ≤ b).Pairwise
        fun a b => decide (a ≤ b) = true :=
      List.pairwise_mergeSort (fun a b c => by simpa using le_trans)
        (fun a b => by simpa using le_total a b) (fileNames entries)
    have distinct : (fileNames entries).Nodup := holds.distinct.sublist (fileNames_sublist entries)
    have apart := (List.mergeSort_perm (fileNames entries) fun a b => a ≤ b).nodup_iff.2 distinct
    exact (sorted.and apart).imp fun ⟨le, ne⟩ => lt_of_le_of_ne (of_decide_eq_true le) ne
  · rw [List.mem_mergeSort, mem_fileNames_iff]
    refine exists_congr fun content => ?_
    rw [mem_iff_child? holds.distinct, holds.files]
    simp

end Calls

theorem holds_empty {t : FileTree} {directory : String} (shows : t.Shows directory []) :
    Holds t directory (fun _ => none) [] where
  shows := shows
  distinct := .nil
  files _ := rfl
  short _ _ there := nomatch there

def CertificateCall.savedName? : CertificateCall → Option String
  | save name _ => some name
  | delete _ => none

theorem foldl_store_eq_change {saved : List String}
    (apart : ∀ name ∈ saved, temporary name ∉ saved) {calls : List CertificateCall}
    (within : ∀ name ∈ calls.filterMap (·.savedName?), name ∈ saved) {contents : Contents}
    (known : ∀ name, name ∉ saved → contents name = none) :
    calls.foldl (fun m call => call.store m) contents =
      calls.foldl (fun m call => call.change m) contents := by
  induction calls generalizing contents with
  | nil => rfl
  | cons call calls ih =>
    cases call with
    | save name content =>
      obtain ⟨here, later⟩ := List.forall_mem_cons.1 within
      -- nothing is stored under a temporary name, so that clearing it does nothing
      have clear : (CertificateCall.delete (temporary name)).change contents = contents :=
        Function.update_eq_self_iff.2 (known _ (apart name here)).symm
      rw [List.foldl_cons, List.foldl_cons, CertificateCall.store, clear]
      refine ih later fun other new => ?_
      have ne : other ≠ name := fun same => new (same ▸ here)
      rw [CertificateCall.change, Function.update_of_ne ne]
      exact known other new
    | delete name =>
      refine ih within fun other new => ?_
      refine (CertificateCall.store_delete_apply name contents other).trans ?_
      split
      · rfl
      · exact known other new

/-- From a data directory without certificates, after any calls that succeed: what is listed are the
names with a content in order, and what is read under a name is its content, where a save gives its
name a content and clears its temporary name, and a deletion clears its name.  Unless a name is saved
that is the temporary name of another saved one, nothing is cleared but what is deleted. -/
theorem certificates_of_calls {directory : String} {t u : FileTree}
    {entries : List (String × FileTree)} {calls : List CertificateCall}
    (shows : t.Shows directory entries)
    (vacant : (child? "certs" entries).getD .empty = .empty)
    (ran : runCalls (.of directory) calls t = (.ok (), u)) :
    (∃ names, listCertificates (.of directory) u = .ok names ∧ names.Pairwise (· < ·) ∧
      ∀ name, name ∈ names ↔
        ∃ content, contentsAfter CertificateCall.store calls name = some content) ∧
    (∀ name content, Certificate.validName name = true →
      (u.readPath (join (Paths.of directory).certsDir name) = .ok content ↔
        contentsAfter CertificateCall.store calls name = some content)) ∧
    ((∀ name ∈ calls.filterMap (·.savedName?), temporary name ∉ calls.filterMap (·.savedName?)) →
      contentsAfter CertificateCall.store calls = contentsAfter CertificateCall.change calls) := by
  -- the directory of the certificates is missing at first, which is to have none
  have inside : t.Shows (Paths.of directory).certsDir [] :=
    shows.inside (by decide) (by decide) vacant
  obtain ⟨others, holds⟩ := (holds_empty inside).run ran
  refine ⟨holds.listed (join_ne_empty (by decide) directory), fun name content valid => ?_,
    fun apart => foldl_store_eq_change apart (fun _ => id) fun _ _ => rfl⟩
  have plain := Certificate.plain_of_validName valid
  rw [holds.shows.readPath_eq_ok_iff plain, holds.files]
  change _ ↔ calls.foldl (fun m call => call.store m) (fun _ => none) name = some content
  constructor
  · rintro ⟨-, there⟩
    simpa using there
  · intro stored
    exact ⟨holds.short name content stored, by rw [stored]; rfl⟩

def renewal : List CertificateCall :=
  [.save "site.pem" "first".toUTF8, .save "site.key" "key".toUTF8,
    .save "site.pem" "second".toUTF8, .delete "site.key"]

theorem certificates_of_calls_renewal :
    FileTree.empty.Shows "data" [] ∧ (child? "certs" []).getD .empty = .empty ∧
      ∃ u, runCalls (.of "data") renewal .empty = (.ok (), u) ∧
        u.readPath (join (Paths.of "data").certsDir "site.pem") = .ok "second".toUTF8 := by
  have shows : FileTree.empty.Shows "data" [] :=
    ⟨_, ["data"], rfl, ⟨by decide, rfl, rfl⟩, .inr rfl⟩
  have ran : runCalls (.of "data") renewal .empty =
      (.ok (), (runCalls (.of "data") renewal .empty).2) := Prod.ext (by decide +kernel) rfl
  have read := (certificates_of_calls shows rfl ran).2.1 "site.pem" "second".toUTF8 (by decide)
  exact ⟨shows, rfl, _, ran, read.2 rfl⟩

def clashing : List CertificateCall :=
  [.save "site.pem.tmp" "first".toUTF8, .save "site.pem" "second".toUTF8]

/-- Both calls succeed, and the first certificate is gone although none was deleted. -/
theorem clashing_lost :
    FileTree.empty.Shows "data" [] ∧
      (runCalls (.of "data") clashing .empty).1 = .ok () ∧
      listCertificates (.of "data") (runCalls (.of "data") clashing .empty).2 =
        .ok ["site.pem"] ∧
      contentsAfter CertificateCall.change clashing "site.pem.tmp" = some "first".toUTF8 :=
  ⟨⟨_, ["data"], rfl, ⟨by decide, rfl, rfl⟩, .inr rfl⟩, by decide +kernel, by decide +kernel, rfl⟩

end Store

end ProxyConfig
