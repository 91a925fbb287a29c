import ProxyConfig.Proofs.Admin.GuardedRequests
import ProxyConfig.Proofs.Store.TouchedPaths

/-!
Requests that store and delete certificates stay inside the certificate directory.  The name of an
upload is the last part of the name that was sent, and that of a deletion is taken as it was sent.
Main statements: an accepted name is a single component of a path, a refused one leaves the files as
they are; and whatever name is given, by a call or in a request, nothing is touched but the directory
itself, while it is made, and the entries of the name and of its temporary name.
-/

namespace ProxyConfig

namespace Text

theorem forall_or_exists_last (p : Char → Bool) (s : List Char) :
    (∀ c ∈ s, p c = false) ∨
      ∃ front c last, s = front ++ c :: last ∧ p c = true ∧ ∀ d ∈ last, p d = false := by
  induction s with
  | nil => exact .inl (by simp)
  | cons c s ih =>
    rcases ih with none | ⟨front, d, last, rfl, separates, none⟩
    · by_cases separates : p c = true
      · exact .inr ⟨[], c, s, rfl, separates, none⟩
      · exact .inl (List.forall_mem_cons.2 ⟨Bool.eq_false_iff.2 separates, none⟩)
    · exact .inr ⟨c :: front, d, last, rfl, separates, none⟩

theorem getLast?_splitAll {p : Char → Bool} {c : Char} (separates : p c = true)
    (front : List Char) {last : List Char} (none : ∀ d ∈ last, p d = false) :
    (splitAll p (front ++ c :: last)).getLast? = some last := by
  rw [splitAll_append separates, splitAll_eq_singleton none, List.getLast?_concat]

end Text

namespace Admin

open FileTree ProxyConfig.Path Store

namespace Service

/-- The whole name, or what stands behind the last slash or backslash in it. -/
structure LastPart (name base : String) : Prop where
  part : ∀ c ∈ base.toList, c ≠ '/' ∧ c ≠ '\\'
  last : name = base ∨ ∃ front, name = front ++ "/" ++ base ∨ name = front ++ "\\" ++ base

theorem lastPart_baseName (name : String) : LastPart name (baseName name) := by
  rcases Text.forall_or_exists_last (fun c => c == '/' || c == '\\') name.toList with
    none | ⟨front, c, last, text, separates, none⟩
  · have whole : baseName name = name := by
      rw [baseName, Text.splitAll_eq_singleton none]
      exact String.ofList_toList
    rw [whole]
    exact ⟨fun c here => by simpa using none c here, .inl rfl⟩
  · have base : baseName name = String.ofList last := by
      rw [baseName, text, Text.getLast?_splitAll separates front none]
    have joined : name = String.ofList front ++ String.ofList [c] ++ String.ofList last := by
      rw [← String.toList_inj, text]
      simp
    rw [base]
    refine ⟨fun d here => by simpa using none d (by simpa using here), .inr ⟨String.ofList front, ?_⟩⟩
    simp only [Bool.or_eq_true, beq_iff_eq] at separates
    rcases separates with rfl | rfl
    · exact .inl joined
    · exact .inr joined

/-- Nothing is touched but one entry of a directory, which is a file that is taken away. -/
def TakesAway (directory name : String) (t u : FileTree) : Prop :=
  ∀ path, Touched t u path → path = location (components directory) ++ [name] ∧
    (∃ content, t.nodeAt path = some (.file content)) ∧ u.nodeAt path = none

variable {x : Service} {r : Request} {s : State}

theorem files_putCertificate (x : Service) (r : Request) (s : State) :
    (x.putCertificate r s).2.files = s.files ∨
      ∃ upload, uploadedFile r = .ok upload ∧ (x.putCertificate r s).2.files =
        (Store.saveCertificate x.paths (baseName upload.name) upload.content s.files).2 := by
  unfold putCertificate
  cases uploadedFile r with
  | error message => exact .inl rfl
  | ok upload => exact .inr ⟨upload, rfl, certificateReply_files s _⟩

theorem files_deleteCertificate (x : Service) (r : Request) (s : State) :
    (x.deleteCertificate r s).2.files = s.files ∨
      ∃ name, Query.value r.query "file" = .ok name ∧ (x.deleteCertificate r s).2.files =
        (Store.deleteCertificate x.paths name s.files).2 := by
  unfold deleteCertificate
  cases Query.value r.query "file" with
  | error f => exact .inl rfl
  | ok name => exact .inr ⟨name, rfl, certificateReply_files s _⟩

theorem files_handle {op : Operation} {action : Service.Action} (performs : op.perform x = action)
    (asked : op.AskedBy r) :
    (x.handle r s).2.files = s.files ∨ (x.handle r s).2.files = (action r s).2.files := by
  subst performs
  rcases handle_cases x r s with ⟨other, askedToo, -, handled⟩ | ⟨same, -⟩
  · rw [handled, askedToo.unique asked]
    exact .inr rfl
  · rw [same]
    exact .inl rfl

theorem confined_upload (asked : Operation.putCertificate.AskedBy r) :
    (x.handle r s).2.files = s.files ∨
      ∃ upload base, uploadedFile r = .ok upload ∧ base = baseName upload.name ∧
        LastPart upload.name base ∧ Certificate.validName base = true ∧
        Confined x.paths.certsDir [base, temporary base] s.files (x.handle r s).2.files := by
  have performs : Operation.perform x .putCertificate = x.putCertificate := rfl
  rcases files_handle performs asked with same | performed
  · exact .inl same
  · rw [performed]
    rcases files_putCertificate x r s with same | ⟨upload, sent, files⟩
    · exact .inl same
    · by_cases valid : Certificate.validName (baseName upload.name) = true
      · rw [files]
        exact .inr ⟨upload, _, sent, rfl, lastPart_baseName _, valid,
          confined_saveCertificate _ _ _ _⟩
      · rw [Store.saveCertificate, if_neg valid] at files
        exact .inl files

theorem takesAway_deletion (asked : Operation.deleteCertificate.AskedBy r) :
    (x.handle r s).2.files = s.files ∨
      ∃ given, Query.value r.query "file" = .ok given ∧ Certificate.validName given = true ∧
        TakesAway x.paths.certsDir given s.files (x.handle r s).2.files := by
  have performs : Operation.perform x .deleteCertificate = x.deleteCertificate := rfl
  rcases files_handle performs asked with same | performed
  · exact .inl same
  · rw [performed]
    rcases files_deleteCertificate x r s with same | ⟨given, value, files⟩
    · exact .inl same
    · by_cases valid : Certificate.validName given = true
      · rw [files]
        exact .inr ⟨given, value, valid, fun path => touched_deleteCertificate⟩
      · rw [Store.deleteCertificate, if_neg valid] at files
        exact .inl files

/-- Whatever name is saved, deleted, uploaded or given in a query: nothing is touched outside the
certificate directory, and inside it only the entries of the name and of its temporary name. -/
theorem certificates_stay_inside (x : Service) (name : String) (content : ByteArray) (r : Request)
    (s : State) :
    (if Certificate.validName name then Plain name ∧ Plain (temporary name)
      else Store.saveCertificate x.paths name content s.files =
          (.error (.invalidName name), s.files) ∧
        Store.deleteCertificate x.paths name s.files = (.error (.invalidName name), s.files)) ∧
    Confined x.paths.certsDir [name, temporary name] s.files
      (Store.saveCertificate x.paths name content s.files).2 ∧
    TakesAway x.paths.certsDir name s.files (Store.deleteCertificate x.paths name s.files).2 ∧
    (Operation.putCertificate.AskedBy r → (x.handle r s).2.files = s.files ∨
      ∃ upload base, uploadedFile r = .ok upload ∧ base = baseName upload.name ∧
        LastPart upload.name base ∧ Certificate.validName base = true ∧
        Confined x.paths.certsDir [base, temporary base] s.files (x.handle r s).2.files) ∧
    (Operation.deleteCertificate.AskedBy r → (x.handle r s).2.files = s.files ∨
      ∃ given, Query.value r.query "file" = .ok given ∧ Certificate.validName given = true ∧
        TakesAway x.paths.certsDir given s.files (x.handle r s).2.files) := by
  refine ⟨?_, confined_saveCertificate _ _ _ _, fun path => touched_deleteCertificate,
    confined_upload, takesAway_deletion⟩
  split
  case isTrue valid =>
    have plain := Certificate.plain_of_validName valid
    exact ⟨plain, plain_temporary plain⟩
  case isFalse refused =>
    rw [Store.saveCertificate, Store.deleteCertificate, if_neg refused, if_neg refused]
    exact ⟨rfl, rfl⟩

def strayUpload : Request where
  method := "POST"
  target := "/api/certs"
  headers := [("X-Requested-With", "XMLHttpRequest"),
    ("Content-Type", "multipart/form-data; boundary=b")]
  body := ("--b\r\nContent-Disposition: form-data; name=\"file\"; " ++
    "filename=\"../../etc/site.pem\"\r\n\r\nKEY\r\n--b--\r\n").toUTF8

theorem certificates_stay_inside_strayUpload :
    Plain "site.pem" ∧ Operation.putCertificate.AskedBy strayUpload ∧
      (echoing.handle strayUpload { files := .empty }).2.files.nodeAt
        ["data", "certs", "site.pem"] = some (.file "KEY".toUTF8) ∧
      Confined (Paths.of "data").certsDir ["site.pem", temporary "site.pem"] .empty
        (echoing.handle strayUpload { files := .empty }).2.files := by
  have stored : (echoing.handle strayUpload { files := .empty }).2.files.nodeAt
      ["data", "certs", "site.pem"] = some (.file "KEY".toUTF8) := by decide +kernel
  have sent : (uploadedFile strayUpload).map (·.name) = .ok "../../etc/site.pem" := by
    decide +kernel
  have asked : Operation.putCertificate.AskedBy strayUpload := by decide
  obtain ⟨accepted, -, -, uploads, -⟩ :=
    certificates_stay_inside echoing "site.pem" "KEY".toUTF8 strayUpload { files := .empty }
  refine ⟨accepted.1, asked, stored, ?_⟩
  rcases uploads asked with same | ⟨upload, base, read, rfl, -, -, confined⟩
  · rw [same] at stored
    cases stored
  · rw [read] at sent
    have name : upload.name = "../../etc/site.pem" := Except.ok.inj sent
    have base : baseName upload.name = "site.pem" := by rw [name]; decide +kernel
    rw [base] at confined
    exact confined

end Service

end Admin

end ProxyConfig
