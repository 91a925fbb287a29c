import ProxyConfig.Proofs.Admin.Operations
import ProxyConfig.Proofs.Store.WholeWrites

/-!
What is stored after a document could not be saved.  A save writes the document and then the text
it compiles to, and nothing is taken back.  Main statement: a failed save leaves the text as it was,
and the document too unless it is the text that could not be written; then the new document is
stored.  A data directory whose path goes upwards may be there only once the directories on the way
have been made, and then what it holds comes to light.
-/

namespace ProxyConfig.Admin

open FileTree ProxyConfig.Path Store

theorem canonical_of_readBody {r : Request} {doc : Document}
    (sent : readBody Document.layout.read r = .ok doc) :
    ∀ h ∈ doc.handlers, h.action.Canonical := by
  unfold readBody at sent
  split at sent
  case isTrue => cases sent
  case isFalse =>
    split at sent
    case isTrue => cases sent
    case isFalse => exact Document.canonical_of_ofJson (mapError_eq_ok_iff.1 sent)

namespace Service

variable {x : Service} {r : Request} {s : State}

theorem handle_putDocument (post : r.method = "POST") (path : r.path = "/api/config/structured")
    (failed : (x.handle r s).1.status = 500) : x.handle r s = x.putDocument r s := by
  have asked : Operation.putDocument.AskedBy r := ⟨post, path⟩
  by_cases marked : r.Marked
  · exact handle_of_askedBy asked marked
  · rw [handle_of_not_marked asked marked] at failed
    cases failed

/-- A failed save stops at the document or at the text. -/
theorem putDocument_cases (failed : (x.putDocument r s).1.status = 500) :
    ∃ doc, readBody Document.layout.read r = .ok doc ∧
      ((∃ e, saveDocument x.paths doc s.files = (.error e, (x.putDocument r s).2.files) ∧
          (x.putDocument r s).1 = .failure "Failed to save config") ∨
        ∃ e files, saveDocument x.paths doc s.files = (.ok (), files) ∧
          writeCaddyfile x.paths (Caddyfile.compile x.certsDir doc).text files =
            (.error e, (x.putDocument r s).2.files) ∧
          (x.putDocument r s).1 = .failure "Failed to write Caddyfile") := by
  rcases ended : x.putDocument r s with ⟨reply, files, metrics⟩
  rw [ended] at failed
  cases documentSave_of_putDocument ended with
  | refused => cases failed
  | unsaved sent unsaved => exact ⟨_, sent, .inl ⟨_, unsaved, rfl⟩⟩
  | unwritten sent saved unwritten => exact ⟨_, sent, .inr ⟨_, _, saved, unwritten, rfl⟩⟩
  | done => cases failed

theorem loadDocument_of_text_failure {directory : String} (located : x.paths = .of directory)
    (post : r.method = "POST") (path : r.path = "/api/config/structured")
    (answer : (x.handle r s).1 = .failure "Failed to write Caddyfile") {doc : Document}
    (sent : readBody Document.layout.read r = .ok doc) :
    loadDocument x.paths (x.handle r s).2.files = .ok doc := by
  have failed : (x.handle r s).1.status = 500 := congrArg Response.status answer
  have handled := handle_putDocument post path failed
  rw [handled] at failed answer ⊢
  obtain ⟨other, read, ⟨e, -, unsaved⟩ | ⟨e, files, saved, unwritten, -⟩⟩ :=
    putDocument_cases failed
  · exact absurd (unsaved.symm.trans answer) (by decide)
  · rw [sent] at read
    cases read
    rw [located] at saved unwritten ⊢
    exact (read_of_not_written (canonical_of_readBody sent) saved unwritten).2

/-- What a failed request to save a document leaves of the files `before`: the text, and the document
too if it could not be written; if it was the text that could not be, the document of the request is
stored. -/
def LeavesOf (x : Service) (r : Request) (before : FileTree) (ended : Response × State) : Prop :=
  readCaddyfile x.paths ended.2.files = readCaddyfile x.paths before ∧
    (ended.1 = .failure "Failed to save config" ∧
        loadDocument x.paths ended.2.files = loadDocument x.paths before ∨
      ended.1 = .failure "Failed to write Caddyfile" ∧
        ∃ doc, readBody Document.layout.read r = .ok doc ∧
          loadDocument x.paths ended.2.files = .ok doc)

theorem leavesOf_made {directory : String} (located : x.paths = .of directory)
    (failed : (x.putDocument r s).1.status = 500) :
    x.LeavesOf r (s.files.makePath directory).2 (x.putDocument r s) := by
  obtain ⟨doc, sent, ⟨e, unsaved, answer⟩ | ⟨e, files, saved, unwritten, answer⟩⟩ :=
    putDocument_cases failed
  · rw [located] at unsaved
    rw [LeavesOf, located]
    obtain ⟨text, document⟩ := read_of_not_saved unsaved
    exact ⟨text, .inl ⟨answer, document⟩⟩
  · rw [located] at saved unwritten
    rw [LeavesOf, located]
    obtain ⟨text, document⟩ := read_of_not_written (canonical_of_readBody sent) saved unwritten
    exact ⟨text, .inr ⟨answer, doc, sent, document⟩⟩

theorem read_of_makePath_of_direct {directory : String} {t : FileTree}
    (whole : Direct directory ∨ ∃ entries, t.Shows directory entries) :
    readCaddyfile (.of directory) (t.makePath directory).2 = readCaddyfile (.of directory) t ∧
      loadDocument (.of directory) (t.makePath directory).2 = loadDocument (.of directory) t := by
  have cases : (∃ entries, t.Shows directory entries) ∨
      ∃ e, t.makePath directory = (some e, t) :=
    whole.elim (·.shows_or_not_made t) .inl
  rcases cases with ⟨entries, shows⟩ | ⟨e, unmade⟩
  · exact read_of_makePath shows
  · rw [unmade]
    exact ⟨rfl, rfl⟩

/-- If a request to save a document fails, the compiled text reads as before the request, and so does
the document unless it is the text that could not be written; then the document of the request is
stored.  This is so for every data directory whose path goes downwards only, under names of allowed
length, and for every one that is there; for any other, before the request means after the directory
was made. -/
theorem failed_save_keeps_text {directory : String} (located : x.paths = .of directory)
    (post : r.method = "POST") (path : r.path = "/api/config/structured")
    (failed : (x.handle r s).1.status = 500) :
    ((Direct directory ∨ ∃ entries, s.files.Shows directory entries) →
        x.LeavesOf r s.files (x.handle r s)) ∧
      x.LeavesOf r (s.files.makePath directory).2 (x.handle r s) := by
  have handled := handle_putDocument post path failed
  rw [handled] at failed ⊢
  have made := leavesOf_made located failed
  refine ⟨fun whole => ?_, made⟩
  rw [LeavesOf, located] at made ⊢
  rw [← (read_of_makePath_of_direct whole).1, ← (read_of_makePath_of_direct whole).2]
  exact made

def ofDirectory (directory : String) : Service where
  paths := .of directory
  certsDir := Certificate.usualDirectory
  control := fun _ metrics => (.ok ⟨"", ""⟩, metrics)
  showsMetrics := false

def blocked (name : String) : State where
  files := .directory [("data", .directory [(temporary name, .directory [])])]

def switchOn : Request where
  method := "POST"
  target := "/api/config/structured"
  headers := [("X-Requested-With", "XMLHttpRequest"), ("Content-Type", "application/json")]
  body := "\x7b\"general\":\x7b\"enabled\":true\x7d\x7d".toUTF8

def occupied : State where
  files := .directory [("data", .file "notes".toUTF8)]

theorem failed_save_keeps_text_unwritable :
    (ofDirectory "data").paths = .of "data" ∧ switchOn.method = "POST" ∧
      switchOn.path = "/api/config/structured" ∧ Direct "data" ∧
      ∀ s ∈ [blocked "config.json", occupied],
        ((ofDirectory "data").handle switchOn s).1.status = 500 ∧
          (ofDirectory "data").LeavesOf switchOn s.files ((ofDirectory "data").handle switchOn s) := by
  have path : switchOn.path = "/api/config/structured" := by decide
  have direct : Direct "data" := by decide
  have failed : ∀ s ∈ [blocked "config.json", occupied],
      ((ofDirectory "data").handle switchOn s).1.status = 500 := by
    simp only [List.forall_mem_cons]
    refine ⟨?_, ?_, by simp⟩ <;> decide +kernel
  exact ⟨rfl, rfl, path, direct, fun s hs =>
    ⟨failed s hs, (failed_save_keeps_text rfl rfl path (failed s hs)).1 (.inl direct)⟩⟩

def settled : State where
  files := .directory [("data", .directory [("config.json",
    .file "\x7b\"general\":\x7b\"enabled\":true\x7d\x7d".toUTF8),
      (temporary "config.json", .directory [])])]

/-- If the text cannot be written, the new document is stored all the same.  And where the way to the
data directory goes through a missing directory and back, a document is found after the request that
was not found before, though it could not be replaced. -/
theorem failed_save_changes_document :
    (((ofDirectory "data").handle switchOn (blocked "Caddyfile")).1.status = 500 ∧
      loadDocument (.of "data") (blocked "Caddyfile").files = .ok .initial ∧
      loadDocument (.of "data") ((ofDirectory "data").handle switchOn (blocked "Caddyfile")).2.files =
        .ok { general := { enabled := true } } ∧
      Document.initial ≠ { general := { enabled := true } }) ∧
    ((ofDirectory "missing/../data").handle switchOn settled).1 =
        .failure "Failed to save config" ∧
      loadDocument (.of "missing/../data") settled.files = .ok .initial ∧
      loadDocument (.of "missing/../data")
          ((ofDirectory "missing/../data").handle switchOn settled).2.files =
        .ok { general := { enabled := true } } := by
  have sent : readBody Document.layout.read switchOn = .ok { general := { enabled := true } } := by
    decide +kernel
  have answer : ((ofDirectory "data").handle switchOn (blocked "Caddyfile")).1 =
      .failure "Failed to write Caddyfile" := by
    decide +kernel
  have hidden : loadDocument (.of "missing/../data") settled.files = .ok .initial := by
    decide +kernel
  have found : loadDocument (.of "missing/../data")
      ((ofDirectory "missing/../data").handle switchOn settled).2.files =
        .ok { general := { enabled := true } } := by
    decide +kernel
  exact ⟨⟨congrArg Response.status answer, by decide +kernel,
    loadDocument_of_text_failure rfl rfl (by decide) answer sent, by decide⟩,
    by decide +kernel, hidden, found⟩

end Service

end ProxyConfig.Admin
