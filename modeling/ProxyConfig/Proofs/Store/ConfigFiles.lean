import ProxyConfig.Proofs.Document.RoundTrip
import ProxyConfig.Proofs.Store.CertificateChanges
import ProxyConfig.Proofs.Text.Utf8

/-!
The stored document and the compiled text, as they are read from what the data directory shows.
Main statements: each depends on one entry alone, a saved document is loaded again, and a save that
fails half way leaves the new document beside the old text.  `Stored` says what both are; the two
writes change one of them each, and certificates change neither.
-/

namespace ProxyConfig.Store

open FileTree ProxyConfig.Path

variable {directory : String} {t u : FileTree} {entries others : List (String × FileTree)}

theorem readText_congr (before : t.Shows directory entries) (after : u.Shows directory others)
    {name : String} (plain : Plain name) (short : ¬ nameLimit < name.utf8ByteSize)
    (same : child? name others = child? name entries) :
    readText u (join directory name) = readText t (join directory name) := by
  rw [readText, readText, before.readPath plain short, after.readPath plain short, same]

theorem loadDocument_congr (before : t.Shows directory entries) (after : u.Shows directory others)
    (same : child? "config.json" others = child? "config.json" entries) :
    loadDocument (.of directory) u = loadDocument (.of directory) t := by
  have text : readText u (Paths.of directory).document =
      readText t (Paths.of directory).document :=
    readText_congr before after (by decide) (by decide) same
  rw [loadDocument, loadDocument, text]

theorem readCaddyfile_congr (before : t.Shows directory entries) (after : u.Shows directory others)
    (same : child? "Caddyfile" others = child? "Caddyfile" entries) :
    readCaddyfile (.of directory) u = readCaddyfile (.of directory) t := by
  have text : readText u (Paths.of directory).caddyfile =
      readText t (Paths.of directory).caddyfile :=
    readText_congr before after (by decide) (by decide) same
  rw [readCaddyfile, readCaddyfile, text]

theorem read_of_makePath (shows : t.Shows directory entries) :
    readCaddyfile (.of directory) (t.makePath directory).2 = readCaddyfile (.of directory) t ∧
      loadDocument (.of directory) (t.makePath directory).2 = loadDocument (.of directory) t := by
  obtain ⟨u, names, made, led, -⟩ := id shows
  rw [made]
  exact ⟨readCaddyfile_congr shows led.shows rfl, loadDocument_congr shows led.shows rfl⟩

theorem readText_of_file (shows : t.Shows directory entries) {name : String} (plain : Plain name)
    (short : ¬ nameLimit < name.utf8ByteSize) {text : String}
    (stored : child? name entries = some (.file text.toUTF8)) :
    readText t (join directory name) = .ok text := by
  rw [readText, shows.readPath plain short, stored]
  simp only [contentOf, Text.strict_toUTF8]

theorem loadDocument_of_written (shows : t.Shows directory entries) {doc : Document}
    (stored : child? "config.json" entries = some (.file doc.pretty.toUTF8)) :
    loadDocument (.of directory) t = .ok doc.reread := by
  have text : readText t (Paths.of directory).document = .ok doc.pretty :=
    readText_of_file shows (by decide) (by decide) stored
  rw [loadDocument, text]
  simp only [Document.ofJson_written]
  rfl

theorem loadDocument_of_file (shows : t.Shows directory entries) {doc : Document}
    (canonical : ∀ h ∈ doc.handlers, h.action.Canonical)
    (stored : child? "config.json" entries = some (.file doc.pretty.toUTF8)) :
    loadDocument (.of directory) t = .ok doc := by
  rw [loadDocument_of_written shows stored, Document.reread_eq_of_canonical canonical]

theorem readCaddyfile_of_file (shows : t.Shows directory entries) {text : String}
    (stored : child? "Caddyfile" entries = some (.file text.toUTF8)) :
    readCaddyfile (.of directory) t = .ok text := by
  have read : readText t (Paths.of directory).caddyfile = .ok text :=
    readText_of_file shows (by decide) (by decide) stored
  rw [readCaddyfile, read]

theorem read_of_not_saved {doc : Document} {e : StoreError}
    (failed : saveDocument (.of directory) doc t = (.error e, u)) :
    readCaddyfile (.of directory) u = readCaddyfile (.of directory) (t.makePath directory).2 ∧
      loadDocument (.of directory) u = loadDocument (.of directory) (t.makePath directory).2 := by
  obtain rfl | ⟨entries, others, before, after, same⟩ := replaceFile_failed (by decide) failed
  · exact ⟨rfl, rfl⟩
  · exact ⟨readCaddyfile_congr before after (same _ (by decide)),
      loadDocument_congr before after (same _ (by decide))⟩

theorem read_of_not_written {doc : Document} (canonical : ∀ h ∈ doc.handlers, h.action.Canonical)
    {v : FileTree} (saved : saveDocument (.of directory) doc t = (.ok (), v)) {text : String}
    {e : StoreError} (failed : writeCaddyfile (.of directory) text v = (.error e, u)) :
    readCaddyfile (.of directory) u = readCaddyfile (.of directory) (t.makePath directory).2 ∧
      loadDocument (.of directory) u = .ok doc := by
  obtain ⟨entries, between, before, shows, result⟩ := shows_of_replaceFile (by decide) saved
  obtain ⟨others, after, same⟩ := shows.of_not_replaced (by decide) failed
  have kept : child? "Caddyfile" others = child? "Caddyfile" entries := by
    rw [same _ (by decide), result, if_neg (by decide), if_neg (by decide)]
  have stored : child? "config.json" others = some (.file doc.pretty.toUTF8) := by
    rw [same _ (by decide), result, if_neg (by decide), if_pos rfl]
  exact ⟨readCaddyfile_congr before after kept, loadDocument_of_file after canonical stored⟩

/-- What a data directory shows, and the document and the text that are read from it. -/
structure Stored (directory : String) (t : FileTree) (entries : List (String × FileTree))
    (doc : Document) (text : String) : Prop where
  shows : t.Shows directory entries
  document : loadDocument (.of directory) t = .ok doc
  caddyfile : readCaddyfile (.of directory) t = .ok text

theorem stored_initial (shows : t.Shows directory entries)
    (noDocument : child? "config.json" entries = none)
    (noText : child? "Caddyfile" entries = none) : Stored directory t entries .initial "" where
  shows := shows
  document := by
    have missing : t.readPath (Paths.of directory).document = .error .notFound := by
      rw [Paths.of, shows.readPath (by decide) (by decide), noDocument]
      rfl
    rw [loadDocument, readText, missing]
  caddyfile := by
    have missing : t.readPath (Paths.of directory).caddyfile = .error .notFound := by
      rw [Paths.of, shows.readPath (by decide) (by decide), noText]
      rfl
    rw [readCaddyfile, readText, missing]

variable {doc new : Document} {text : String}

theorem Stored.kept (stored : Stored directory t entries doc text)
    (after : u.Shows directory others) (same : SameBut "certs" entries others) :
    Stored directory u others doc text where
  shows := after
  document :=
    (loadDocument_congr stored.shows after (same _ (by decide))).trans stored.document
  caddyfile :=
    (readCaddyfile_congr stored.shows after (same _ (by decide))).trans stored.caddyfile

theorem Stored.saveDocument (stored : Stored directory t entries doc text)
    (canonical : ∀ h ∈ new.handlers, h.action.Canonical)
    (saved : saveDocument (.of directory) new t = (.ok (), u)) :
    ∃ others, Stored directory u others new text := by
  obtain ⟨others, after, result⟩ := stored.shows.of_replaced (by decide) saved
  have replaced : child? "config.json" others = some (.file new.pretty.toUTF8) := by
    rw [result, if_neg (by decide), if_pos rfl]
  have same : child? "Caddyfile" others = child? "Caddyfile" entries := by
    rw [result, if_neg (by decide), if_neg (by decide)]
  exact ⟨others, after, loadDocument_of_file after canonical replaced,
    (readCaddyfile_congr stored.shows after same).trans stored.caddyfile⟩

theorem Stored.writeCaddyfile (stored : Stored directory t entries doc text) {written : String}
    (done : writeCaddyfile (.of directory) written t = (.ok (), u)) :
    ∃ others, Stored directory u others doc written := by
  obtain ⟨others, after, result⟩ := stored.shows.of_replaced (by decide) done
  have replaced : child? "Caddyfile" others = some (.file written.toUTF8) := by
    rw [result, if_neg (by decide), if_pos rfl]
  have same : child? "config.json" others = child? "config.json" entries := by
    rw [result, if_neg (by decide), if_neg (by decide)]
  exact ⟨others, after, (loadDocument_congr stored.shows after same).trans stored.document,
    readCaddyfile_of_file after replaced⟩

end ProxyConfig.Store
