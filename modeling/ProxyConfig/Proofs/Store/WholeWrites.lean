import ProxyConfig.Proofs.Store.ConfigFiles

/-!
Saving a document and writing the text, for those who read the two files afterwards.  The data
directory's path has no steps upwards and its names are of allowed length, so that making the
directory either fails and changes nothing, or succeeds.  Main statements: a write that succeeds
changes what is read of its own file, to what was written, and nothing else that is read; one that
fails changes nothing that is read, wherever it stops; and a write succeeds exactly if neither the
directory's path nor the two names it uses are taken by something else.
-/

namespace ProxyConfig

open FileTree ProxyConfig.Path Store

namespace FileTree

theorem makeDirectories_empty {path : List String}
    (short : ∀ name ∈ path, ¬ nameLimit < name.utf8ByteSize) :
    (empty.makeDirectories path).1 = none := by
  induction path with
  | nil => rfl
  | cons name path ih =>
    rw [List.forall_mem_cons] at short
    rw [empty, makeDirectories, if_neg short.1]
    exact ih short.2

theorem eq_of_not_made {t u : FileTree} {path : List String} {e : FileError}
    (short : ∀ name ∈ path, ¬ nameLimit < name.utf8ByteSize)
    (failed : t.makeDirectories path = (some e, u)) : u = t := by
  induction path generalizing t u with
  | nil =>
    cases t with
    | file content =>
      cases failed
      rfl
    | directory entries => cases failed
  | cons name path ih =>
    cases t with
    | file content =>
      cases failed
      rfl
    | directory entries =>
      rw [List.forall_mem_cons] at short
      rw [makeDirectories, if_neg short.1] at failed
      rcases below : ((child? name entries).getD empty).makeDirectories path with ⟨f, v⟩
      simp only [below, Prod.mk.injEq] at failed
      obtain ⟨rfl, rfl⟩ := failed
      cases entry : child? name entries with
      | none =>
        rw [entry, Option.getD_none] at below
        -- below a missing directory nothing is in the way
        have made := makeDirectories_empty short.2
        rw [below] at made
        cases made
      | some child =>
        rw [entry, Option.getD_some] at below
        rw [ih short.2 below, putChild_of_child? entry]

theorem resolve_down (t : FileTree) (above : List String) {path : List String}
    (down : ".." ∉ path) : t.resolve above path = .ok (above.reverse ++ path) := by
  induction path generalizing above with
  | nil => rw [resolve, List.append_nil]
  | cons name path ih =>
    rw [List.mem_cons, not_or] at down
    rw [resolve_name t above (Ne.symm down.1), ih (name :: above) down.2, List.reverse_cons,
      List.append_assoc, List.singleton_append]

theorem makeAlong_down (above : List String) {path : List String} (down : ".." ∉ path)
    (t : FileTree) : makeAlong above path t = t.makeDirectories (above.reverse ++ path) := by
  induction path generalizing above with
  | nil => rw [makeAlong, List.append_nil]
  | cons name path ih =>
    rw [List.mem_cons, not_or] at down
    rw [makeAlong_name above (Ne.symm down.1), ih (name :: above) down.2, List.reverse_cons,
      List.append_assoc, List.singleton_append]

/-- A path that leads downwards only, under names of allowed length. -/
structure Direct (directory : String) : Prop where
  down : ".." ∉ components directory
  short : ∀ name ∈ components directory, ¬ nameLimit < name.utf8ByteSize

instance : DecidablePred Direct := fun directory =>
  decidable_of_iff (".." ∉ components directory ∧
      ∀ name ∈ components directory, ¬ nameLimit < name.utf8ByteSize)
    ⟨fun ⟨down, short⟩ => ⟨down, short⟩, fun direct => ⟨direct.down, direct.short⟩⟩

variable {t u : FileTree} {directory name : String} {content : ByteArray}

/-- A directory with a direct path shows its entries, or it cannot be made and nothing changes. -/
theorem Direct.shows_or_not_made (direct : Direct directory) (t : FileTree) :
    (∃ entries, t.Shows directory entries) ∨ ∃ e, t.makePath directory = (some e, t) := by
  rcases made : t.makePath directory with ⟨_ | e, u⟩
  · refine .inl ?_
    have making := made
    rw [makePath] at making
    split at making
    case isTrue => cases making
    case isFalse text =>
      rw [makeAlong_down [] direct.down, List.reverse_nil, List.nil_append] at making
      have leads (v : FileTree) : v.resolve [] (components directory) = .ok (components directory) :=
        resolve_down v [] direct.down
      rcases find_of_makeDirectories making with ⟨rfl, entries, there⟩ | ⟨-, now⟩
      · exact ⟨entries, LeadsTo.shows ⟨text, leads u, there⟩⟩
      · exact ⟨[], u, _, made, ⟨text, leads u, now⟩, .inr rfl⟩
  · refine .inr ⟨e, ?_⟩
    rw [makePath] at made
    split at made
    case isTrue =>
      cases made
      rfl
    case isFalse =>
      rw [makeAlong_down [] direct.down, List.reverse_nil, List.nil_append] at made
      rw [eq_of_not_made direct.short made]

theorem Direct.of_replaced (direct : Direct directory) (plain : Plain name)
    (done : Store.replaceFile (join directory name) content t = (.ok (), u)) :
    ∃ entries others, t.Shows directory entries ∧ u.Shows directory others ∧
      ∀ other, child? other others =
        if other = temporary name then none
        else if other = name then some (.file content) else child? other entries := by
  rcases direct.shows_or_not_made t with ⟨entries, before⟩ | ⟨e, failed⟩
  · obtain ⟨others, after, result⟩ := before.of_replaced plain done
    exact ⟨entries, others, before, after, result⟩
  · rw [replaceFile_of_not_made plain failed] at done
    cases done

theorem Direct.of_not_replaced (direct : Direct directory) (plain : Plain name) {e : StoreError}
    (failed : Store.replaceFile (join directory name) content t = (.error e, u)) :
    u = t ∨ ∃ entries others, t.Shows directory entries ∧ u.Shows directory others ∧
      ∀ other, other ≠ temporary name → child? other others = child? other entries := by
  rcases direct.shows_or_not_made t with ⟨entries, before⟩ | ⟨f, unmade⟩
  · obtain ⟨others, after, same⟩ := before.of_not_replaced plain failed
    exact .inr ⟨entries, others, before, after, same⟩
  · rw [replaceFile_of_not_made plain unmade] at failed
    cases failed
    exact .inl rfl

theorem replaced_eq_ok_iff {entries : List (String × FileTree)} :
    (replaced name content entries).1 = .ok () ↔
      ¬ nameLimit < (temporary name).utf8ByteSize ∧ Writable (temporary name) entries ∧
        Writable name entries := by
  unfold replaced
  dsimp only
  split
  case isTrue long => exact ⟨nofun, fun ⟨short, _⟩ => absurd long short⟩
  case isFalse short =>
    split
    case isTrue taken => exact ⟨nofun, fun ⟨_, free, _⟩ => absurd free taken⟩
    case isFalse free =>
      split
      case isTrue taken => exact ⟨nofun, fun ⟨_, _, open_⟩ => absurd open_ taken⟩
      case isFalse open_ =>
        exact ⟨fun _ => ⟨short, Decidable.not_not.1 free, Decidable.not_not.1 open_⟩, fun _ => rfl⟩

theorem replaceFile_eq_ok_iff (direct : Direct directory) (plain : Plain name)
    (short : ¬ nameLimit < (temporary name).utf8ByteSize) :
    (Store.replaceFile (join directory name) content t).1 = .ok () ↔
      ∃ entries, t.Shows directory entries ∧ Writable (temporary name) entries ∧
        Writable name entries := by
  constructor
  · intro done
    rcases direct.shows_or_not_made t with ⟨entries, shows⟩ | ⟨e, failed⟩
    · rw [(shows.replaceFile plain content).1, mapError_eq_ok_iff, replaced_eq_ok_iff] at done
      exact ⟨entries, shows, done.2⟩
    · rw [replaceFile_of_not_made plain failed] at done
      cases done
  · rintro ⟨entries, shows, free⟩
    rw [(shows.replaceFile plain content).1, mapError_eq_ok_iff, replaced_eq_ok_iff]
    exact ⟨short, free⟩

end FileTree

namespace Store

variable {directory : String} {t u : FileTree}

theorem read_of_saved (direct : Direct directory) {doc : Document}
    (saved : saveDocument (.of directory) doc t = (.ok (), u)) :
    loadDocument (.of directory) u = .ok doc.reread ∧
      readCaddyfile (.of directory) u = readCaddyfile (.of directory) t := by
  obtain ⟨entries, others, before, after, result⟩ := direct.of_replaced (by decide) saved
  have stored : child? "config.json" others = some (.file doc.pretty.toUTF8) := by
    rw [result, if_neg (by decide), if_pos rfl]
  have kept : child? "Caddyfile" others = child? "Caddyfile" entries := by
    rw [result, if_neg (by decide), if_neg (by decide)]
  exact ⟨loadDocument_of_written after stored, readCaddyfile_congr before after kept⟩

theorem read_of_text_written (direct : Direct directory) {text : String}
    (written : writeCaddyfile (.of directory) text t = (.ok (), u)) :
    readCaddyfile (.of directory) u = .ok text ∧
      loadDocument (.of directory) u = loadDocument (.of directory) t := by
  obtain ⟨entries, others, before, after, result⟩ := direct.of_replaced (by decide) written
  have stored : child? "Caddyfile" others = some (.file text.toUTF8) := by
    rw [result, if_neg (by decide), if_pos rfl]
  have kept : child? "config.json" others = child? "config.json" entries := by
    rw [result, if_neg (by decide), if_neg (by decide)]
  exact ⟨readCaddyfile_of_file after stored, loadDocument_congr before after kept⟩

theorem read_of_not_replaced (direct : Direct directory) {name : String} (plain : Plain name)
    {content : ByteArray} {e : StoreError}
    (failed : replaceFile (join directory name) content t = (.error e, u))
    (document : "config.json" ≠ temporary name) (caddyfile : "Caddyfile" ≠ temporary name) :
    loadDocument (.of directory) u = loadDocument (.of directory) t ∧
      readCaddyfile (.of directory) u = readCaddyfile (.of directory) t := by
  obtain rfl | ⟨entries, others, before, after, same⟩ := direct.of_not_replaced plain failed
  · exact ⟨rfl, rfl⟩
  · exact ⟨loadDocument_congr before after (same _ document),
      readCaddyfile_congr before after (same _ caddyfile)⟩

/-- The data directory is there or can be made, and no directory in it has the name of the file or its
temporary name. -/
def Open (directory name : String) (t : FileTree) : Prop :=
  ∃ entries, t.Shows directory entries ∧ Writable (temporary name) entries ∧ Writable name entries

/-- A write that succeeds is read whole and changes nothing else that is read; a write that fails
changes nothing that is read.  It succeeds exactly if nothing is in its way. -/
theorem writes_whole_or_not_at_all (direct : Direct directory) (t : FileTree) (doc : Document)
    (text : String) :
    (∀ u, saveDocument (.of directory) doc t = (.ok (), u) →
      (∃ back, Document.ofText .json doc.pretty = .ok back ∧
        loadDocument (.of directory) u = .ok back ∧
        ((∀ h ∈ doc.handlers, h.action.Canonical) → back = doc)) ∧
      readCaddyfile (.of directory) u = readCaddyfile (.of directory) t) ∧
    (∀ u, writeCaddyfile (.of directory) text t = (.ok (), u) →
      readCaddyfile (.of directory) u = .ok text ∧
      loadDocument (.of directory) u = loadDocument (.of directory) t) ∧
    (∀ e u, saveDocument (.of directory) doc t = (.error e, u) ∨
        writeCaddyfile (.of directory) text t = (.error e, u) →
      loadDocument (.of directory) u = loadDocument (.of directory) t ∧
      readCaddyfile (.of directory) u = readCaddyfile (.of directory) t) ∧
    ((saveDocument (.of directory) doc t).1 = .ok () ↔ Open directory "config.json" t) ∧
    ((writeCaddyfile (.of directory) text t).1 = .ok () ↔ Open directory "Caddyfile" t) := by
  refine ⟨fun u saved => ?_, fun u written => read_of_text_written direct written, ?_,
    replaceFile_eq_ok_iff direct (by decide) (by decide),
    replaceFile_eq_ok_iff direct (by decide) (by decide)⟩
  · obtain ⟨loaded, kept⟩ := read_of_saved direct saved
    exact ⟨⟨doc.reread, Document.ofJson_written doc, loaded, Document.reread_eq_of_canonical⟩, kept⟩
  · rintro e u (failed | failed)
    · exact read_of_not_replaced direct (by decide) failed (by decide) (by decide)
    · exact read_of_not_replaced direct (by decide) failed (by decide) (by decide)

def halfBlocked : FileTree :=
  .directory [("data", .directory [("Caddyfile", .file "old".toUTF8),
    (temporary "Caddyfile", .directory [])])]

theorem writes_whole_or_not_at_all_halfBlocked :
    Direct "./data" ∧
      (∃ u, saveDocument (.of "./data") .initial halfBlocked = (.ok (), u) ∧
        loadDocument (.of "./data") u = .ok .initial ∧
        readCaddyfile (.of "./data") u = .ok "old") ∧
      ∃ e u, writeCaddyfile (.of "./data") "new" halfBlocked = (.error e, u) ∧
        readCaddyfile (.of "./data") u = .ok "old" := by
  have direct : Direct "./data" := by decide
  have before : readCaddyfile (.of "./data") halfBlocked = .ok "old" := by decide +kernel
  obtain ⟨saved, -, failed, -⟩ :=
    writes_whole_or_not_at_all direct halfBlocked .initial "new"
  have first : saveDocument (.of "./data") .initial halfBlocked =
      (.ok (), (saveDocument (.of "./data") .initial halfBlocked).2) :=
    Prod.ext (by decide +kernel) rfl
  have second : writeCaddyfile (.of "./data") "new" halfBlocked =
      (.error (.io .isDirectory), (writeCaddyfile (.of "./data") "new" halfBlocked).2) :=
    Prod.ext (by decide +kernel) rfl
  obtain ⟨⟨back, -, loaded, same⟩, kept⟩ := saved _ first
  refine ⟨direct, ⟨_, first, ?_, kept.trans before⟩, _, _, second,
    (failed _ _ (.inr second)).2.trans before⟩
  rw [loaded, same (by simp [Document.initial])]

end Store

end ProxyConfig
