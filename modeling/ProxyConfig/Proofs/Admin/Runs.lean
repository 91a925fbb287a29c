import ProxyConfig.Proofs.Admin.FailedSave

/-!
What is stored after a run of requests.  Main statement: as long as no save breaks off, the document
and the text that are read are those of the last saves that were done, whatever other requests came in
between; and if the last save was one of a document, the text is what the document compiles to.
-/

namespace ProxyConfig.Admin

open Store

structure Exchange where
  request : Request
  reply : Response

namespace Exchange

/-- The request asked for the operation, and it was done. -/
def Did (op : Operation) (e : Exchange) : Prop := op.AskedBy e.request ∧ e.reply.status = 200

instance (op : Operation) : DecidablePred (Did op) := fun _ => inferInstanceAs (Decidable (_ ∧ _))

/-- The request asked for a save of the document or of the text. -/
def AsksToSave (e : Exchange) : Prop :=
  Operation.putDocument.AskedBy e.request ∨ Operation.putText.AskedBy e.request

instance : DecidablePred AsksToSave := fun _ => inferInstanceAs (Decidable (_ ∨ _))

def Saved (e : Exchange) : Prop := e.Did .putDocument ∨ e.Did .putText

instance : DecidablePred Saved := fun _ => inferInstanceAs (Decidable (_ ∨ _))

/-- What the request sent is the document. -/
def Sent (e : Exchange) (doc : Document) : Prop :=
  readBody Document.layout.read e.request = .ok doc

/-- The text beside a document is the one that was sent, or the document's own if it is the document
that was sent; then the reply counts the sites. -/
def Wrote (x : Service) (e : Exchange) (config : Document × String) : Prop :=
  (e.Did .putText → readBody RawConfig.read e.request = .ok ⟨config.2⟩) ∧
    (e.Did .putDocument → config.2 = (Caddyfile.compile x.certsDir config.1).text ∧
      e.reply = .json (Service.saveSummary
        (if config.1.general.enabled then (config.1.domains.filter (·.enabled)).length else 0)
        config.1.lint))

variable {e : Exchange} {op other : Operation}

theorem Did.unique (did : e.Did op) (asked : other.AskedBy e.request) : op = other :=
  did.1.unique asked

theorem not_saved_of_asked (asked : op.AskedBy e.request) (notDocument : op ≠ .putDocument)
    (notText : op ≠ .putText) : ¬ e.Saved := by
  rintro (did | did)
  · exact notDocument (did.unique asked).symm
  · exact notText (did.unique asked).symm

theorem not_saved_of_refused (r : Request) (f : BodyFault) :
    ¬ (Exchange.mk r f.response).Saved := by
  rintro (⟨-, ok⟩ | ⟨-, ok⟩)
  all_goals
    change 400 = 200 at ok
    omega

end Exchange

section Settled

variable {α : Type} {p : Exchange → Prop} {tells : Exchange → α → Prop} {a b c : α} {e : Exchange}
  {log : List Exchange}

def LastOf (p : Exchange → Prop) (log : List Exchange) (e : Exchange) : Prop :=
  ∃ before after, log = before ++ e :: after ∧ p e ∧ ∀ f ∈ after, ¬ p f

/-- The last exchange of a kind says what a value is afterwards; if there is none, the value is what it
was before. -/
structure Settled (p : Exchange → Prop) (tells : Exchange → α → Prop) (log : List Exchange)
    (before after : α) : Prop where
  kept : (∀ e ∈ log, ¬ p e) → after = before
  said : ∀ e, LastOf p log e → tells e after

theorem LastOf.holds {log : List Exchange} (last : LastOf p log e) : e ∈ log ∧ p e := by
  obtain ⟨before, after, rfl, held, -⟩ := last
  exact ⟨by simp, held⟩

theorem settled_nil : Settled p tells [] a a where
  kept _ := rfl
  said _ last := nomatch last.holds.1

theorem settled_of_not (none : ¬ p e) : Settled p tells [e] a a where
  kept _ := rfl
  said f last := by
    obtain ⟨there, held⟩ := last.holds
    exact absurd (List.mem_singleton.1 there ▸ held) none

theorem settled_of (held : p e) (said : tells e b) : Settled p tells [e] a b where
  kept none := absurd held (none e (List.mem_singleton_self e))
  said f last := by rwa [List.mem_singleton.1 last.holds.1]

theorem Settled.cons (first : Settled p tells [e] a b) (rest : Settled p tells log b c) :
    Settled p tells (e :: log) a c where
  kept none := by
    rw [rest.kept fun f there => none f (List.mem_cons_of_mem e there),
      first.kept fun f there => none f (List.mem_cons.2 (.inl (List.mem_singleton.1 there)))]
  said f last := by
    obtain ⟨before, after, split, held, last⟩ := last
    -- the last such exchange is the first of all, or it is among the rest
    cases before with
    | nil =>
      obtain ⟨rfl, rfl⟩ := List.cons.inj split
      rw [rest.kept last]
      exact first.said e ⟨[], [], rfl, held, nofun⟩
    | cons g before =>
      obtain ⟨-, rfl⟩ := List.cons.inj split
      exact rest.said f ⟨before, after, rfl, held, last⟩

end Settled

/-- The last saves account for what is stored. -/
structure Accounts (x : Service) (log : List Exchange) (before after : Document × String) :
    Prop where
  document : Settled (Exchange.Did .putDocument) Exchange.Sent log before.1 after.1
  config : Settled Exchange.Saved (Exchange.Wrote x) log before after

def Accounted (x : Service) (directory : String) (log : List Exchange)
    (before : Document × String) (files : FileTree) : Prop :=
  ∃ entries doc text, Stored directory files entries doc text ∧
    Accounts x log before (doc, text)

namespace Service

variable {x : Service} {r : Request} {s : State} {directory : String}
  {entries : List (String × FileTree)} {doc : Document} {text : String}

theorem accounted_of_not_saved {e : Exchange} {files : FileTree}
    (stored : Stored directory files entries doc text) (unsaved : ¬ e.Saved) :
    Accounted x directory [e] (doc, text) files :=
  ⟨entries, doc, text, stored, settled_of_not fun did => unsaved (.inl did),
    settled_of_not unsaved⟩

theorem sites_compile (certsDir : String) (doc : Document) :
    (Caddyfile.compile certsDir doc).sites =
      if doc.general.enabled then (doc.domains.filter (·.enabled)).length else 0 := by
  rw [Caddyfile.compile, Caddyfile.renderedSites]
  split
  · exact List.length_map _
  · rfl

section Saves

variable {reply : Response} {files : FileTree} (located : x.paths = .of directory)
  (stored : Stored directory s.files entries doc text) (whole : reply.status ≠ 500)
include located stored whole

theorem TextSave.accounted (save : TextSave x r s reply files)
    (asked : Operation.putText.AskedBy r) :
    Accounted x directory [⟨r, reply⟩] (doc, text) files := by
  cases save with
  | refused => exact accounted_of_not_saved stored (Exchange.not_saved_of_refused _ _)
  | unwritten => exact absurd rfl whole
  | done sent written =>
    rw [located] at written
    obtain ⟨others, after⟩ := stored.writeCaddyfile written
    have did : (Exchange.mk r (.empty 200)).Did .putText := ⟨asked, rfl⟩
    have noDocument : ¬ (Exchange.mk r (.empty 200)).Did .putDocument :=
      fun other => nomatch other.unique asked
    exact ⟨others, _, _, after, settled_of_not noDocument,
      settled_of (.inr did) ⟨fun _ => sent, fun other => absurd other noDocument⟩⟩

theorem DocumentSave.accounted (save : DocumentSave x r s reply files)
    (asked : Operation.putDocument.AskedBy r) :
    Accounted x directory [⟨r, reply⟩] (doc, text) files := by
  cases save with
  | refused => exact accounted_of_not_saved stored (Exchange.not_saved_of_refused _ _)
  | unsaved => exact absurd rfl whole
  | unwritten => exact absurd rfl whole
  | @done new _ _ sent saved written =>
    rw [located] at saved written
    obtain ⟨between, there⟩ := stored.saveDocument (canonical_of_readBody sent) saved
    obtain ⟨others, after⟩ := there.writeCaddyfile written
    rw [sites_compile]
    refine ⟨others, new, _, after, settled_of ⟨asked, rfl⟩ sent,
      settled_of (.inl ⟨asked, rfl⟩) ⟨fun other => ?_, fun _ => ⟨rfl, rfl⟩⟩⟩
    exact nomatch other.unique asked

end Saves

theorem shows_of_putCertificate (shows : s.files.Shows directory entries)
    (located : x.paths = .of directory) (r : Request) :
    ∃ others, (x.putCertificate r s).2.files.Shows directory others ∧
      SameBut "certs" entries others := by
  rw [putCertificate, located]
  split
  case h_1 => exact ⟨entries, shows, .refl _ _⟩
  case h_2 upload =>
    rw [certificateReply_files]
    exact shows_of_saveCertificate shows _ _

theorem shows_of_deleteCertificate (shows : s.files.Shows directory entries)
    (located : x.paths = .of directory) (r : Request) :
    ∃ others, (x.deleteCertificate r s).2.files.Shows directory others ∧
      SameBut "certs" entries others := by
  rw [deleteCertificate, located]
  split
  case h_1 => exact ⟨entries, shows, .refl _ _⟩
  case h_2 name =>
    rw [certificateReply_files]
    exact Store.shows_of_deleteCertificate shows _

/-- A request accounts for what is stored after it, unless it breaks off a save. -/
theorem accounted_of_handle (located : x.paths = .of directory)
    (stored : Stored directory s.files entries doc text)
    (whole : (Exchange.mk r (x.handle r s).1).AsksToSave → (x.handle r s).1.status ≠ 500) :
    Accounted x directory [⟨r, (x.handle r s).1⟩] (doc, text) (x.handle r s).2.files := by
  rcases handle_cases x r s with ⟨op, asked, -, answered⟩ | ⟨unchanged, refused⟩
  · rw [answered] at whole ⊢
    -- no other operation can have been a save
    have unsaved (reply : Response) (notDocument : op ≠ .putDocument) (notText : op ≠ .putText) :
        ¬ (Exchange.mk r reply).Saved := Exchange.not_saved_of_asked asked notDocument notText
    cases op <;> dsimp only [Operation.perform] at whole ⊢
    case runCommand c => exact accounted_of_not_saved stored (unsaved _ nofun nofun)
    case putText =>
      exact (textSave_of_putText rfl).accounted located stored (whole (.inr asked)) asked
    case putDocument =>
      exact (documentSave_of_putDocument rfl).accounted located stored (whole (.inl asked)) asked
    case putCertificate =>
      obtain ⟨others, after, same⟩ := shows_of_putCertificate stored.shows located r
      exact accounted_of_not_saved (stored.kept after same) (unsaved _ nofun nofun)
    case deleteCertificate =>
      obtain ⟨others, after, same⟩ := shows_of_deleteCertificate stored.shows located r
      exact accounted_of_not_saved (stored.kept after same) (unsaved _ nofun nofun)
  · rw [unchanged]
    refine accounted_of_not_saved stored ?_
    rintro (⟨asked, ok⟩ | ⟨asked, ok⟩)
    all_goals exact absurd ((refused _ asked).symm.trans ok) (by decide)

def run (x : Service) : List Request → State → List Exchange × State
  | [], s => ([], s)
  | r :: rest, s =>
    let now := x.handle r s
    let later := x.run rest now.2
    (⟨r, now.1⟩ :: later.1, later.2)

theorem accounted_of_run (located : x.paths = .of directory) {requests : List Request}
    (stored : Stored directory s.files entries doc text)
    (whole : ∀ e ∈ (x.run requests s).1, e.AsksToSave → e.reply.status ≠ 500) :
    Accounted x directory (x.run requests s).1 (doc, text) (x.run requests s).2.files := by
  -- what is stored after the first request is what the others start from
  induction requests generalizing s entries doc text with
  | nil => exact ⟨entries, doc, text, stored, settled_nil, settled_nil⟩
  | cons r rest ih =>
    obtain ⟨between, middle, shown, there, first⟩ :=
      accounted_of_handle located stored (whole _ (List.mem_cons_self ..))
    obtain ⟨others, new, written, after, later⟩ :=
      ih there fun e later => whole e (List.mem_cons_of_mem _ later)
    exact ⟨others, new, written, after, first.document.cons later.document,
      first.config.cons later.config⟩

theorem handle_getDocument (get : r.method = "GET") (path : r.path = "/api/config/structured") :
    x.handle r s = x.getDocument s := by
  have unmarked : needsMark r = false := by rw [needsMark, get]; rfl
  rw [handle, unmarked, route, path, get]
  rfl

theorem handle_getText (get : r.method = "GET") (path : r.path = "/api/config") :
    x.handle r s = x.getText s := by
  have unmarked : needsMark r = false := by rw [needsMark, get]; rfl
  rw [handle, unmarked, route, path, get]
  rfl

/-- In a data directory without the two files, after any requests of which no save breaks off, the
document that is read is the one of the last request that saved a document, or the initial one; and the
text is the one of the last request that saved anything, or empty.  If that was a document, the text is
what the document compiles to, and the reply counted its enabled domains, or none if all are switched
off. -/
theorem stored_config_of_run (x : Service) (located : x.paths = .of directory)
    (shows : s.files.Shows directory entries)
    (noDocument : FileTree.child? "config.json" entries = none)
    (noText : FileTree.child? "Caddyfile" entries = none) (requests : List Request)
    (whole : ∀ e ∈ (x.run requests s).1, e.AsksToSave → e.reply.status ≠ 500) :
    ∃ doc text,
      (∀ r : Request, r.method = "GET" → r.path = "/api/config/structured" →
        (x.handle r (x.run requests s).2).1 = .json doc.toJson) ∧
      (∀ r : Request, r.method = "GET" → r.path = "/api/config" →
        (x.handle r (x.run requests s).2).1 = .json (RawConfig.mk text).toJson) ∧
      Settled (Exchange.Did .putDocument) Exchange.Sent (x.run requests s).1 .initial doc ∧
      Settled Exchange.Saved (Exchange.Wrote x) (x.run requests s).1 (.initial, "")
        (doc, text) := by
  have start := stored_initial shows noDocument noText
  obtain ⟨others, doc, text, stored, accounts⟩ := accounted_of_run located start whole
  refine ⟨doc, text, fun r get path => ?_, fun r get path => ?_, accounts.document, accounts.config⟩
  · rw [handle_getDocument get path, getDocument, located, stored.document]
    rfl
  · rw [handle_getText get path, getText, located, stored.caddyfile]
    rfl

def putExample (marked : Bool) : Request where
  method := "POST"
  target := "/api/config"
  headers := [("Content-Type", "application/json")] ++
    if marked then [("X-Requested-With", "XMLHttpRequest")] else []
  body := "\x7b\"content\":\"example.org\"\x7d".toUTF8

theorem stored_config_of_run_turned_away :
    FileTree.empty.Shows "data" [] ∧
      (∀ e ∈ ((ofDirectory "data").run [switchOn, putExample true, putExample false]
        { files := .empty }).1, e.AsksToSave → e.reply.status ≠ 500) ∧
      ((ofDirectory "data").handle ⟨"GET", "/api/config/structured", [], .empty⟩
        ((ofDirectory "data").run [switchOn, putExample true, putExample false]
          { files := .empty }).2).1 =
        .json (Document.toJson { general := { enabled := true } }) ∧
      ((ofDirectory "data").handle ⟨"GET", "/api/config", [], .empty⟩
        ((ofDirectory "data").run [switchOn, putExample true, putExample false]
          { files := .empty }).2).1 =
        .json (RawConfig.mk "example.org").toJson := by
  have shows : FileTree.empty.Shows "data" [] :=
    ⟨_, ["data"], rfl, ⟨by decide, rfl, rfl⟩, .inr rfl⟩
  have whole : ∀ e ∈ ((ofDirectory "data").run [switchOn, putExample true, putExample false]
      { files := .empty }).1, e.AsksToSave → e.reply.status ≠ 500 := by decide +kernel
  obtain ⟨doc, text, document, caddyfile, saved, written⟩ :=
    stored_config_of_run (ofDirectory "data") rfl shows rfl rfl _ whole
  have sentDocument := saved.said _ ⟨[], _, rfl, by decide +kernel, by decide +kernel⟩
  have sentText := (written.said _ ⟨[_], _, rfl, by decide +kernel, by decide +kernel⟩).1
    (by decide +kernel)
  have expected : readBody Document.layout.read switchOn = .ok { general := { enabled := true } } := by
    decide +kernel
  obtain rfl := Except.ok.inj (sentDocument.symm.trans expected)
  have expectedText : readBody RawConfig.read (putExample true) = .ok ⟨"example.org"⟩ := by
    decide +kernel
  obtain rfl := RawConfig.mk.inj (Except.ok.inj (sentText.symm.trans expectedText))
  exact ⟨shows, whole, document _ rfl rfl, caddyfile _ rfl rfl⟩

end Service

end ProxyConfig.Admin
