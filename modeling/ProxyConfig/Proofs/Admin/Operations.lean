import ProxyConfig.Admin.Service

/-!
What requests can ask for.  An operation is what may change the files or run the proxy's program; it
is asked for by one method at one path.  Main statements: a marked request for an operation is
answered by it, and every other request leaves the whole state alone; and a request to save a text or
a document comes to one of a few ends (`TextSave`, `DocumentSave`).
-/

namespace ProxyConfig.Admin

/-- What a request can ask for, apart from looking at something. -/
inductive Operation where
  | runCommand (c : Proxy.Command)
  | putText
  | putDocument
  | putCertificate
  | deleteCertificate

namespace Operation

def method : Operation → String
  | deleteCertificate => "DELETE"
  | _ => "POST"

def path : Operation → String
  | runCommand c => "/api/" ++ c.toText
  | putText => "/api/config"
  | putDocument => "/api/config/structured"
  | putCertificate | deleteCertificate => "/api/certs"

def perform (x : Service) : Operation → Service.Action
  | runCommand c => fun _ => x.runCommand c
  | putText => x.putText
  | putDocument => x.putDocument
  | putCertificate => x.putCertificate
  | deleteCertificate => x.deleteCertificate

structure AskedBy (op : Operation) (r : Request) : Prop where
  method : r.method = op.method
  path : r.path = op.path

instance (op : Operation) : DecidablePred op.AskedBy := fun r =>
  decidable_of_iff (r.method = op.method ∧ r.path = op.path)
    ⟨fun ⟨method, path⟩ => ⟨method, path⟩, fun asked => ⟨asked.method, asked.path⟩⟩

variable {op : Operation} {r : Request}

theorem needsMark_of_askedBy (asked : op.AskedBy r) : Service.needsMark r = true := by
  rw [Service.needsMark, asked.method, asked.path]
  cases op with
  | runCommand c => cases c <;> decide +kernel
  | _ => decide +kernel

theorem method_ne_get (op : Operation) : op.method ≠ "GET" := by
  cases op <;> simp [method]

def all : List Operation :=
  [runCommand .validate, runCommand .start, runCommand .stop, runCommand .reload, putText,
    putDocument, putCertificate, deleteCertificate]

def ofRequest? (r : Request) : Option Operation :=
  all.find? fun op => r.method = op.method && r.path = op.path

theorem AskedBy.ofRequest? (asked : op.AskedBy r) : ofRequest? r = some op := by
  rw [Operation.ofRequest?, asked.method, asked.path]
  cases op with
  | runCommand c => cases c <;> rfl
  | _ => rfl

theorem AskedBy.unique {other : Operation} (asked : op.AskedBy r) (askedToo : other.AskedBy r) :
    op = other :=
  Option.some.inj (asked.ofRequest?.symm.trans askedToo.ofRequest?)

end Operation

def Request.firstValue? (r : Request) (name : String) : Option String :=
  (r.headers.find? fun h => Text.sameLetters h.1 name).map (·.2)

def Request.Marked (r : Request) : Prop :=
  r.firstValue? "x-requested-with" = some "XMLHttpRequest"

instance (r : Request) : Decidable r.Marked := inferInstanceAs (Decidable (_ = _))

namespace Service

theorem isMarked_iff {r : Request} : isMarked r = true ↔ r.Marked := by
  have plain : Request.isPlain "XMLHttpRequest" = true := by decide
  rw [isMarked, decide_eq_true_iff, Request.header?, Request.Marked, Request.firstValue?,
    Option.filter_eq_some_iff]
  exact ⟨And.left, fun marked => ⟨marked, plain⟩⟩

variable {x : Service} {r : Request} {s : State} {op : Operation}

theorem handle_of_not_marked (asked : op.AskedBy r) (unmarked : ¬ r.Marked) :
    x.handle r s = (.text 403 "CSRF check failed: missing X-Requested-With header", s) := by
  have turned : (needsMark r && !isMarked r) = true := by
    rw [Operation.needsMark_of_askedBy asked, Bool.eq_false_iff.2 (mt isMarked_iff.1 unmarked)]
    rfl
  rw [handle, if_pos turned]

theorem handle_of_askedBy (asked : op.AskedBy r) (marked : r.Marked) :
    x.handle r s = op.perform x r s := by
  rw [handle, isMarked_iff.2 marked, Bool.not_true, Bool.and_false, if_neg Bool.false_ne_true,
    route, asked.path, asked.method]
  cases op with
  | runCommand c => cases c <;> rfl
  | _ => rfl

theorem reading_snd {α : Type} (s : State) (failure : String) (result : Except Store.StoreError α)
    (answer : α → Json.Value) : (reading s failure result answer).2 = s := by
  cases result <;> rfl

theorem looks_or_performs {path method : String} {methods : List (String × Action)}
    {action : Action} (listed : (path, methods) ∈ x.routes) (answers : (method, action) ∈ methods) :
    (∀ r s, (action r s).2 = s) ∨ ∃ op : Operation, method = op.method ∧ path = op.path := by
  simp only [routes, List.mem_cons, List.not_mem_nil, Prod.mk.injEq, or_false] at listed
  have command {c : Proxy.Command} (there : (method, action) ∈ [("POST", fun _ => x.runCommand c)]) :
      ∃ op : Operation, method = op.method ∧ "/api/" ++ c.toText = op.path :=
    ⟨.runCommand c, congrArg Prod.fst (List.mem_singleton.1 there), rfl⟩
  rcases listed with ⟨rfl, rfl⟩ | ⟨rfl, rfl⟩ | ⟨rfl, rfl⟩ | ⟨rfl, rfl⟩ | ⟨rfl, rfl⟩ | ⟨rfl, rfl⟩ |
    ⟨rfl, rfl⟩ | ⟨rfl, rfl⟩
  · simp only [List.mem_cons, List.not_mem_nil, Prod.mk.injEq, or_false] at answers
    rcases answers with ⟨rfl, rfl⟩ | ⟨rfl, rfl⟩
    · exact .inl fun r s => reading_snd s _ _ _
    · exact .inr ⟨.putText, rfl, rfl⟩
  · simp only [List.mem_cons, List.not_mem_nil, Prod.mk.injEq, or_false] at answers
    rcases answers with ⟨rfl, rfl⟩ | ⟨rfl, rfl⟩
    · exact .inl fun r s => reading_snd s _ _ _
    · exact .inr ⟨.putDocument, rfl, rfl⟩
  · exact .inr (command answers)
  · exact .inr (command answers)
  · exact .inr (command answers)
  · exact .inr (command answers)
  · simp only [List.mem_cons, List.not_mem_nil, Prod.mk.injEq, or_false] at answers
    rcases answers with ⟨rfl, rfl⟩ | ⟨rfl, rfl⟩ | ⟨rfl, rfl⟩
    · exact .inl fun r s => reading_snd s _ _ _
    · exact .inr ⟨.putCertificate, rfl, rfl⟩
    · exact .inr ⟨.deleteCertificate, rfl, rfl⟩
  · obtain ⟨rfl, rfl⟩ := Prod.mk.inj (List.mem_singleton.1 answers)
    exact .inl fun r s => rfl

theorem mem_of_lookup {β : Type} {entries : List (String × β)} {key : String} {value : β}
    (found : entries.lookup key = some value) : (key, value) ∈ entries := by
  obtain ⟨before, after, rfl, -⟩ := List.lookup_eq_some_iff.1 found
  simp

theorem route_of_not_asked (unasked : ∀ op : Operation, ¬ op.AskedBy r) : (x.route r s).2 = s := by
  rw [route]
  split
  case h_1 => rfl
  case h_2 methods listed =>
    split
    case h_1 action answers =>
      rcases looks_or_performs (mem_of_lookup listed) (mem_of_lookup answers) with
        looks | ⟨op, method, path⟩
      · exact looks r s
      · exact absurd ⟨method, path⟩ (unasked op)
    case h_2 =>
      split
      case h_1 action answers =>
        -- `HEAD` is answered like `GET`, and no operation is asked for by `GET`
        split at answers
        case isFalse => cases answers
        case isTrue =>
          rcases looks_or_performs (mem_of_lookup listed) (mem_of_lookup answers) with
            looks | ⟨op, method, path⟩
          · exact looks r s
          · exact absurd method.symm op.method_ne_get
      case h_2 => rfl

theorem handle_of_not_asked (unasked : ∀ op : Operation, ¬ op.AskedBy r) :
    (x.handle r s).2 = s := by
  rw [handle]
  split
  case isTrue => rfl
  case isFalse => exact route_of_not_asked unasked

/-- A request is marked and asks for an operation that answers it, or it changes nothing and is turned
away if it asks for one. -/
theorem handle_cases (x : Service) (r : Request) (s : State) :
    (∃ op : Operation, op.AskedBy r ∧ r.Marked ∧ x.handle r s = op.perform x r s) ∨
      (x.handle r s).2 = s ∧
        ∀ op : Operation, op.AskedBy r → (x.handle r s).1.status = 403 := by
  by_cases asks : ∃ op : Operation, op.AskedBy r
  · obtain ⟨op, asked⟩ := asks
    by_cases marked : r.Marked
    · exact .inl ⟨op, asked, marked, handle_of_askedBy asked marked⟩
    · rw [handle_of_not_marked asked marked]
      exact .inr ⟨rfl, fun _ _ => rfl⟩
  · exact .inr ⟨handle_of_not_asked fun op asked => asks ⟨op, asked⟩,
      fun op asked => absurd ⟨op, asked⟩ asks⟩

open Store

variable {reply : Response} {files : FileTree} {metrics : Metrics}

inductive TextSave (x : Service) (r : Request) (s : State) : Response → FileTree → Prop where
  | refused {f : BodyFault} (unread : readBody RawConfig.read r = .error f) :
      TextSave x r s f.response s.files
  | unwritten {config : RawConfig} {e : StoreError} {files : FileTree}
      (sent : readBody RawConfig.read r = .ok config)
      (failed : writeCaddyfile x.paths config.content s.files = (.error e, files)) :
      TextSave x r s (.failure "Failed to write Caddyfile") files
  | done {config : RawConfig} {files : FileTree} (sent : readBody RawConfig.read r = .ok config)
      (written : writeCaddyfile x.paths config.content s.files = (.ok (), files)) :
      TextSave x r s (.empty 200) files

theorem textSave_of_putText (ended : x.putText r s = (reply, ⟨files, metrics⟩)) :
    TextSave x r s reply files := by
  unfold putText at ended
  cases sent : readBody RawConfig.read r with
  | error f =>
    rw [sent] at ended
    cases ended
    exact .refused sent
  | ok config =>
    rw [sent] at ended
    dsimp only at ended
    rcases written : writeCaddyfile x.paths config.content s.files with ⟨e | _, after⟩ <;>
      rw [written] at ended <;> cases ended
    · exact .unwritten sent written
    · exact .done sent written

inductive DocumentSave (x : Service) (r : Request) (s : State) : Response → FileTree → Prop where
  | refused {f : BodyFault} (unread : readBody Document.layout.read r = .error f) :
      DocumentSave x r s f.response s.files
  | unsaved {doc : Document} {e : StoreError} {files : FileTree}
      (sent : readBody Document.layout.read r = .ok doc)
      (failed : saveDocument x.paths doc s.files = (.error e, files)) :
      DocumentSave x r s (.failure "Failed to save config") files
  | unwritten {doc : Document} {e : StoreError} {between files : FileTree}
      (sent : readBody Document.layout.read r = .ok doc)
      (saved : saveDocument x.paths doc s.files = (.ok (), between))
      (failed : writeCaddyfile x.paths (Caddyfile.compile x.certsDir doc).text between =
        (.error e, files)) :
      DocumentSave x r s (.failure "Failed to write Caddyfile") files
  | done {doc : Document} {between files : FileTree}
      (sent : readBody Document.layout.read r = .ok doc)
      (saved : saveDocument x.paths doc s.files = (.ok (), between))
      (written : writeCaddyfile x.paths (Caddyfile.compile x.certsDir doc).text between =
        (.ok (), files)) :
      DocumentSave x r s (.json (saveSummary (Caddyfile.compile x.certsDir doc).sites doc.lint))
        files

theorem documentSave_of_putDocument (ended : x.putDocument r s = (reply, ⟨files, metrics⟩)) :
    DocumentSave x r s reply files := by
  unfold putDocument at ended
  cases sent : readBody Document.layout.read r with
  | error f =>
    rw [sent] at ended
    cases ended
    exact .refused sent
  | ok doc =>
    rw [sent] at ended
    dsimp only at ended
    rcases saved : saveDocument x.paths doc s.files with ⟨e | _, between⟩ <;>
      rw [saved] at ended <;> dsimp only at ended
    · cases ended
      exact .unsaved sent saved
    · rcases written : writeCaddyfile x.paths (Caddyfile.compile x.certsDir doc).text between with
        ⟨e | _, after⟩ <;> rw [written] at ended <;> cases ended
      · exact .unwritten sent saved written
      · exact .done sent saved written

theorem certificateReply_files (s : State) (o : Outcome Unit) :
    (certificateReply s o).2.files = o.2 := by
  obtain ⟨e | _, files⟩ := o <;> rfl

end Service

end ProxyConfig.Admin
