import ProxyConfig.Proofs.Admin.Operations
import ProxyConfig.Proofs.Store.CertificateChanges

/-!
What only marked requests can do.  Main statement: the files stay as they are unless a marked `POST`
or `DELETE` is answered without a fault of the client, and the answer to a request has nothing to do
with the proxy's program unless it is a marked `POST` for one of the commands, which runs that command
and no other.
-/

namespace ProxyConfig.Admin

open Store

def Response.Rejects (reply : Response) : Prop := 400 ≤ reply.status ∧ reply.status < 500

theorem Response.not_rejects_json (v : Json.Value) : ¬ (json v).Rejects := by
  simp [Rejects, json]

theorem Response.not_rejects_empty : ¬ (empty 200).Rejects := by
  simp [Rejects, empty]

theorem Response.not_rejects_failure (message : String) : ¬ (failure message).Rejects := by
  simp [Rejects, failure, text]

namespace Service

variable {x : Service} {r : Request} {s : State}

theorem TextSave.files_of_rejects {reply : Response} {files : FileTree}
    (save : TextSave x r s reply files) (rejected : reply.Rejects) : files = s.files := by
  cases save with
  | refused => rfl
  | unwritten => exact absurd rejected (Response.not_rejects_failure _)
  | done => exact absurd rejected Response.not_rejects_empty

theorem DocumentSave.files_of_rejects {reply : Response} {files : FileTree}
    (save : DocumentSave x r s reply files) (rejected : reply.Rejects) : files = s.files := by
  cases save with
  | refused => rfl
  | unsaved => exact absurd rejected (Response.not_rejects_failure _)
  | unwritten => exact absurd rejected (Response.not_rejects_failure _)
  | done => exact absurd rejected (Response.not_rejects_json _)

theorem files_of_certificateReply_rejects {o : Outcome Unit}
    (unchanged : ∀ e, o.1 = .error e → (certificateFailure e).Rejects → o.2 = s.files)
    (rejected : (certificateReply s o).1.Rejects) : (certificateReply s o).2.files = s.files := by
  rw [certificateReply_files]
  obtain ⟨e | _, files⟩ := o
  · exact unchanged e rfl rejected
  · exact absurd rejected Response.not_rejects_empty

theorem files_of_putCertificate_rejects (rejected : (x.putCertificate r s).1.Rejects) :
    (x.putCertificate r s).2.files = s.files := by
  unfold putCertificate at rejected ⊢
  cases sent : uploadedFile r with
  | error message => rfl
  | ok upload =>
    rw [sent] at rejected
    refine files_of_certificateReply_rejects (fun e failed refused => ?_) rejected
    rcases saveCertificate_error (Prod.ext failed rfl) with same | ⟨f, rfl⟩
    · exact same
    · exact absurd refused (Response.not_rejects_failure _)

theorem files_of_deleteCertificate_rejects (rejected : (x.deleteCertificate r s).1.Rejects) :
    (x.deleteCertificate r s).2.files = s.files := by
  unfold deleteCertificate at rejected ⊢
  cases sent : Query.value r.query "file" with
  | error f => rfl
  | ok name =>
    rw [sent] at rejected
    refine files_of_certificateReply_rejects (fun e failed _ => ?_) rejected
    exact eq_of_deleteCertificate_error (Prod.ext failed rfl)

theorem files_of_rejects (rejected : (x.handle r s).1.Rejects) :
    (x.handle r s).2.files = s.files := by
  rcases handle_cases x r s with ⟨op, -, -, answered⟩ | ⟨unchanged, -⟩
  · rw [answered] at rejected ⊢
    cases op <;> dsimp only [Operation.perform] at rejected ⊢
    case runCommand c => rfl
    case putText => exact (textSave_of_putText rfl).files_of_rejects rejected
    case putDocument => exact (documentSave_of_putDocument rfl).files_of_rejects rejected
    case putCertificate => exact files_of_putCertificate_rejects rejected
    case deleteCertificate => exact files_of_deleteCertificate_rejects rejected
  · rw [unchanged]

theorem actions_control (x : Service) (control : Control) :
    { x with control }.putText = x.putText ∧ { x with control }.putDocument = x.putDocument ∧
      { x with control }.putCertificate = x.putCertificate ∧
      { x with control }.deleteCertificate = x.deleteCertificate := by
  refine ⟨?_, ?_, ?_, ?_⟩ <;> funext r s
  · simp only [putText]
  · simp only [putDocument]
  · simp only [putCertificate]
  · simp only [deleteCertificate]

theorem lookup_routes_control (control : Control) {path : String}
    (other : ∀ c : Proxy.Command, path ≠ "/api/" ++ c.toText) :
    { x with control }.routes.lookup path = x.routes.lookup path := by
  have skipped (c : Proxy.Command) : (path == "/api/" ++ c.toText) = false :=
    beq_false_of_ne (other c)
  obtain ⟨putText, putDocument, putCertificate, deleteCertificate⟩ := actions_control x control
  simp only [routes, List.lookup_cons, skipped, putText, putDocument, putCertificate,
    deleteCertificate]
  rfl

theorem route_of_command {c : Proxy.Command} (path : r.path = "/api/" ++ c.toText)
    (method : r.method ≠ "POST") : x.route r s = (.empty 405, s) := by
  have found : x.routes.lookup r.path = some [("POST", fun _ => x.runCommand c)] := by
    rw [path]
    cases c <;> rfl
  have none : [("POST", fun (_ : Request) => x.runCommand c)].lookup r.method = none := by
    rw [List.lookup_cons, beq_false_of_ne method]
    rfl
  rw [route, found]
  simp only [none]
  split
  case h_1 action answers =>
    split at answers <;> cases answers
  case h_2 => rfl

theorem handle_control (control : Control)
    (other : ∀ c, (Operation.runCommand c).AskedBy r → ¬ r.Marked) :
    { x with control }.handle r s = x.handle r s := by
  rw [handle, handle]
  split
  case isTrue => rfl
  case isFalse passed =>
    -- at the path of a command, the guard lets nothing through but other methods, which have no action
    by_cases command : ∃ c : Proxy.Command, r.path = "/api/" ++ c.toText
    · obtain ⟨c, path⟩ := command
      have method : r.method ≠ "POST" := by
        intro post
        have asked : (Operation.runCommand c).AskedBy r := ⟨post, path⟩
        have unmarked : isMarked r = false := Bool.eq_false_iff.2 (mt isMarked_iff.1 (other c asked))
        exact passed (by rw [Operation.needsMark_of_askedBy asked, unmarked]; rfl)
      rw [route_of_command path method, route_of_command path method]
    · rw [route, route, lookup_routes_control control fun c path => command ⟨c, path⟩]

/-- The files stay exactly as they are when a request is not marked, is neither a `POST` nor a
`DELETE`, or is rejected.  What answers a request, and the state after it, are the same for any program
of the proxy, unless it is a marked `POST` at the path of a command: that one runs the command once. -/
theorem only_marked_requests_act (x : Service) (r : Request) (s : State) :
    (¬ r.Marked ∨ (r.method ≠ "POST" ∧ r.method ≠ "DELETE") ∨ (x.handle r s).1.Rejects →
        (x.handle r s).2.files = s.files) ∧
      ((∀ c : Proxy.Command, ¬ (r.method = "POST" ∧ r.path = "/api/" ++ c.toText ∧ r.Marked)) →
        ∀ control, { x with control }.handle r s = x.handle r s) ∧
      ∀ c : Proxy.Command, r.method = "POST" ∧ r.path = "/api/" ++ c.toText ∧ r.Marked →
        x.handle r s = x.runCommand c s := by
  refine ⟨fun guarded => ?_, fun other control => ?_, fun c ⟨method, path, marked⟩ => ?_⟩
  · rcases handle_cases x r s with ⟨op, asked, marked, -⟩ | ⟨unchanged, -⟩
    · rcases guarded with unmarked | ⟨notPost, notDelete⟩ | rejected
      · exact absurd marked unmarked
      · rw [asked.method] at notPost notDelete
        cases op with
        | deleteCertificate => exact absurd rfl notDelete
        | _ => exact absurd rfl notPost
      · exact files_of_rejects rejected
    · rw [unchanged]
  · exact handle_control control fun c asked marked => other c ⟨asked.method, asked.path, marked⟩
  · have asked : (Operation.runCommand c).AskedBy r := ⟨method, path⟩
    exact handle_of_askedBy asked marked

def echoing : Service where
  paths := .of "data"
  certsDir := Certificate.usualDirectory
  control := fun c metrics => (.ok ⟨c.toText, ""⟩, metrics)
  showsMetrics := false

def withMark (method target : String) : Request where
  method := method
  target := target
  headers := [("x-requested-with", "XMLHttpRequest"), ("X-Requested-With", "other")]

theorem only_marked_requests_act_echoing :
    ((withMark "POST" "/api/reload").Marked ∧
      echoing.handle (withMark "POST" "/api/reload") { files := .empty } =
        echoing.runCommand .reload { files := .empty }) ∧
    (¬ (Request.mk "POST" "/api/reload" [] .empty).Marked ∧
      (echoing.handle ⟨"POST", "/api/reload", [], .empty⟩ { files := .empty }).2.files = .empty ∧
      { echoing with control := fun _ metrics => (.error (.timeout .reload 1), metrics) }.handle
          ⟨"POST", "/api/reload", [], .empty⟩ { files := .empty } =
        echoing.handle ⟨"POST", "/api/reload", [], .empty⟩ { files := .empty }) ∧
    (echoing.handle (withMark "DELETE" "/api/certs?file=a.pem") { files := .empty }).1.status = 404 ∧
      (echoing.handle (withMark "DELETE" "/api/certs?file=a.pem") { files := .empty }).2.files =
        .empty := by
  have marked : (withMark "POST" "/api/reload").Marked := by decide
  have unmarked : ¬ (Request.mk "POST" "/api/reload" [] .empty).Marked := by decide
  have missing : (echoing.handle (withMark "DELETE" "/api/certs?file=a.pem")
      { files := .empty }).1.status = 404 := by decide +kernel
  have rejected : (echoing.handle (withMark "DELETE" "/api/certs?file=a.pem")
      { files := .empty }).1.Rejects := by
    rw [Response.Rejects, missing]
    decide
  obtain ⟨-, -, runs⟩ := only_marked_requests_act echoing (withMark "POST" "/api/reload")
    { files := .empty }
  obtain ⟨keeps, ignores, -⟩ := only_marked_requests_act echoing ⟨"POST", "/api/reload", [], .empty⟩
    { files := .empty }
  obtain ⟨stays, -, -⟩ := only_marked_requests_act echoing
    (withMark "DELETE" "/api/certs?file=a.pem") { files := .empty }
  exact ⟨⟨marked, runs .reload ⟨rfl, by decide, marked⟩⟩,
    ⟨unmarked, keeps (.inl unmarked), ignores (fun _ ⟨_, _, mark⟩ => unmarked mark) _⟩,
    missing, stays (.inr (.inr rejected))⟩

end Service

end ProxyConfig.Admin
