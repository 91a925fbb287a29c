import ProxyConfig.Proofs.Admin.Runs
import ProxyConfig.Proofs.Json.PrettyText

/-!
What has been counted after a run of requests.  A save that is done counts as a success, and one that
breaks off as a failure; what counts as a compilation is that the document was stored, which is so as
well if the text could not be written behind it.  A command counts as a success if its reply has no
field for an error, be it the program's or one of starting it.  Main statement: after any requests the
counts are those of the replies (`metrics_of_run`).
-/

namespace ProxyConfig.Admin

open Store

namespace Response

def fieldNames (reply : Response) : List String :=
  match (Json.Reading.ofPieces (Text.piecesOf reply.body)).draft with
  | .mapping members _ => members.filterMap (·.1)
  | _ => []

def HasField (reply : Response) (name : String) : Prop := name ∈ reply.fieldNames

instance (reply : Response) (name : String) : Decidable (reply.HasField name) :=
  inferInstanceAs (Decidable (_ ∈ _))

theorem fieldNames_json (fields : List (String × String)) :
    (json (.mapping (Json.Value.textMembers fields))).fieldNames = fields.map (·.1) := by
  rw [fieldNames, json, Json.Reading.ofPieces_compact, Json.Value.draft,
    Json.Value.memberDrafts_eq_map, Json.Value.textMembers]
  simp

theorem hasField_error_iff (o : Proxy.Output) :
    (json o.toJson).HasField "error" ↔ o.succeeded = false := by
  have members : o.toJson = .mapping (Json.Value.textMembers
      (("output", o.output) :: if o.error = "" then [] else [("error", o.error)])) := by
    rw [Proxy.Output.toJson, Json.Value.textMembers, List.map_cons]
    split <;> simp
  rw [members, HasField, fieldNames_json, Proxy.Output.succeeded]
  split
  case isTrue none => simp [none]
  case isFalse some => simp [some]

end Response

structure SameSaves (before after : Metrics) : Prop where
  compilations : after.compilations = before.compilations
  sites : after.sites = before.sites
  saves : after.saves = before.saves

/-- Whatever the control counts, it is no save and no compilation. -/
def Control.CountsCommandsOnly (control : Control) : Prop :=
  ∀ c m, SameSaves m (control c m).2

theorem Control.ofRunner_countsCommandsOnly (runner : Proxy.Runner) :
    (ofRunner runner).CountsCommandsOnly :=
  fun _ _ => ⟨rfl, rfl, rfl⟩

namespace Exchange

def BrokeOff (op : Operation) (e : Exchange) : Prop := op.AskedBy e.request ∧ e.reply.status = 500

instance (op : Operation) : DecidablePred (BrokeOff op) :=
  fun _ => inferInstanceAs (Decidable (_ ∧ _))

def Ran (c : Proxy.Command) (e : Exchange) : Prop :=
  (Operation.runCommand c).AskedBy e.request ∧ e.request.Marked

instance (c : Proxy.Command) : DecidablePred (Ran c) := fun _ => inferInstanceAs (Decidable (_ ∧ _))

end Exchange

/-- The saves and the compilations that some exchanges and the documents they stored account for. -/
structure SavesCounted (x : Service) (log : List Exchange) (stored : List Document)
    (before after : Metrics) : Prop where
  done : after.saves.successes = before.saves.successes + log.countP fun e => e.Did .putDocument
  brokeOff :
    after.saves.failures = before.saves.failures + log.countP fun e => e.BrokeOff .putDocument
  compilations : after.compilations = before.compilations + stored.length
  sites : after.sites =
    (stored.getLast?.map fun doc => (Caddyfile.compile x.certsDir doc).sites).getD before.sites

structure RunsCounted (c : Proxy.Command) (log : List Exchange) (before after : Tally) : Prop where
  total : after.successes + after.failures =
    before.successes + before.failures + log.countP fun e => e.Ran c
  successes : after.successes =
    before.successes + log.countP fun e => e.Ran c ∧ ¬ e.reply.HasField "error"

section Sums

variable {x : Service} {first rest : List Exchange} {stored storedToo : List Document}

theorem savesCounted_nil (m : Metrics) : SavesCounted x [] [] m m := ⟨rfl, rfl, rfl, rfl⟩

theorem SavesCounted.append {before between after : Metrics}
    (one : SavesCounted x first stored before between)
    (more : SavesCounted x rest storedToo between after) :
    SavesCounted x (first ++ rest) (stored ++ storedToo) before after where
  done := by rw [more.done, one.done, List.countP_append, Nat.add_assoc]
  brokeOff := by rw [more.brokeOff, one.brokeOff, List.countP_append, Nat.add_assoc]
  compilations := by rw [more.compilations, one.compilations, List.length_append, Nat.add_assoc]
  sites := by
    rw [more.sites, one.sites, List.getLast?_append]
    cases storedToo.getLast? <;> rfl

variable {c : Proxy.Command}

theorem runsCounted_nil (t : Tally) : RunsCounted c [] t t := ⟨rfl, rfl⟩

theorem RunsCounted.append {before between after : Tally}
    (one : RunsCounted c first before between) (more : RunsCounted c rest between after) :
    RunsCounted c (first ++ rest) before after where
  total := by rw [more.total, one.total, List.countP_append, Nat.add_assoc]
  successes := by rw [more.successes, one.successes, List.countP_append, Nat.add_assoc]

end Sums

namespace Service

variable {x : Service} {r : Request} {s : State}

def storedDocument? (x : Service) (r : Request) (s : State) : Option Document :=
  if Operation.putDocument.AskedBy r ∧ r.Marked then
    match readBody Document.layout.read r with
    | .ok doc =>
      match saveDocument x.paths doc s.files with
      | (.ok (), _) => some doc
      | (.error _, _) => none
    | .error _ => none
  else none

/-- What is counted of a request to save a document, by the status of the reply and by the document
that it stored. -/
inductive SaveCount (x : Service) (m : Metrics) : Nat → Option Document → Metrics → Prop where
  | refused : SaveCount x m 400 none m
  | unsaved : SaveCount x m 500 none (m.recordSave false)
  | unwritten (doc : Document) : SaveCount x m 500 (some doc)
      ((m.recordCompilation (Caddyfile.compile x.certsDir doc).sites).recordSave false)
  | done (doc : Document) : SaveCount x m 200 (some doc)
      ((m.recordCompilation (Caddyfile.compile x.certsDir doc).sites).recordSave true)

theorem saveCount_of_putDocument (asked : Operation.putDocument.AskedBy r) (marked : r.Marked) :
    SaveCount x s.metrics (x.putDocument r s).1.status (x.storedDocument? r s)
      (x.putDocument r s).2.metrics := by
  rw [storedDocument?, if_pos ⟨asked, marked⟩, putDocument]
  cases readBody Document.layout.read r with
  | error f => exact .refused
  | ok doc =>
    dsimp only
    rcases saveDocument x.paths doc s.files with ⟨e | _, between⟩
    · exact .unsaved
    · dsimp only
      rcases writeCaddyfile x.paths (Caddyfile.compile x.certsDir doc).text between with
        ⟨e | _, after⟩
      · exact .unwritten doc
      · exact .done doc

theorem SaveCount.savesCounted {e : Exchange} {stored : Option Document} {before after : Metrics}
    (count : SaveCount x before e.reply.status stored after)
    (asked : Operation.putDocument.AskedBy e.request) :
    SavesCounted x [e] stored.toList before after := by
  generalize answered : e.reply.status = status at count
  have did : e.Did .putDocument ↔ status = 200 := by rw [Exchange.Did, answered, and_iff_right asked]
  have broke : e.BrokeOff .putDocument ↔ status = 500 := by
    rw [Exchange.BrokeOff, answered, and_iff_right asked]
  cases count <;> constructor <;>
    simp [did, broke, Metrics.recordSave, Metrics.recordCompilation, Tally.add]

theorem SaveCount.commands {status : Nat} {stored : Option Document} {before after : Metrics}
    (count : SaveCount x before status stored after) : after.commands = before.commands := by
  cases count <;> rfl

theorem metrics_certificateReply (s : State) (o : Outcome Unit) :
    (certificateReply s o).2.metrics = s.metrics := by
  obtain ⟨e | _, files⟩ := o <;> rfl

theorem metrics_cases (x : Service) (r : Request) (s : State) :
    (x.handle r s).2.metrics = s.metrics ∨
      r.Marked ∧ (Operation.putDocument.AskedBy r ∧ x.handle r s = x.putDocument r s ∨
        ∃ c, (Operation.runCommand c).AskedBy r ∧ x.handle r s = x.runCommand c s) := by
  rcases handle_cases x r s with ⟨op, asked, marked, answered⟩ | ⟨unchanged, -⟩
  · rw [answered]
    cases op with
    | runCommand c => exact .inr ⟨marked, .inr ⟨c, asked, rfl⟩⟩
    | putDocument => exact .inr ⟨marked, .inl ⟨asked, rfl⟩⟩
    | putText =>
      left
      rw [Operation.perform, putText]
      split
      · rfl
      · split <;> rfl
    | putCertificate =>
      left
      rw [Operation.perform, putCertificate]
      split
      · rfl
      · exact metrics_certificateReply _ _
    | deleteCertificate =>
      left
      rw [Operation.perform, deleteCertificate]
      split
      · rfl
      · exact metrics_certificateReply _ _
  · exact .inl (congrArg State.metrics unchanged)

theorem sameSaves_of_handle (quiet : x.control.CountsCommandsOnly)
    (other : ¬ (Operation.putDocument.AskedBy r ∧ r.Marked)) :
    SameSaves s.metrics (x.handle r s).2.metrics := by
  rcases metrics_cases x r s with unchanged | ⟨marked, ⟨asked, -⟩ | ⟨c, -, answered⟩⟩
  · rw [unchanged]
    exact ⟨rfl, rfl, rfl⟩
  · exact absurd ⟨asked, marked⟩ other
  · rw [answered]
    exact quiet c s.metrics

theorem savesCounted_of_handle (quiet : x.control.CountsCommandsOnly) (r : Request) (s : State) :
    SavesCounted x [⟨r, (x.handle r s).1⟩] (x.storedDocument? r s).toList s.metrics
      (x.handle r s).2.metrics := by
  by_cases saves : Operation.putDocument.AskedBy r ∧ r.Marked
  case pos =>
    obtain ⟨asked, marked⟩ := saves
    rw [handle_of_askedBy asked marked]
    exact (saveCount_of_putDocument asked marked).savesCounted (e := ⟨r, _⟩) asked
  case neg =>
    have turned (asked : Operation.putDocument.AskedBy r) : (x.handle r s).1.status = 403 := by
      rw [handle_of_not_marked asked fun marked => saves ⟨asked, marked⟩]
      rfl
    have undone : ¬ (Exchange.mk r (x.handle r s).1).Did .putDocument := fun ⟨asked, ok⟩ =>
      absurd ((turned asked).symm.trans ok) (by decide)
    have whole : ¬ (Exchange.mk r (x.handle r s).1).BrokeOff .putDocument := fun ⟨asked, failed⟩ =>
      absurd ((turned asked).symm.trans failed) (by decide)
    have none : x.storedDocument? r s = none := if_neg saves
    obtain ⟨compilations, sites, counts⟩ := sameSaves_of_handle (s := s) quiet saves
    rw [none]
    constructor <;> simp [undone, whole, compilations, sites, counts]

theorem runCommand_ofRunner {runner : Proxy.Runner} (program : x.control = .ofRunner runner)
    (c : Proxy.Command) (s : State) :
    ∃ o : Proxy.Output, x.runCommand c s =
      (.json o.toJson, { s with metrics := s.metrics.recordCommand c o.succeeded }) := by
  rw [runCommand, program, Control.ofRunner]
  cases runner.run c with
  | ok o => exact ⟨o, rfl⟩
  | error e =>
    refine ⟨⟨"", e.message⟩, ?_⟩
    have failed : (Proxy.Output.mk "" e.message).succeeded = false :=
      decide_eq_false e.message_ne_empty
    rw [failed]
    rfl

theorem runsCounted_of_handle {runner : Proxy.Runner} (program : x.control = .ofRunner runner)
    (c : Proxy.Command) (r : Request) (s : State) :
    RunsCounted c [⟨r, (x.handle r s).1⟩] (s.metrics.commands c)
      ((x.handle r s).2.metrics.commands c) := by
  by_cases ran : (Exchange.mk r (x.handle r s).1).Ran c
  case pos =>
    obtain ⟨o, answered⟩ := runCommand_ofRunner program c s
    have here : x.handle r s = x.runCommand c s := handle_of_askedBy ran.1 ran.2
    rw [here, answered] at ran ⊢
    have counted : (s.metrics.recordCommand c o.succeeded).commands c =
        (s.metrics.commands c).add o.succeeded := if_pos rfl
    constructor
    · rw [counted, Tally.add_total, List.countP_singleton, if_pos (decide_eq_true ran)]
    · have told := Response.hasField_error_iff o
      rw [counted]
      cases succeeded : o.succeeded with
      | true => simp [told, succeeded, ran, Tally.add]
      | false => simp [told, succeeded, Tally.add]
  case neg =>
    have same : (x.handle r s).2.metrics.commands c = s.metrics.commands c := by
      rcases metrics_cases x r s with
        unchanged | ⟨marked, ⟨asked, answered⟩ | ⟨d, asked, answered⟩⟩
      · rw [unchanged]
      · rw [answered, (saveCount_of_putDocument asked marked).commands]
      · have others : c ≠ d := by
          rintro rfl
          exact ran ⟨asked, marked⟩
        obtain ⟨o, told⟩ := runCommand_ofRunner program d s
        rw [answered, told]
        exact if_neg others
    constructor <;> simp [same, ran]

def storedDocuments (x : Service) : List Request → State → List Document
  | [], _ => []
  | r :: rest, s => (x.storedDocument? r s).toList ++ x.storedDocuments rest (x.handle r s).2

theorem savesCounted_of_run (quiet : x.control.CountsCommandsOnly) (requests : List Request)
    (s : State) :
    SavesCounted x (x.run requests s).1 (x.storedDocuments requests s) s.metrics
      (x.run requests s).2.metrics := by
  induction requests generalizing s with
  | nil => exact savesCounted_nil _
  | cons r rest ih => exact (savesCounted_of_handle quiet r s).append (ih _)

theorem runsCounted_of_run {runner : Proxy.Runner} (program : x.control = .ofRunner runner)
    (c : Proxy.Command) (requests : List Request) (s : State) :
    RunsCounted c (x.run requests s).1 (s.metrics.commands c)
      ((x.run requests s).2.metrics.commands c) := by
  induction requests generalizing s with
  | nil => exact runsCounted_nil _
  | cons r rest ih => exact (runsCounted_of_handle program c r s).append (ih _)

/-- After any requests, saves that were done and saves that broke off are counted as the replies say,
compilations as documents were stored, and the sites are those of the last stored document.  If
commands go to a program, each command that was let through is counted once, and as a success if its
reply has no field for an error. -/
theorem metrics_of_run (x : Service) (quiet : x.control.CountsCommandsOnly)
    (requests : List Request) (files : FileTree) :
    let log := (x.run requests { files }).1
    let stored := x.storedDocuments requests { files }
    let counted := (x.run requests { files }).2.metrics
    counted.saves.successes = log.countP (fun e => e.Did .putDocument) ∧
      counted.saves.failures = log.countP (fun e => e.BrokeOff .putDocument) ∧
      counted.compilations = stored.length ∧
      counted.sites =
        (stored.getLast?.map fun doc => (Caddyfile.compile x.certsDir doc).sites).getD 0 ∧
      ∀ runner, x.control = .ofRunner runner → ∀ c,
        (counted.commands c).successes + (counted.commands c).failures =
            log.countP (fun e => e.Ran c) ∧
          (counted.commands c).successes =
            log.countP fun e => e.Ran c ∧ ¬ e.reply.HasField "error" := by
  dsimp only
  have saves := savesCounted_of_run quiet requests { files }
  refine ⟨?_, ?_, ?_, saves.sites, fun runner program c => ?_⟩
  · rw [saves.done, Nat.zero_add]
  · rw [saves.brokeOff, Nat.zero_add]
  · rw [saves.compilations, Nat.zero_add]
  · obtain ⟨total, successes⟩ := runsCounted_of_run program c requests { files }
    exact ⟨total.trans (Nat.zero_add _), successes.trans (Nat.zero_add _)⟩

def stopping : Service where
  paths := .of "data"
  certsDir := Certificate.usualDirectory
  control := .ofRunner
    { program := fun args => .finished .empty .empty (.exit (if args = ["stop"] then 0 else 1)) }
  showsMetrics := true

def mixedRequests : List Request :=
  [{ switchOn with body := ("\x7b\"general\":\x7b\"enabled\":true\x7d,\"domains\":[\x7b\"id\":\"d\"," ++
      "\"enabled\":true,\"fromDomain\":\"d.example\"\x7d]\x7d").toUTF8 },
    { switchOn with target := "/api/stop" }, { switchOn with target := "/api/reload" },
    { switchOn with target := "/api/reload", headers := [] }]

theorem metrics_of_run_broken_off :
    stopping.control.CountsCommandsOnly ∧
      (let counted := (stopping.run mixedRequests { files := (blocked "Caddyfile").files }).2.metrics
      counted.saves.successes = 0 ∧ counted.saves.failures = 1 ∧
        counted.compilations = 1 ∧ counted.sites = 1 ∧
        (counted.commands .stop).successes = 1 ∧
        (counted.commands .reload).successes = 0 ∧ (counted.commands .reload).failures = 1) := by
  have quiet : stopping.control.CountsCommandsOnly := Control.ofRunner_countsCommandsOnly _
  obtain ⟨done, brokeOff, compilations, sites, runs⟩ :=
    metrics_of_run stopping quiet mixedRequests (blocked "Caddyfile").files
  obtain ⟨-, stops⟩ := runs _ rfl .stop
  obtain ⟨total, reloads⟩ := runs _ rfl .reload
  have none : (stopping.run mixedRequests { files := (blocked "Caddyfile").files }).1.countP
      (fun e => e.Ran .reload ∧ ¬ e.reply.HasField "error") = 0 := by decide +kernel
  rw [none] at reloads
  rw [reloads, Nat.zero_add] at total
  refine ⟨quiet, done.trans ?_, brokeOff.trans ?_, compilations.trans ?_, sites.trans ?_,
    stops.trans ?_, reloads, total.trans ?_⟩
  all_goals decide +kernel

end Service

end ProxyConfig.Admin
