import Mathlib.Data.List.Forall2
import ProxyConfig.Proofs.Caddyfile.Padding
import ProxyConfig.Proofs.Caddyfile.TimeLines
import ProxyConfig.Proofs.Lint.Rearranged
import ProxyConfig.Proofs.Text.UnitSpans

/-!
Times as they are rendered, put back into the document.  A rendered time is rendered as it stands, and
it is valid exactly if the time that it comes from is.  Main statement: a document with some of its
times replaced so compiles to the same and has the same findings, but for the blanks in what they quote
(`rendered_times_put_back`).
-/

namespace ProxyConfig

open Caddyfile

theorem Text.trimmed_eq_nil_iff {s : List Char} : trimmed s = [] ↔ ∀ c ∈ s, isBlank c = true := by
  constructor
  · intro empty
    obtain ⟨before, after, front, back, text⟩ := padded_trim (String.ofList s)
    rw [toList_trim, String.toList_ofList, empty, List.append_nil] at text
    rw [text]
    exact List.forall_mem_append.2 ⟨front, back⟩
  · intro blank
    rw [← List.nil_append s, trimmed_append_of_blank [] blank]
    rfl

namespace Duration

theorem accepts_unitSpan_seconds {s : List Char} (some : s ≠ [])
    (digits : s.all isAsciiDigit = true) : unitSpan.accepts (s ++ ['s']) = true := by
  have filled : ∀ c ∈ s, c.isDigit = true := List.all_eq_true.1 digits
  have unit : "s" ∈ spanUnits := by decide
  refine accepts_unitSpan_iff.2 ⟨[⟨⟨s, some, filled⟩, none, ⟨"s", unit⟩⟩], nofun, ?_⟩
  simp [Item.text, fractionText, unitText]

end Duration

namespace Caddyfile

theorem duration?_eq_none_iff_blank (s : String) :
    duration? s = none ↔ ∀ c ∈ s.toList, Text.isBlank c = true := by
  rw [duration?_eq_none_iff, ← Text.trimmed_eq_nil_iff, ← Text.toList_trim, String.toList_eq_nil_iff]
  simp [present?]

theorem duration?_eq_self {d : String} (ends : Text.trim d = d)
    (mixed : d.toList.all isAsciiDigit = false) : duration? d = some d := by
  have filled : d.isEmpty = false := by
    rw [Bool.eq_false_iff, Ne, String.isEmpty_iff]
    rintro rfl
    cases mixed
  rw [duration?, present?, ends, if_neg (by simp [filled]), Option.map_some, if_neg (by simp [mixed])]

section Rendered

variable {s d : String} (rendered : duration? s = some d)
include rendered

theorem accepts_of_digits (digits : (Text.trimmed s.toList).all isAsciiDigit = true) :
    Duration.unitSpan.accepts d.toList = true := by
  obtain ⟨-, rfl⟩ | ⟨mixed, -⟩ := duration?_cases rendered
  · have some : Text.trimmed s.toList ≠ [] := by
      intro empty
      rw [Text.trimmed_eq_nil_iff, ← duration?_eq_none_iff_blank, rendered] at empty
      cases empty
    rw [String.toList_append, Text.toList_trim]
    exact Duration.accepts_unitSpan_seconds some digits
  · rw [mixed] at digits
    cases digits

theorem trim_of_duration? : Text.trim d = d := by
  obtain ⟨digits, -⟩ | ⟨-, rfl⟩ := duration?_cases rendered
  · have filled := Duration.not_isBlank_of_unitSpan (accepts_of_digits rendered digits)
    exact Text.trim_eq_self (Text.trimmed_of_filled filled)
  · exact Text.trim_trim s

theorem duration?_duration? : duration? d = some d := by
  apply duration?_eq_self (trim_of_duration? rendered)
  obtain ⟨-, rfl⟩ | ⟨mixed, rfl⟩ := duration?_cases rendered
  · rw [String.toList_append, List.all_append]
    exact Bool.and_false _
  · rwa [Text.toList_trim]

theorem valid_duration? : Duration.valid d = Duration.valid s := by
  have text : Text.trimmed d.toList = d.toList := by
    rw [← Text.toList_trim, trim_of_duration? rendered]
  obtain ⟨digits, -⟩ | ⟨-, rfl⟩ := duration?_cases rendered
  · have span := accepts_of_digits rendered digits
    simp [Duration.valid, text, span, digits]
  · simp [Duration.valid]

theorem eq_trim_of_not_valid (wrong : Duration.valid s = false) : d = Text.trim s := by
  obtain ⟨digits, -⟩ | ⟨-, same⟩ := duration?_cases rendered
  · simp [Duration.valid, digits] at wrong
  · exact same

end Rendered

/-- A time is kept, or it is replaced by what is rendered of it. -/
def Settles (s t : String) : Prop := t = s ∨ duration? s = some t

instance : DecidableRel Settles := fun _ _ => inferInstanceAs (Decidable (_ ∨ _))

theorem Settles.duration?_eq {s t : String} (settled : Settles s t) : duration? t = duration? s := by
  rcases settled with rfl | rendered
  · rfl
  · rw [rendered, duration?_duration? rendered]

end Caddyfile

structure General.Settles (g f : General) : Prop where
  readBodyTimeout : Caddyfile.Settles g.readBodyTimeout f.readBodyTimeout
  readHeaderTimeout : Caddyfile.Settles g.readHeaderTimeout f.readHeaderTimeout
  writeTimeout : Caddyfile.Settles g.writeTimeout f.writeTimeout
  idleTimeout : Caddyfile.Settles g.idleTimeout f.idleTimeout
  others : f = { g with
    readBodyTimeout := f.readBodyTimeout, readHeaderTimeout := f.readHeaderTimeout
    writeTimeout := f.writeTimeout, idleTimeout := f.idleTimeout }

structure LoadBalancing.Settles (b c : LoadBalancing) : Prop where
  tryDuration : Caddyfile.Settles b.tryDuration c.tryDuration
  tryInterval : Caddyfile.Settles b.tryInterval c.tryInterval
  others : c = { b with tryDuration := c.tryDuration, tryInterval := c.tryInterval }

structure HealthCheck.Settles (c e : HealthCheck) : Prop where
  interval : Caddyfile.Settles c.interval e.interval
  timeout : Caddyfile.Settles c.timeout e.timeout
  others : e = { c with interval := e.interval, timeout := e.timeout }

structure PassiveHealth.Settles (p q : PassiveHealth) : Prop where
  failDuration : Caddyfile.Settles p.failDuration q.failDuration
  unhealthyLatency : Caddyfile.Settles p.unhealthyLatency q.unhealthyLatency
  others : q = { p with
    failDuration := q.failDuration, unhealthyLatency := q.unhealthyLatency }

structure Handler.Settles (h k : Handler) : Prop where
  balancing : h.balancing.Settles k.balancing
  health : h.health.Settles k.health
  passiveHealth : h.passiveHealth.Settles k.passiveHealth
  others : k = { h with
    balancing := k.balancing, health := k.health, passiveHealth := k.passiveHealth }

structure RawRoute.Settles (r s : RawRoute) : Prop where
  failDuration : Caddyfile.Settles r.failDuration s.failDuration
  others : s = { r with failDuration := s.failDuration }

structure Document.Settles (doc doc' : Document) : Prop where
  general : doc.general.Settles doc'.general
  handlers : List.Forall₂ Handler.Settles doc.handlers doc'.handlers
  rawRoutes : List.Forall₂ RawRoute.Settles doc.rawRoutes doc'.rawRoutes
  others : doc' = { doc with
    general := doc'.general, handlers := doc'.handlers, rawRoutes := doc'.rawRoutes }

namespace Caddyfile

theorem serversBlock_settle {g f : General} (settled : g.Settles f) :
    serversBlock f = serversBlock g := by
  rw [serversBlock, settled.readBodyTimeout.duration?_eq, settled.readHeaderTimeout.duration?_eq,
    settled.writeTimeout.duration?_eq, settled.idleTimeout.duration?_eq, settled.others]
  rfl

theorem rawRouteBlock_settle {r s : RawRoute} (settled : r.Settles s) :
    rawRouteBlock s = rawRouteBlock r := by
  have proxied : rawProxy s = rawProxy r := by
    rw [rawProxy, settled.failDuration.duration?_eq, settled.others]
    rfl
  rw [rawRouteBlock, proxied, settled.others]
  rfl

theorem balancing_settle {b c : LoadBalancing} (settled : b.Settles c) :
    balancing c = balancing b := by
  rw [balancing, settled.tryDuration.duration?_eq, settled.tryInterval.duration?_eq, settled.others]
  rfl

theorem healthChecks_settle {c e : HealthCheck} (settled : c.Settles e) :
    healthChecks e = healthChecks c := by
  rw [healthChecks, settled.interval.duration?_eq, settled.timeout.duration?_eq, settled.others]
  rfl

theorem passiveHealth_settle {p q : PassiveHealth} (settled : p.Settles q) :
    passiveHealth q = passiveHealth p := by
  rw [passiveHealth, settled.failDuration.duration?_eq, settled.unhealthyLatency.duration?_eq,
    settled.others]
  rfl

section Documents

variable {doc doc' : Document} (settled : doc.Settles doc')
include settled

theorem handlerBlock_settle (certsDir : String) {h k : Handler} (settles : h.Settles k) :
    handlerBlock certsDir doc' k = handlerBlock certsDir doc h := by
  have proxied (headers : List HeaderRule) :
      reverseProxy certsDir k headers = reverseProxy certsDir h headers := by
    rw [reverseProxy, balancing_settle settles.balancing, healthChecks_settle settles.health,
      passiveHealth_settle settles.passiveHealth, settles.others]
    rfl
  have acted (headers : List HeaderRule) :
      actionClauses certsDir k headers = actionClauses certsDir h headers := by
    rw [actionClauses, proxied, settles.others]
    rfl
  rw [handlerBlock, acted, settled.others, settles.others]
  rfl

theorem siteBlock_settle (certsDir : String) (site : Site) :
    siteBlock certsDir doc' site = siteBlock certsDir doc site := by
  have handlers : (doc'.handlers.filter (attaches · site)).map (handlerBlock certsDir doc') =
      (doc.handlers.filter (attaches · site)).map (handlerBlock certsDir doc) := by
    refine (thinned_of_forall₂ settled.handlers).map_filter_eq (fun _ _ => False.elim) ?_
    intro h _ k settles
    exact ⟨by rw [settles.others]; rfl, fun _ => handlerBlock_settle settled certsDir settles⟩
  rw [siteBlock, handlers, settled.others]
  rfl

theorem rawRoutesBlock_settle :
    rawRoutesBlock doc'.general doc'.rawRoutes = rawRoutesBlock doc.general doc.rawRoutes := by
  have routes := settled.rawRoutes
  have rendered : (doc'.rawRoutes.filter (·.enabled)).map rawRouteBlock =
      (doc.rawRoutes.filter (·.enabled)).map rawRouteBlock := by
    refine (thinned_of_forall₂ routes).map_filter_eq (fun _ _ => False.elim) ?_
    exact fun r _ s settles => ⟨by rw [settles.others], fun _ => rawRouteBlock_settle settles⟩
  rw [rawRoutesBlock, rendered, isEmpty_eq_of_forall₂ routes, settled.general.others]
  rfl

theorem compile_settle (certsDir : String) : compile certsDir doc' = compile certsDir doc := by
  have general := settled.general
  have options : globalOptions doc'.general doc'.rawRoutes =
      globalOptions doc.general doc.rawRoutes := by
    rw [globalOptions, rawRoutesBlock_settle settled, serversBlock_settle general, general.others]
    rfl
  have sites : renderedSites certsDir doc' = renderedSites certsDir doc := by
    rw [settled.others, renderedSites, general.others]
    rfl
  exact compile_eq_of_siteBlock_eq options sites fun site _ => siteBlock_settle settled certsDir site

end Documents

end Caddyfile

/-- The same finding, or one about a time that is quoted without the blanks around it. -/
inductive Finding.Requotes : Finding → Finding → Prop
  | same (f : Finding) : Requotes f f
  | trimmed (spot : Spot) (s : String) :
      Requotes (.invalidDuration spot s) (.invalidDuration spot (Text.trim s))

open Finding (Requotes)

instance : Std.Refl Requotes := ⟨.same⟩

namespace Lint

theorem duration_settle (spot : Spot) {s t : String} (settled : Caddyfile.Settles s t) :
    List.Forall₂ Requotes (duration spot s) (duration spot t) := by
  rcases settled with rfl | rendered
  · exact List.forall₂_refl _
  · unfold duration
    rw [valid_duration? rendered]
    split
    case isTrue => exact .nil
    case isFalse wrong =>
      rw [eq_trim_of_not_valid rendered (Bool.eq_false_iff.2 wrong)]
      exact .cons (.trimmed spot s) .nil

end Lint

open Lint

theorem map_eq_of_forall₂ {α β : Type} {R : α → α → Prop} {f : α → β} {xs ys : List α}
    (related : List.Forall₂ R xs ys) (same : ∀ x y, R x y → f y = f x) : ys.map f = xs.map f := by
  induction related with
  | nil => rfl
  | cons first _ ih => rw [List.map_cons, List.map_cons, same _ _ first, ih]

theorem General.Settles.lint {g f : General} (settled : g.Settles f) :
    List.Forall₂ Requotes g.lint f.lint := by
  have ports : f.httpPort = g.httpPort ∧ f.httpsPort = g.httpsPort := by
    rw [settled.others]
    exact ⟨rfl, rfl⟩
  rw [General.lint, General.lint, ports.1, ports.2]
  refine List.rel_append (List.rel_append (List.rel_append (List.rel_append ?_ ?_) ?_) ?_) ?_
  · exact List.forall₂_refl _
  · exact duration_settle _ settled.readBodyTimeout
  · exact duration_settle _ settled.readHeaderTimeout
  · exact duration_settle _ settled.writeTimeout
  · exact duration_settle _ settled.idleTimeout

theorem Handler.Settles.lintValues {h k : Handler} (settled : h.Settles k) :
    List.Forall₂ Requotes h.lintValues k.lintValues := by
  have id : k.id = h.id := by rw [settled.others]
  have port : k.upstreamPort = h.upstreamPort := by rw [settled.others]
  have healthPort : k.health.port = h.health.port := by rw [settled.health.others]
  have retries : k.balancing.retries = h.balancing.retries := by rw [settled.balancing.others]
  rw [Handler.lintValues, Handler.lintValues, id, port, healthPort, retries]
  refine List.rel_append (List.rel_append (List.rel_append (List.rel_append (List.rel_append
    (List.rel_append ?_ ?_) ?_) ?_) ?_) ?_) ?_
  · exact List.forall₂_refl _
  · exact duration_settle _ settled.balancing.tryDuration
  · exact duration_settle _ settled.balancing.tryInterval
  · exact duration_settle _ settled.health.interval
  · exact duration_settle _ settled.health.timeout
  · exact duration_settle _ settled.passiveHealth.failDuration
  · exact duration_settle _ settled.passiveHealth.unhealthyLatency

theorem RawRoute.Settles.lint {r s : RawRoute} (settled : r.Settles s) :
    List.Forall₂ Requotes r.lint s.lint := by
  rw [settled.others]
  exact List.rel_append (List.forall₂_refl _) (duration_settle _ settled.failDuration)

namespace Document

variable {doc doc' : Document} (settled : doc.Settles doc')
include settled

theorem Settles.idsOf_eq (collection : Collection) : doc'.idsOf collection = doc.idsOf collection := by
  have handlers : doc'.handlerIds = doc.handlerIds :=
    map_eq_of_forall₂ settled.handlers fun h k settles => by rw [settles.others]
  have rawRoutes : doc'.rawRouteIds = doc.rawRouteIds :=
    map_eq_of_forall₂ settled.rawRoutes fun r s settles => by rw [settles.others]
  have others := settled.others
  cases collection with
  | handlers => exact handlers
  | rawRoutes => exact rawRoutes
  | _ =>
    rw [others]
    rfl

theorem Settles.sameIds : SameIds doc doc' := fun collection id => by rw [settled.idsOf_eq]

theorem Settles.lintHandler {h k : Handler} (settles : h.Settles k) :
    List.Forall₂ Requotes (doc.lintHandler h) (doc'.lintHandler k) := by
  have binding : doc.lintBinding k = doc.lintBinding h := by
    rw [settles.others]
    rfl
  have targets : k.lintTargets = h.lintTargets := by
    rw [settles.others]
    rfl
  have owner : k.id = h.id := by rw [settles.others]
  have accessLists : k.accessLists = h.accessLists := by rw [settles.others]
  have credentials : k.credentials = h.credentials := by rw [settles.others]
  have headers : k.headers = h.headers := by rw [settles.others]
  rw [settled.sameIds.lintHandler, Document.lintHandler, Document.lintHandler, binding, targets, owner,
    accessLists, credentials, headers]
  refine List.rel_append (List.rel_append ?_ ?_) ?_
  · exact List.forall₂_refl _
  · exact settles.lintValues
  · exact List.forall₂_refl _

theorem Settles.lint : List.Forall₂ Requotes doc.lint doc'.lint := by
  have same := settled.sameIds
  have ids : doc'.lintIds = doc.lintIds := by
    rw [lintIds_eq, lintIds_eq]
    simp only [settled.idsOf_eq]
  have domains : doc'.domains = doc.domains := by rw [settled.others]
  have subdomains : doc'.subdomains = doc.subdomains := by rw [settled.others]
  have accessLists : doc'.accessLists = doc.accessLists := by rw [settled.others]
  rw [Document.lint, Document.lint, ids, domains, subdomains, accessLists, funext same.lintDomain,
    funext same.lintSubdomain]
  -- the parts of `Document.lint` in their order; general settings, handlers and raw routes have times
  refine List.rel_append (List.rel_append (List.rel_append (List.rel_append (List.rel_append
    (List.rel_append ?_ ?_) ?_) ?_) ?_) ?_) ?_
  · exact List.forall₂_refl _
  · exact settled.general.lint
  · exact List.forall₂_refl _
  · exact List.forall₂_refl _
  · exact List.rel_flatMap settled.handlers fun h k => settled.lintHandler
  · exact List.forall₂_refl _
  · exact List.rel_flatMap settled.rawRoutes fun r s => RawRoute.Settles.lint

end Document

/-- A time is rendered as nothing exactly if it is blank.  What is rendered of a time is rendered as it
stands, and lint takes it exactly if it takes the time.  A document with some of its times replaced by
what is rendered of them compiles to the same and has the same findings, except that a time that is not
valid is quoted without the blanks that were around it. -/
theorem rendered_times_put_back :
    (∀ s, duration? s = none ↔ ∀ c ∈ s.toList, Text.isBlank c = true) ∧
    (∀ s d, duration? s = some d →
      duration? d = some d ∧ Duration.valid d = Duration.valid s) ∧
    ∀ certsDir doc doc', Document.Settles doc doc' →
      compile certsDir doc' = compile certsDir doc ∧ List.Forall₂ Requotes doc.lint doc'.lint := by
  refine ⟨duration?_eq_none_iff_blank, fun s d rendered => ?_, fun certsDir doc doc' settled => ?_⟩
  · exact ⟨duration?_duration? rendered, valid_duration? rendered⟩
  · exact ⟨compile_settle settled certsDir, settled.lint⟩

def timed (header body other : String) : Document where
  general := { enabled := true, rawEnabled := true, readHeaderTimeout := header, readBodyTimeout := body }
  domains := [.serving "d" "d.example"]
  handlers := [{ Handler.proxying "h" "d" ["one"] (.ofNat 80) with
    balancing := { tryDuration := other }, health := { uri := "/up", interval := other } }]
  rawRoutes := [{ RawRoute.forwarding "mail" (.ofNat 25) ["mail"] (.ofNat 25) with
    failDuration := other }]

theorem settles_timed : (timed "30" " 1m 30s" " soon ").Settles (timed "30s" "1m 30s" "soon") where
  general := by constructor <;> decide +kernel
  handlers := by
    refine .cons ?_ .nil
    constructor
    case others => rfl
    all_goals constructor <;> decide +kernel
  rawRoutes := .cons (by constructor <;> decide +kernel) .nil
  others := rfl

theorem rendered_times_put_back_timed :
    duration? "30" = some "30s" ∧ duration? "30s" = some "30s" ∧
      compile "./certs" (timed "30s" "1m 30s" "soon") =
        compile "./certs" (timed "30" " 1m 30s" " soon ") ∧
      List.Forall₂ Requotes (timed "30" " 1m 30s" " soon ").lint
        (timed "30s" "1m 30s" "soon").lint := by
  obtain ⟨-, again, documents⟩ := rendered_times_put_back
  have seconds : duration? "30" = some "30s" := by decide +kernel
  exact ⟨seconds, (again _ _ seconds).1, documents _ _ _ settles_timed⟩

def waiting (time : String) : Document where
  general := { enabled := true, idleTimeout := time }

/-- A time that is not valid is quoted with the blanks around it, and these are not rendered. -/
theorem padded_time_requoted :
    duration? " soon " = some "soon" ∧ (waiting " soon ").Settles (waiting "soon") ∧
      (waiting " soon ").lint = [.invalidDuration ⟨.general, "timeout idle"⟩ " soon "] ∧
      (waiting "soon").lint = [.invalidDuration ⟨.general, "timeout idle"⟩ "soon"] ∧
      (waiting "soon").lint ≠ (waiting " soon ").lint := by
  have settles : (waiting " soon ").Settles (waiting "soon") :=
    { general := by constructor <;> decide +kernel
      handlers := .nil
      rawRoutes := .nil
      others := rfl }
  refine ⟨by decide +kernel, settles, ?_⟩
  decide +kernel

end ProxyConfig
