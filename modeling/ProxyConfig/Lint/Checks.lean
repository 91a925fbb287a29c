import ProxyConfig.Document.Basic
import ProxyConfig.Duration
import ProxyConfig.Host
import ProxyConfig.Lint.Finding

/-!
Checks of a document.  None of them keeps a document from being compiled: what cannot be rendered is
left out there, and a finding says why.  `Document.lint` has the findings about repeated ids first and
then those of each collection, entity by entity.  Main statement: a repeated id is found once.
-/

namespace ProxyConfig

namespace Lint

/-- The texts that are met again on a walk over a list, each at its second place.  `met` holds the
texts that the walk has met so far, and `reported` those that it has met again. -/
def repeatedAfter (met reported : List String) : List String → List String
  | [] => []
  | x :: rest =>
    if !met.contains x then repeatedAfter (x :: met) reported rest
    else if !reported.contains x then x :: repeatedAfter met (x :: reported) rest
    else repeatedAfter met reported rest

def repeated (xs : List String) : List String := repeatedAfter [] [] xs

def duplicates (collection : Collection) (ids : List String) : List Finding :=
  (repeated ids).map (.duplicateId collection)

def references (owner : Owner) (target : Target) (known ids : List String) : List Finding :=
  (ids.filter fun id => !known.contains id).map (.danglingReference owner target)

def port (spot : Spot) (t : NumberText) : List Finding :=
  if !t.isBlank && t.port?.isNone then [.invalidPort spot t.raw] else []

def duration (spot : Spot) (s : String) : List Finding :=
  if Duration.valid s then [] else [.invalidDuration spot s]

def host (spot : Spot) (s : String) : List Finding :=
  if Host.valid s then [] else [.invalidHost spot s]

def addresses (spot : Spot) (texts : List String) : List Finding :=
  (texts.filterMap Caddyfile.present?).filterMap fun s =>
    if Address.isAddressOrRange s.toList then none else some (.invalidAddress spot s)

end Lint

open Lint

namespace General

def lint (g : General) : List Finding :=
  let spot (name : String) : Spot := ⟨.general, name⟩
  port (spot "http_port") g.httpPort ++
  port (spot "https_port") g.httpsPort ++
  duration (spot "timeout read_body") g.readBodyTimeout ++
  duration (spot "timeout read_header") g.readHeaderTimeout ++
  duration (spot "timeout write") g.writeTimeout ++
  duration (spot "timeout idle") g.idleTimeout

end General

namespace RawRoute

def lint (r : RawRoute) : List Finding :=
  let spot (name : String) : Spot := ⟨.rawRoute r.id, name⟩
  let version := Text.trim r.proxyProtocol
  port (spot "fromPort") r.fromPort ++
  port (spot "toPort") r.upstreamPort ++
  (if ["", "v1", "v2"].contains version then []
    else [.invalidField (spot "proxyProtocol") (.unknownVersion version)]) ++
  duration (spot "passive_health_fail_duration") r.failDuration

end RawRoute

namespace AccessList

def lint (l : AccessList) : List Finding := addresses ⟨.accessList l.id, "clientIps"⟩ l.clientIps

end AccessList

namespace Handler

def lintTargets (h : Handler) : List Finding :=
  let spot : Spot := ⟨.handler h.id, "toDomain"⟩
  let count := (h.upstreams.filterMap Caddyfile.present?).length
  match h.action with
  | .proxy => if count = 0 then [.invalidField spot .noUpstream] else []
  | .redirect => if 1 < count then [.invalidField spot (.unusedTargets count)] else []
  | .other _ => []

def lintValues (h : Handler) : List Finding :=
  let spot (name : String) : Spot := ⟨.handler h.id, name⟩
  let retries := h.balancing.retries
  port (spot "toPort") h.upstreamPort ++
  port (spot "health_port") h.health.port ++
  (if retries.isMalformed 32 then [.invalidField (spot "lb_retries") (.notACount retries.raw)]
    else []) ++
  duration (spot "lb_try_duration") h.balancing.tryDuration ++
  duration (spot "lb_try_interval") h.balancing.tryInterval ++
  duration (spot "health_interval") h.health.interval ++
  duration (spot "health_timeout") h.health.timeout ++
  duration (spot "passive_health_fail_duration") h.passiveHealth.failDuration ++
  duration (spot "passive_health_unhealthy_latency") h.passiveHealth.unhealthyLatency

end Handler

namespace Document

def domainIds (doc : Document) : List String := doc.domains.map (·.id)

def subdomainIds (doc : Document) : List String := doc.subdomains.map (·.id)

def handlerIds (doc : Document) : List String := doc.handlers.map (·.id)

def accessListIds (doc : Document) : List String := doc.accessLists.map (·.id)

def credentialIds (doc : Document) : List String := doc.credentials.map (·.id)

def headerIds (doc : Document) : List String := doc.headers.map (·.id)

def rawRouteIds (doc : Document) : List String := doc.rawRoutes.map (·.id)

def lintIds (doc : Document) : List Finding :=
  duplicates .domains doc.domainIds ++
  duplicates .subdomains doc.subdomainIds ++
  duplicates .handlers doc.handlerIds ++
  duplicates .accessLists doc.accessListIds ++
  duplicates .credentials doc.credentialIds ++
  duplicates .headers doc.headerIds ++
  duplicates .rawRoutes doc.rawRouteIds

def lintDomain (doc : Document) (d : Domain) : List Finding :=
  let owner : Owner := .domain d.id
  host ⟨owner, "fromDomain"⟩ d.host ++
  port ⟨owner, "fromPort"⟩ d.port ++
  references owner .accessList doc.accessListIds d.accessLists ++
  references owner .credential doc.credentialIds d.credentials

def lintSubdomain (doc : Document) (s : Subdomain) : List Finding :=
  let owner : Owner := .subdomain s.id
  references owner .domain doc.domainIds [s.domainId] ++
  (if Text.blank s.fragment then [.invalidField ⟨owner, "fromDomain"⟩ .emptyFragment] else []) ++
  references owner .accessList doc.accessListIds s.accessLists ++
  references owner .credential doc.credentialIds s.credentials

/-- What a handler is bound to: a subdomain if it names one, else a domain. -/
def lintBinding (doc : Document) (h : Handler) : List Finding :=
  if h.subdomainId ≠ "" then
    references (.handler h.id) .subdomain doc.subdomainIds [h.subdomainId]
  else if h.domainId ≠ "" then references (.handler h.id) .domain doc.domainIds [h.domainId]
  else [.unattachedHandler h.id]

def lintHandler (doc : Document) (h : Handler) : List Finding :=
  let owner : Owner := .handler h.id
  doc.lintBinding h ++
  references owner .accessList doc.accessListIds h.accessLists ++
  references owner .credential doc.credentialIds h.credentials ++
  references owner .header doc.headerIds h.headers ++
  h.lintValues ++
  h.lintTargets

def lint (doc : Document) : List Finding :=
  doc.lintIds ++
  doc.general.lint ++
  doc.domains.flatMap doc.lintDomain ++
  doc.subdomains.flatMap doc.lintSubdomain ++
  doc.handlers.flatMap doc.lintHandler ++
  doc.accessLists.flatMap AccessList.lint ++
  doc.rawRoutes.flatMap RawRoute.lint

end Document

namespace Lint

/-- What a walk knows with the texts of `before` behind it. -/
structure Walked (met reported before : List String) : Prop where
  met_iff : ∀ x, x ∈ met ↔ 1 ≤ before.count x
  reported_iff : ∀ x, x ∈ reported ↔ 2 ≤ before.count x

theorem walked_nil : Walked [] [] [] := by
  constructor <;> simp

/-- A step reports the text it comes to exactly if it has met this once before, and knows it from then
on. -/
theorem Walked.step {met reported before : List String} (walked : Walked met reported before)
    (x : String) (rest : List String) :
    ∃ met' reported', Walked met' reported' (before ++ [x]) ∧
      repeatedAfter met reported (x :: rest) =
        (if before.count x = 1 then [x] else []) ++ repeatedAfter met' reported' rest := by
  obtain ⟨known, again⟩ := walked
  have behind (y : String) : (before ++ [x]).count y = before.count y + if x = y then 1 else 0 := by
    simp [List.count_append, List.count_singleton]
  by_cases first : x ∈ met
  · by_cases second : x ∈ reported
    · exact ⟨met, reported, ⟨by grind, by grind⟩, by grind [repeatedAfter]⟩
    · exact ⟨met, x :: reported, ⟨by grind, by grind⟩, by grind [repeatedAfter]⟩
  · exact ⟨x :: met, reported, ⟨by grind, by grind⟩, by grind [repeatedAfter]⟩

theorem Walked.count_repeatedAfter {met reported before : List String}
    (walked : Walked met reported before) (x : String) (xs : List String) :
    (repeatedAfter met reported xs).count x =
      if before.count x ≤ 1 ∧ 2 ≤ before.count x + xs.count x then 1 else 0 := by
  induction xs generalizing met reported before with
  | nil =>
    rw [List.count_nil, if_neg (by omega)]
    rfl
  | cons y xs ih =>
    obtain ⟨met', reported', walked', report⟩ := walked.step y xs
    rw [report, List.count_append, ih walked', List.count_append]
    by_cases same : y = x
    · subst same
      by_cases second : before.count y = 1 <;> grind
    · grind

theorem count_repeated (x : String) (xs : List String) :
    (repeated xs).count x = if 2 ≤ xs.count x then 1 else 0 := by
  simp [repeated, walked_nil.count_repeatedAfter]

end Lint

end ProxyConfig
