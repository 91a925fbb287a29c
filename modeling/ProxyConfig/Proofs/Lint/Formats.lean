import ProxyConfig.Proofs.Lint.FoundByCheck

/-!
What it says about the texts of a document that nothing is found about it: hosts, addresses and times
have the forms that lint asks for.  `times` lists the times of an entity with the names of the
directives they are rendered as.  Main statement: each of them is valid in a document without findings
(`formed_of_lint_eq_nil`).
-/

namespace ProxyConfig

def General.times (g : General) : List (String × String) :=
  [("read_body", g.readBodyTimeout), ("read_header", g.readHeaderTimeout),
    ("write", g.writeTimeout), ("idle", g.idleTimeout)]

def Handler.times (h : Handler) : List (String × String) :=
  [("lb_try_duration", h.balancing.tryDuration), ("lb_try_interval", h.balancing.tryInterval),
    ("health_interval", h.health.interval), ("health_timeout", h.health.timeout),
    ("fail_duration", h.passiveHealth.failDuration),
    ("unhealthy_latency", h.passiveHealth.unhealthyLatency)]

def RawRoute.times (r : RawRoute) : List (String × String) :=
  [("passive_health_fail_duration", r.failDuration)]

namespace Lint

theorem duration_eq_nil_iff {spot : Spot} {s : String} :
    duration spot s = [] ↔ Duration.valid s = true := by
  simp [duration]

theorem host_eq_nil_iff {spot : Spot} {s : String} : host spot s = [] ↔ Host.valid s = true := by
  simp [host]

theorem addresses_eq_nil_iff {spot : Spot} {texts : List String} :
    addresses spot texts = [] ↔ ∀ s ∈ texts.filterMap Caddyfile.present?,
      Address.isAddressOrRange s.toList = true := by
  simp [Lint.addresses]

end Lint

namespace Document

/-- Hosts, addresses of access lists, and times have the forms that they are checked for. -/
structure Formed (doc : Document) : Prop where
  hosts : ∀ d ∈ doc.domains, Host.valid d.host = true
  addresses : ∀ l ∈ doc.accessLists, ∀ s ∈ l.clientIps.filterMap Caddyfile.present?,
    Address.isAddressOrRange s.toList = true
  generalTimes : ∀ time ∈ doc.general.times, Duration.valid time.2 = true
  handlerTimes : ∀ h ∈ doc.handlers, ∀ time ∈ h.times, Duration.valid time.2 = true
  rawRouteTimes : ∀ r ∈ doc.rawRoutes, ∀ time ∈ r.times, Duration.valid time.2 = true

open Lint

variable {doc : Document}

theorem formed_of_lint_eq_nil (clean : doc.lint = []) : doc.Formed := by
  simp only [lint, General.lint, lintDomain, lintHandler, Handler.lintValues, AccessList.lint,
    RawRoute.lint, List.append_eq_nil_iff, List.flatMap_eq_nil_iff, duration_eq_nil_iff,
    host_eq_nil_iff, addresses_eq_nil_iff] at clean
  obtain ⟨⟨⟨⟨⟨⟨-, general⟩, domains⟩, -⟩, handlers⟩, lists⟩, routes⟩ := clean
  obtain ⟨⟨⟨⟨-, body⟩, header⟩, write⟩, idle⟩ := general
  exact
    { hosts := fun d hd => (domains d hd).1.1.1
      addresses := lists
      generalTimes := by simp [General.times, body, header, write, idle]
      handlerTimes := fun h hh => by
        obtain ⟨⟨⟨⟨⟨⟨-, duration⟩, interval⟩, checks⟩, timeout⟩, fail⟩, latency⟩ :=
          (handlers h hh).1.2
        simp [Handler.times, duration, interval, checks, timeout, fail, latency]
      rawRouteTimes := fun r hr => by simp [RawRoute.times, (routes r hr).2] }

end Document

end ProxyConfig
