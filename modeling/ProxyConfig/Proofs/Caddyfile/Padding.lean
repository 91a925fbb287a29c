import Mathlib.Data.List.Forall2
import Mathlib.Data.List.TakeWhile
import ProxyConfig.Proofs.Caddyfile.HandlerPlacement
import ProxyConfig.Proofs.Document.Thinned

/-!
Blanks around the texts of a document.  Ids and references, user names and passwords, and the values of
headers are rendered as they are typed; every other rendered text may be padded, and padding may be taken
away.  Main statement: documents that differ only in padding compile to the same.
-/

namespace ProxyConfig

namespace Text

def Padded (s t : String) : Prop :=
  ∃ before after, (∀ c ∈ before, isBlank c = true) ∧ (∀ c ∈ after, isBlank c = true) ∧
    t.toList = before ++ s.toList ++ after

/-- Each text comes of the other by adding blanks at its ends and taking blanks away there. -/
def Repadded (s t : String) : Prop := ∃ core, Padded core s ∧ Padded core t

theorem trimLeft_append_of_blank {before : List Char} (blank : ∀ c ∈ before, isBlank c = true)
    (s : List Char) : trimLeft (before ++ s) = trimLeft s :=
  List.dropWhile_append_of_pos blank

theorem trimmed_append_of_blank (s : List Char) {after : List Char}
    (blank : ∀ c ∈ after, isBlank c = true) : trimmed (s ++ after) = trimmed s := by
  have nothing : after.dropWhile isBlank = [] := List.dropWhile_eq_nil_iff.2 blank
  unfold trimmed trimLeft
  rw [List.dropWhile_append]
  split
  · next empty => rw [nothing, List.isEmpty_iff.1 empty]
  · rw [List.reverse_append]
    exact congrArg List.reverse
      (trimLeft_append_of_blank (fun c there => blank c (List.mem_reverse.1 there)) _)

theorem Padded.trim_eq {s t : String} (padded : Padded s t) : trim t = trim s := by
  obtain ⟨before, after, front, back, text⟩ := padded
  rw [trim, text, trimmed_append_of_blank _ back, trimmed, trimLeft_append_of_blank front]
  rfl

theorem exists_blanks_trimLeft (s : List Char) :
    ∃ blanks, (∀ c ∈ blanks, isBlank c = true) ∧ s = blanks ++ trimLeft s :=
  ⟨s.takeWhile isBlank, fun _ there => List.mem_takeWhile_imp there,
    List.takeWhile_append_dropWhile.symm⟩

theorem padded_trim (s : String) : Padded (trim s) s := by
  obtain ⟨before, front, text⟩ := exists_blanks_trimLeft s.toList
  obtain ⟨after, back, reversed⟩ := exists_blanks_trimLeft (trimLeft s.toList).reverse
  refine ⟨before, after.reverse, front, fun c there => back c (List.mem_reverse.1 there), ?_⟩
  calc s.toList = before ++ (trimLeft s.toList).reverse.reverse := by rwa [List.reverse_reverse]
    _ = before ++ (trimmed s.toList ++ after.reverse) := by
      rw [reversed, List.reverse_append]
      rfl
    _ = before ++ (trim s).toList ++ after.reverse := by rw [toList_trim, List.append_assoc]

theorem repadded_iff {s t : String} : Repadded s t ↔ trim t = trim s := by
  constructor
  · rintro ⟨core, first, second⟩
    rw [first.trim_eq, second.trim_eq]
  · intro same
    exact ⟨trim s, padded_trim s, same ▸ padded_trim t⟩

instance : DecidableRel Repadded := fun _ _ => decidable_of_iff _ repadded_iff.symm

end Text

namespace NumberText

abbrev Repadded (t u : NumberText) : Prop := Text.Repadded t.raw u.raw

theorem Repadded.bits?_eq {t u : NumberText} (padded : t.Repadded u) (width : Nat) :
    u.bits? width = t.bits? width := by
  rw [bits?, bits?, ← Text.toList_trim, ← Text.toList_trim, Text.repadded_iff.1 padded]

theorem Repadded.port?_eq {t u : NumberText} (padded : t.Repadded u) : u.port? = t.port? := by
  rw [port?, port?, padded.bits?_eq]

theorem Repadded.positive?_eq {t u : NumberText} (padded : t.Repadded u) :
    u.positive? = t.positive? := by
  rw [positive?, positive?, padded.bits?_eq]

end NumberText

theorem thinned_of_forall₂ {R : α → α → Prop} {xs ys : List α} (related : List.Forall₂ R xs ys) :
    Thinned (fun _ => False) R xs ys := by
  induction related with
  | nil => exact .nil
  | cons first _ ih => exact .keep first ih

theorem isEmpty_eq_of_forall₂ {R : α → α → Prop} {xs ys : List α} (related : List.Forall₂ R xs ys) :
    ys.isEmpty = xs.isEmpty := by
  cases related <;> rfl

open Text

structure General.Repads (g f : General) : Prop where
  httpPort : g.httpPort.Repadded f.httpPort
  httpsPort : g.httpsPort.Repadded f.httpsPort
  logLevel : Repadded g.logLevel f.logLevel
  autoHttps : Repadded g.autoHttps f.autoHttps
  email : Repadded g.email f.email
  httpVersions : Repadded g.httpVersions f.httpVersions
  readBodyTimeout : Repadded g.readBodyTimeout f.readBodyTimeout
  readHeaderTimeout : Repadded g.readHeaderTimeout f.readHeaderTimeout
  writeTimeout : Repadded g.writeTimeout f.writeTimeout
  idleTimeout : Repadded g.idleTimeout f.idleTimeout
  others : f = { g with
    httpPort := f.httpPort, httpsPort := f.httpsPort, logLevel := f.logLevel
    autoHttps := f.autoHttps, email := f.email, httpVersions := f.httpVersions
    readBodyTimeout := f.readBodyTimeout, readHeaderTimeout := f.readHeaderTimeout
    writeTimeout := f.writeTimeout, idleTimeout := f.idleTimeout }

structure Domain.Repads (d e : Domain) : Prop where
  host : Repadded d.host e.host
  port : d.port.Repadded e.port
  customCert : Repadded d.customCert e.customCert
  clientAuthMode : Repadded d.clientAuthMode e.clientAuthMode
  clientAuthPool : Repadded d.clientAuthPool e.clientAuthPool
  others : e = { d with
    host := e.host, port := e.port, customCert := e.customCert, clientAuthMode := e.clientAuthMode
    clientAuthPool := e.clientAuthPool }

structure Subdomain.Repads (s t : Subdomain) : Prop where
  fragment : Repadded s.fragment t.fragment
  others : t = { s with fragment := t.fragment }

structure AccessList.Repads (l m : AccessList) : Prop where
  clientIps : List.Forall₂ Repadded l.clientIps m.clientIps
  responseCode : l.responseCode.Repadded m.responseCode
  responseMessage : Repadded l.responseMessage m.responseMessage
  others : m = { l with
    clientIps := m.clientIps, responseCode := m.responseCode, responseMessage := m.responseMessage }

structure HeaderRule.Repads (r s : HeaderRule) : Prop where
  fieldName : Repadded r.fieldName s.fieldName
  others : s = { r with fieldName := s.fieldName }

structure LoadBalancing.Repads (b c : LoadBalancing) : Prop where
  policy : Repadded b.policy c.policy
  retries : b.retries.Repadded c.retries
  tryDuration : Repadded b.tryDuration c.tryDuration
  tryInterval : Repadded b.tryInterval c.tryInterval
  others : c = { b with
    policy := c.policy, retries := c.retries, tryDuration := c.tryDuration
    tryInterval := c.tryInterval }

structure HealthCheck.Repads (c e : HealthCheck) : Prop where
  uri : Repadded c.uri e.uri
  port : c.port.Repadded e.port
  interval : Repadded c.interval e.interval
  timeout : Repadded c.timeout e.timeout
  passes : c.passes.Repadded e.passes
  fails : c.fails.Repadded e.fails
  others : e = { c with
    uri := e.uri, port := e.port, interval := e.interval, timeout := e.timeout, passes := e.passes
    fails := e.fails }

structure PassiveHealth.Repads (p q : PassiveHealth) : Prop where
  failDuration : Repadded p.failDuration q.failDuration
  maxFails : p.maxFails.Repadded q.maxFails
  unhealthyStatus : Repadded p.unhealthyStatus q.unhealthyStatus
  unhealthyLatency : Repadded p.unhealthyLatency q.unhealthyLatency
  unhealthyRequestCount : p.unhealthyRequestCount.Repadded q.unhealthyRequestCount
  others : q = { p with
    failDuration := q.failDuration, maxFails := q.maxFails, unhealthyStatus := q.unhealthyStatus
    unhealthyLatency := q.unhealthyLatency, unhealthyRequestCount := q.unhealthyRequestCount }

structure Handler.Repads (h k : Handler) : Prop where
  path : Repadded h.path k.path
  upstreams : List.Forall₂ Repadded h.upstreams k.upstreams
  upstreamPort : h.upstreamPort.Repadded k.upstreamPort
  tlsServerName : Repadded h.tlsServerName k.tlsServerName
  tlsTrustedCas : Repadded h.tlsTrustedCas k.tlsTrustedCas
  httpVersions : Repadded h.httpVersions k.httpVersions
  keepalive : Repadded h.keepalive k.keepalive
  redirectStatus : h.redirectStatus.Repadded k.redirectStatus
  balancing : h.balancing.Repads k.balancing
  health : h.health.Repads k.health
  passiveHealth : h.passiveHealth.Repads k.passiveHealth
  others : k = { h with
    path := k.path, upstreams := k.upstreams, upstreamPort := k.upstreamPort
    tlsServerName := k.tlsServerName, tlsTrustedCas := k.tlsTrustedCas
    httpVersions := k.httpVersions, keepalive := k.keepalive, redirectStatus := k.redirectStatus
    balancing := k.balancing, health := k.health, passiveHealth := k.passiveHealth }

structure RawRoute.Repads (r s : RawRoute) : Prop where
  matchDomains : List.Forall₂ Repadded r.matchDomains s.matchDomains
  fromPort : r.fromPort.Repadded s.fromPort
  matcher : Repadded r.matcher s.matcher
  upstreams : List.Forall₂ Repadded r.upstreams s.upstreams
  upstreamPort : r.upstreamPort.Repadded s.upstreamPort
  proxyProtocol : Repadded r.proxyProtocol s.proxyProtocol
  policy : Repadded r.policy s.policy
  failDuration : Repadded r.failDuration s.failDuration
  maxFails : r.maxFails.Repadded s.maxFails
  others : s = { r with
    matchDomains := s.matchDomains, fromPort := s.fromPort, matcher := s.matcher
    upstreams := s.upstreams, upstreamPort := s.upstreamPort, proxyProtocol := s.proxyProtocol
    policy := s.policy, failDuration := s.failDuration, maxFails := s.maxFails }

/-- Padding is added to some texts of the document and taken away from some. -/
structure Document.Repads (doc doc' : Document) : Prop where
  general : doc.general.Repads doc'.general
  domains : List.Forall₂ Domain.Repads doc.domains doc'.domains
  subdomains : List.Forall₂ Subdomain.Repads doc.subdomains doc'.subdomains
  handlers : List.Forall₂ Handler.Repads doc.handlers doc'.handlers
  accessLists : List.Forall₂ AccessList.Repads doc.accessLists doc'.accessLists
  credentials : doc'.credentials = doc.credentials
  headers : List.Forall₂ HeaderRule.Repads doc.headers doc'.headers
  rawRoutes : List.Forall₂ RawRoute.Repads doc.rawRoutes doc'.rawRoutes

namespace Domain

variable {d e : Domain} (padded : d.Repads e)
include padded

theorem Repads.splitScheme_eq :
    splitScheme (trimmed e.host.toList) = splitScheme (trimmed d.host.toList) := by
  rw [← toList_trim, ← toList_trim, repadded_iff.1 padded.host]

theorem Repads.scheme_eq : e.scheme = d.scheme := by
  rw [scheme, padded.splitScheme_eq, padded.others]
  rfl

theorem Repads.bareHost_eq : e.bareHost = d.bareHost := by
  rw [bareHost, padded.splitScheme_eq, bareHost]

theorem Repads.effectivePort_eq : e.effectivePort = d.effectivePort := by
  rw [effectivePort, padded.port.port?_eq, padded.others]
  rfl

theorem Repads.address_eq : e.address = d.address := by
  rw [address, padded.scheme_eq, padded.bareHost_eq, padded.effectivePort_eq, address]

theorem Repads.addressOf_eq {s t : Subdomain} (paddedToo : s.Repads t) :
    e.addressOf t = d.addressOf s := by
  rw [addressOf, padded.scheme_eq, padded.bareHost_eq, padded.effectivePort_eq,
    repadded_iff.1 paddedToo.fragment, addressOf]

theorem Repads.tlsMode_eq (certsDir : String) : e.tlsMode certsDir = d.tlsMode certsDir := by
  rw [tlsMode, repadded_iff.1 padded.customCert, padded.others]
  rfl

end Domain

namespace Caddyfile

theorem present?_repad {s t : String} (padded : Repadded s t) : present? t = present? s := by
  rw [present?, repadded_iff.1 padded, present?]

theorem duration?_repad {s t : String} (padded : Repadded s t) : duration? t = duration? s := by
  rw [duration?, present?_repad padded, duration?]

theorem optionalWords_repad (name : String) {s t : String} (padded : Repadded s t) :
    optionalWords name t = optionalWords name s := by
  rw [optionalWords, present?_repad padded, optionalWords]

theorem filterMap_present?_repad {xs ys : List String} (padded : List.Forall₂ Repadded xs ys) :
    ys.filterMap present? = xs.filterMap present? := by
  induction padded with
  | nil => rfl
  | cons first _ ih => rw [List.filterMap_cons, List.filterMap_cons, present?_repad first, ih]

theorem upstreamList_repad {xs ys : List String} {t u : NumberText}
    (hosts : List.Forall₂ Repadded xs ys) (port : t.Repadded u) :
    upstreamList ys u = upstreamList xs t := by
  simp only [upstreamList, upstreamAddress, filterMap_present?_repad hosts, port.port?_eq]

theorem accessRule_repad (names : String) {l m : AccessList} (padded : l.Repads m) :
    accessRule names m = accessRule names l := by
  have answer : rejection m = rejection l := by
    simp only [rejection, padded.responseCode.bits?_eq, present?_repad padded.responseMessage]
  have listed : addresses m = addresses l := filterMap_present?_repad padded.clientIps
  rw [accessRule, answer, listed, padded.others]
  rfl

theorem headerChange_repad (name : String) {r s : HeaderRule} (padded : r.Repads s) :
    headerChange name s = headerChange name r := by
  rw [headerChange, repadded_iff.1 padded.fieldName, padded.others]
  rfl

section References

variable {doc doc' : Document} (padded : doc.Repads doc')
include padded

theorem accessControl_repad (names : String) (ids : List String) :
    accessControl doc' names ids = accessControl doc names ids := by
  have found (id : String) : (doc'.accessList? id).map (accessRule names) =
      (doc.accessList? id).map (accessRule names) := by
    rw [Document.accessList?_eq, Document.accessList?_eq]
    refine (thinned_of_forall₂ padded.accessLists).map_lastWith_eq (fun _ _ => False.elim) ?_
    exact fun l _ m repads => ⟨by rw [repads.others], accessRule_repad names repads⟩
  rw [accessControl, accessControl, List.flatMap_def, List.flatMap_def, List.map_filterMap,
    List.map_filterMap, funext found]

theorem basicAuth_repad (ids : List String) : basicAuth doc' ids = basicAuth doc ids := by
  have same (id : String) : doc'.credential? id = doc.credential? id := by
    rw [Document.credential?_eq, padded.credentials, Document.credential?_eq]
  rw [basicAuth, funext same, basicAuth]

theorem map_headers_repad (name : HeaderRule → String)
    (kept : ∀ r s : HeaderRule, r.Repads s → name s = name r) (ids : List String) :
    (ids.filterMap doc'.header?).map (fun rule => headerChange (name rule) rule) =
      (ids.filterMap doc.header?).map fun rule => headerChange (name rule) rule := by
  have found (id : String) :
      (doc'.header? id).map (fun rule => headerChange (name rule) rule) =
        (doc.header? id).map fun rule => headerChange (name rule) rule := by
    rw [Document.header?_eq, Document.header?_eq]
    refine (thinned_of_forall₂ padded.headers).map_lastWith_eq (fun _ _ => False.elim) ?_
    intro r _ s repads
    exact ⟨by rw [repads.others], by rw [kept r s repads, headerChange_repad _ repads]⟩
  rw [List.map_filterMap, List.map_filterMap, funext found]

end References

theorem balancing_repad {b c : LoadBalancing} (padded : b.Repads c) : balancing c = balancing b := by
  simp only [balancing, optionalWords_repad _ padded.policy, padded.retries.positive?_eq,
    duration?_repad padded.tryDuration, duration?_repad padded.tryInterval]

theorem healthChecks_repad {c e : HealthCheck} (padded : c.Repads e) :
    healthChecks e = healthChecks c := by
  simp only [healthChecks, present?_repad padded.uri, padded.port.port?_eq,
    duration?_repad padded.interval, duration?_repad padded.timeout]

theorem passiveHealth_repad {p q : PassiveHealth} (padded : p.Repads q) :
    passiveHealth q = passiveHealth p := by
  simp only [passiveHealth, duration?_repad padded.failDuration, padded.maxFails.positive?_eq,
    optionalWords_repad _ padded.unhealthyStatus, duration?_repad padded.unhealthyLatency,
    padded.unhealthyRequestCount.positive?_eq]

theorem transport_repad (certsDir : String) {h k : Handler} (padded : h.Repads k) :
    transport certsDir k = transport certsDir h := by
  rw [transport, present?_repad padded.tlsServerName, present?_repad padded.tlsTrustedCas,
    optionalWords_repad _ padded.httpVersions, present?_repad padded.keepalive, padded.others]
  rfl

theorem redirect_repad {h k : Handler} (padded : h.Repads k) : redirect k = redirect h := by
  have target : k.upstreams.findSome? present? = h.upstreams.findSome? present? := by
    rw [← List.head?_filterMap, filterMap_present?_repad padded.upstreams, List.head?_filterMap]
  rw [redirect, target, padded.redirectStatus.bits?_eq, redirect]

theorem tlsClause_repad (certsDir : String) (doc doc' : Document) {d e : Domain} (repads : d.Repads e) :
    tlsClause certsDir (siteOf certsDir doc' e) = tlsClause certsDir (siteOf certsDir doc d) := by
  have asked : clientAuth certsDir e = clientAuth certsDir d := by
    rw [clientAuth, present?_repad repads.clientAuthMode, present?_repad repads.clientAuthPool,
      clientAuth]
  have ended := repads.tlsMode_eq certsDir
  simp only [tlsClause, siteOf, Site.of, asked, ended]

section Handlers

variable {certsDir : String} {doc doc' : Document} (padded : doc.Repads doc')
include padded

theorem actionClauses_repad {h k : Handler} (repads : h.Repads k) :
    actionClauses certsDir k (k.headers.filterMap doc'.header?) =
      actionClauses certsDir h (h.headers.filterMap doc.header?) := by
  have bound : k.headers = h.headers := by rw [repads.others]
  have action : k.action = h.action := by rw [repads.others]
  have proxied := map_headers_repad padded (·.direction.toText)
    (fun _ _ repads => by rw [repads.others]) h.headers
  have plain := map_headers_repad padded (fun _ => "header") (fun _ _ _ => rfl) h.headers
  rw [actionClauses, actionClauses, bound, action]
  cases h.action with
  | proxy =>
    simp only [reverseProxy, proxied, upstreamList_repad repads.upstreams repads.upstreamPort,
      transport_repad certsDir repads, balancing_repad repads.balancing,
      healthChecks_repad repads.health, passiveHealth_repad repads.passiveHealth]
  | redirect => simp only [plain, redirect_repad repads]
  | other name => simp only [plain]

theorem handlerBlock_repad {h k : Handler} (repads : h.Repads k) :
    handlerBlock certsDir doc' k = handlerBlock certsDir doc h := by
  rw [handlerBlock, actionClauses_repad padded repads, accessControl_repad padded,
    basicAuth_repad padded, present?_repad repads.path, repads.others]
  rfl

theorem addresses_repad {d e : Domain} (repads : d.Repads e) :
    (siteOf certsDir doc' e).addresses = (siteOf certsDir doc d).addresses := by
  have id : e.id = d.id := by rw [repads.others]
  have behind : (doc'.subdomainsOf d.id).map e.addressOf =
      (doc.subdomainsOf d.id).map d.addressOf := by
    rw [Document.subdomainsOf_eq, Document.subdomainsOf_eq]
    refine (thinned_of_forall₂ padded.subdomains).map_filter_eq (fun _ _ => False.elim) ?_
    exact fun s _ t repadsToo =>
      ⟨by rw [repadsToo.others], fun _ => repads.addressOf_eq repadsToo⟩
  simp only [siteOf, Site.of, id, repads.address_eq, behind]

theorem attaches_repad {d e : Domain} (repads : d.Repads e) {h k : Handler}
    (repadsToo : h.Repads k) :
    attaches k (siteOf certsDir doc' e) = attaches h (siteOf certsDir doc d) := by
  have served := (thinned_of_forall₂ padded.subdomains).exists_iff
    (P := fun s => s.enabled = true ∧ s.id = h.subdomainId ∧ s.domainId = d.id)
    (Q := fun s => s.enabled = true ∧ s.id = h.subdomainId ∧ s.domainId = d.id)
    (fun _ _ => False.elim) fun s _ t repads => by rw [repads.others]
  rw [Bool.eq_iff_iff, attaches_siteOf_iff, attaches_siteOf_iff, repads.others, repadsToo.others]
  simp only [Handler.PlacedIn, served]

theorem siteBlock_repad {d e : Domain} (repads : d.Repads e) :
    siteBlock certsDir doc' (siteOf certsDir doc' e) =
      siteBlock certsDir doc (siteOf certsDir doc d) := by
  have handlers : (doc'.handlers.filter (attaches · (siteOf certsDir doc' e))).map
        (handlerBlock certsDir doc') =
      (doc.handlers.filter (attaches · (siteOf certsDir doc d))).map (handlerBlock certsDir doc) := by
    refine (thinned_of_forall₂ padded.handlers).map_filter_eq (fun _ _ => False.elim) ?_
    exact fun h _ k repadsToo =>
      ⟨attaches_repad padded repads repadsToo, fun _ => handlerBlock_repad padded repadsToo⟩
  have key : (siteOf certsDir doc' e).key = (siteOf certsDir doc d).key :=
    congrArg (Text.join ", ") (addresses_repad padded repads)
  have domain (doc : Document) (d : Domain) : (siteOf certsDir doc d).domain = d := rfl
  rw [siteBlock, handlers, key, tlsClause_repad certsDir doc doc' repads, accessControl_repad padded,
    basicAuth_repad padded, domain, repads.others]
  rfl

end Handlers

theorem serversBlock_repad {g f : General} (padded : g.Repads f) : serversBlock f = serversBlock g := by
  rw [serversBlock, duration?_repad padded.readBodyTimeout, duration?_repad padded.readHeaderTimeout,
    duration?_repad padded.writeTimeout, duration?_repad padded.idleTimeout,
    optionalWords_repad _ padded.httpVersions, padded.others]
  rfl

theorem rawRouteBlock_repad {r s : RawRoute} (padded : r.Repads s) :
    rawRouteBlock s = rawRouteBlock r := by
  have matched : rawMatch s = rawMatch r := by
    rw [rawMatch, present?_repad padded.matcher, filterMap_present?_repad padded.matchDomains, rawMatch]
  have proxied : rawProxy s = rawProxy r := by
    rw [rawProxy, upstreamList_repad padded.upstreams padded.upstreamPort,
      repadded_iff.1 padded.proxyProtocol, optionalWords_repad _ padded.policy,
      duration?_repad padded.failDuration, padded.maxFails.positive?_eq, rawProxy]
  have secured : rawTls s = rawTls r := by
    rw [rawTls, padded.others]
    rfl
  rw [rawRouteBlock, matched, proxied, secured, padded.fromPort.port?_eq, rawRouteBlock]

theorem rawRoutesBlock_repad {doc doc' : Document} (padded : doc.Repads doc') :
    rawRoutesBlock doc'.general doc'.rawRoutes = rawRoutesBlock doc.general doc.rawRoutes := by
  have related := thinned_of_forall₂ padded.rawRoutes
  have rendered : (doc'.rawRoutes.filter (·.enabled)).map rawRouteBlock =
      (doc.rawRoutes.filter (·.enabled)).map rawRouteBlock := by
    refine related.map_filter_eq (fun _ _ => False.elim) ?_
    exact fun r _ s repads => ⟨by rw [repads.others], fun _ => rawRouteBlock_repad repads⟩
  rw [rawRoutesBlock, rendered, isEmpty_eq_of_forall₂ padded.rawRoutes, padded.general.others]
  rfl

theorem globalOptions_repad {doc doc' : Document} (padded : doc.Repads doc') :
    globalOptions doc'.general doc'.rawRoutes = globalOptions doc.general doc.rawRoutes := by
  have general := padded.general
  rw [globalOptions, rawRoutesBlock_repad padded, serversBlock_repad general,
    general.httpPort.port?_eq, general.httpsPort.port?_eq, present?_repad general.logLevel,
    present?_repad general.autoHttps, present?_repad general.email, globalOptions]

/-- Documents that differ only in the padding of their texts compile to the same. -/
theorem compile_eq_of_repads (certsDir : String) {doc doc' : Document} (padded : doc.Repads doc') :
    compile certsDir doc' = compile certsDir doc := by
  have switch : doc'.general.enabled = doc.general.enabled := by rw [padded.general.others]
  refine compile_eq_of_blocks_eq (congrArg₂ List.cons (globalOptions_repad padded) ?_)
  cases on : doc.general.enabled with
  | false => simp [renderedSites, switch, on]
  | true =>
    have sites : (blocks certsDir doc').tail = (blocks certsDir doc).tail := by
      rw [tail_blocks on, tail_blocks (switch.trans on)]
      refine (thinned_of_forall₂ padded.domains).map_filter_eq (fun _ _ => False.elim) ?_
      exact fun d _ e repads => ⟨by rw [repads.others], fun _ => siteBlock_repad padded repads⟩
    exact sites

def tidy : Document where
  general := { enabled := true, rawEnabled := true, httpPort := ⟨"8080"⟩, email := "a@b.example" }
  domains := [{ Domain.serving "d" "https://d.example" with
    port := ⟨"8443"⟩, customCert := "d.pem", accessLists := ["l"] }]
  subdomains := [.serving "s" "d" "api"]
  handlers := [{ Handler.proxying "h" "d" ["10.0.0.1", "10.0.0.2"] ⟨"80"⟩ with
    subdomainId := "s", path := "/v1", headers := ["r"], keepalive := "30s"
    balancing := { policy := "cookie lb", retries := ⟨"2"⟩, tryDuration := "5" } }]
  accessLists := [{ id := "l", clientIps := ["10.0.0.0/8"], responseCode := ⟨"403"⟩ }]
  headers := [{ id := "r", fieldName := "X-Via", value := "proxy" }]
  rawRoutes := [{ RawRoute.forwarding "m" ⟨"25"⟩ ["mail"] ⟨"25"⟩ with matcher := "any" }]

def untidy : Document where
  general := { enabled := true, rawEnabled := true, httpPort := ⟨" 8080"⟩, email := "a@b.example\n" }
  domains := [{ Domain.serving "d" "\thttps://d.example " with
    port := ⟨"8443 "⟩, customCert := " d.pem", accessLists := ["l"] }]
  subdomains := [.serving "s" "d" "\u2003api"]
  handlers := [{ Handler.proxying "h" "d" [" 10.0.0.1", "10.0.0.2\u00a0"] ⟨"80\t"⟩ with
    subdomainId := "s", path := "/v1 ", headers := ["r"], keepalive := " 30s"
    balancing := { policy := " cookie lb ", retries := ⟨" 2"⟩, tryDuration := "5 " } }]
  accessLists := [{ id := "l", clientIps := [" 10.0.0.0/8"], responseCode := ⟨"403 "⟩ }]
  headers := [{ id := "r", fieldName := " X-Via", value := "proxy" }]
  rawRoutes := [{ RawRoute.forwarding "m" ⟨"25 "⟩ [" mail"] ⟨"25"⟩ with matcher := "any\u3000" }]

theorem repads_tidy_untidy : tidy.Repads untidy where
  general := by constructor <;> decide
  domains := .cons (by constructor <;> decide) .nil
  subdomains := .cons (by constructor <;> decide) .nil
  handlers := by
    refine .cons ?_ .nil
    constructor
    case balancing | health | passiveHealth => constructor <;> decide
    all_goals decide
  accessLists := .cons (by constructor <;> decide) .nil
  credentials := rfl
  headers := .cons (by constructor <;> decide) .nil
  rawRoutes := .cons (by constructor <;> decide) .nil

theorem compile_eq_of_repads_untidy :
    untidy ≠ tidy ∧ compile "./certs" untidy = compile "./certs" tidy :=
  ⟨by decide +kernel, compile_eq_of_repads "./certs" repads_tidy_untidy⟩

end Caddyfile

end ProxyConfig
