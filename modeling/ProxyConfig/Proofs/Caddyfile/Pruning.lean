import Mathlib.Logic.Relation
import ProxyConfig.Proofs.Caddyfile.HandlerPlacement
import ProxyConfig.Proofs.Document.Thinned

/-!
What a document's text does not depend on.  Pruning leaves out entities that are switched off, lead
nowhere or are used by nothing that is rendered, references without an effect, and blank upstreams;
and it may change what is only kept with the document.  Each pruning is judged in the document at
hand, so that one may make room for the next.  Main statement: a document compiles to what any
pruning of it compiles to.
-/

namespace ProxyConfig

namespace Handler

/-- The handler stands in the block of some site. -/
def IsRendered (doc : Document) (h : Handler) : Prop :=
  doc.general.enabled = true ∧ ∃ d ∈ doc.enabledDomains, h.PlacedIn doc d

instance (doc : Document) : DecidablePred (IsRendered doc) := fun _ =>
  inferInstanceAs (Decidable (_ ∧ _))

end Handler

namespace Document

/-- An enabled domain has the id among `ofDomain`, or a rendered handler has it among `ofHandler`. -/
def Uses (doc : Document) (ofDomain : Domain → List String) (ofHandler : Handler → List String)
    (id : String) : Prop :=
  (∃ d ∈ doc.enabledDomains, id ∈ ofDomain d) ∨
    ∃ h ∈ doc.handlers, h.IsRendered doc ∧ id ∈ ofHandler h

instance (doc : Document) (ofDomain : Domain → List String) (ofHandler : Handler → List String) :
    DecidablePred (doc.Uses ofDomain ofHandler) := fun _ =>
  inferInstanceAs (Decidable (_ ∨ _))

abbrev UsesAccessList (doc : Document) (id : String) : Prop :=
  doc.Uses Domain.accessLists Handler.accessLists id

abbrev UsesCredential (doc : Document) (id : String) : Prop :=
  doc.Uses Domain.credentials Handler.credentials id

abbrev UsesHeader (doc : Document) (id : String) : Prop := doc.Uses (fun _ => []) Handler.headers id

/-- The id leads to no access list, or to one without an address. -/
def IdleAccessList (doc : Document) (id : String) : Prop :=
  ∀ list ∈ doc.accessList? id, Caddyfile.addresses list = []

instance (doc : Document) : DecidablePred doc.IdleAccessList := fun id =>
  inferInstanceAs (Decidable (∀ list ∈ doc.accessList? id, Caddyfile.addresses list = []))

end Document

/-- The list with some of the elements of `out` left out. -/
abbrev Without (out : α → Prop) : List α → List α → Prop := Thinned out fun a b => b = a

def BlankText (s : String) : Prop := Caddyfile.present? s = none

namespace Domain

def Prunes (doc : Document) (d e : Domain) : Prop :=
  ∃ accessLists credentials description,
    e = { d with accessLists, credentials, description } ∧
      Without doc.IdleAccessList d.accessLists accessLists ∧
      Without (doc.credential? · = none) d.credentials credentials

end Domain

namespace Subdomain

def Prunes (s t : Subdomain) : Prop :=
  ∃ accessLists credentials description, t = { s with accessLists, credentials, description }

end Subdomain

namespace HealthCheck

def Prunes (c e : HealthCheck) : Prop :=
  ∃ passes fails expectedStatus expectedBody followRedirects,
    e = { c with passes, fails, expectedStatus, expectedBody, followRedirects }

end HealthCheck

namespace Handler

def Prunes (doc : Document) (h k : Handler) : Prop :=
  ∃ id accessLists credentials headers upstreams health description,
    k = { h with id, accessLists, credentials, headers, upstreams, health, description } ∧
      Without doc.IdleAccessList h.accessLists accessLists ∧
      Without (doc.credential? · = none) h.credentials credentials ∧
      Without (doc.header? · = none) h.headers headers ∧
      Without BlankText h.upstreams upstreams ∧ h.health.Prunes health

end Handler

namespace AccessList

def Prunes (l m : AccessList) : Prop := ∃ name description, m = { l with name, description }

end AccessList

namespace Credential

def Prunes (c e : Credential) : Prop := ∃ description, e = { c with description }

end Credential

namespace HeaderRule

def Prunes (r s : HeaderRule) : Prop := ∃ replace description, s = { r with replace, description }

end HeaderRule

namespace RawRoute

def Prunes (r s : RawRoute) : Prop :=
  ∃ id sequence kind protocol upstreams description,
    s = { r with id, sequence, kind, protocol, upstreams, description } ∧
      Without BlankText r.upstreams upstreams

end RawRoute

namespace Document

/-- One pruning, in as many places as one likes.  A raw route may go only while an enabled one
stays, since without any route the whole block of raw routes would go. -/
structure Prunes (doc doc' : Document) : Prop where
  general : doc'.general = doc.general
  domains : Thinned (·.enabled = false) (Domain.Prunes doc) doc.domains doc'.domains
  subdomains : Thinned
    (fun s => s.enabled = false ∨ ∀ d ∈ doc.enabledDomains, s.domainId ≠ d.id)
    Subdomain.Prunes doc.subdomains doc'.subdomains
  handlers : Thinned (fun h => ¬ h.IsRendered doc) (Handler.Prunes doc) doc.handlers doc'.handlers
  accessLists : Thinned (fun l => ¬ doc.UsesAccessList l.id) AccessList.Prunes
    doc.accessLists doc'.accessLists
  credentials : Thinned (fun c => ¬ doc.UsesCredential c.id) Credential.Prunes
    doc.credentials doc'.credentials
  headers : Thinned (fun r => ¬ doc.UsesHeader r.id) HeaderRule.Prunes doc.headers doc'.headers
  rawRoutes : Thinned (fun r => r.enabled = false ∧ ∃ q ∈ doc.rawRoutes, q.enabled = true)
    RawRoute.Prunes doc.rawRoutes doc'.rawRoutes

end Document

namespace Caddyfile

theorem filterMap_present?_of_without {hosts hosts' : List String}
    (h : Without BlankText hosts hosts') :
    hosts'.filterMap present? = hosts.filterMap present? :=
  h.filterMap_eq (fun _ _ hblank => hblank) fun _ _ _ same => by rw [same]

theorem upstreamList_of_without {hosts hosts' : List String} (h : Without BlankText hosts hosts')
    (port : NumberText) : upstreamList hosts' port = upstreamList hosts port := by
  rw [upstreamList, upstreamList, filterMap_present?_of_without h]

section References

variable {doc doc' : Document} (pruned : doc.Prunes doc') {ids ids' : List String}
include pruned

theorem map_accessList?_eq (names : String) {id : String} (used : doc.UsesAccessList id) :
    (doc'.accessList? id).map (accessRule names) = (doc.accessList? id).map (accessRule names) := by
  rw [Document.accessList?_eq, Document.accessList?_eq]
  refine pruned.accessLists.map_lastWith_eq ?_ ?_
  · rintro l - unused rfl
    exact unused used
  · rintro l - m ⟨name, description, rfl⟩
    exact ⟨rfl, rfl⟩

theorem map_credential?_eq {id : String} (used : doc.UsesCredential id) :
    (doc'.credential? id).map credentialBlock = (doc.credential? id).map credentialBlock := by
  rw [Document.credential?_eq, Document.credential?_eq]
  refine pruned.credentials.map_lastWith_eq ?_ ?_
  · rintro c - unused rfl
    exact unused used
  · rintro c - e ⟨description, rfl⟩
    exact ⟨rfl, rfl⟩

theorem map_header?_eq (change : HeaderRule → Directive)
    (plain : ∀ r s : HeaderRule, r.Prunes s → change s = change r) {id : String}
    (used : doc.UsesHeader id) :
    (doc'.header? id).map change = (doc.header? id).map change := by
  rw [Document.header?_eq, Document.header?_eq]
  refine pruned.headers.map_lastWith_eq ?_ ?_
  · rintro r - unused rfl
    exact unused used
  · rintro r - s hs
    refine ⟨?_, plain r s hs⟩
    obtain ⟨replace, description, rfl⟩ := hs
    rfl

theorem accessControl_prune (names : String) (used : ∀ id ∈ ids, doc.UsesAccessList id)
    (thin : Without doc.IdleAccessList ids ids') :
    accessControl doc' names ids' = accessControl doc names ids := by
  have rules (doc : Document) (ids : List String) : accessControl doc names ids =
      ids.flatMap fun id => ((doc.accessList? id).map (accessRule names)).getD [] := by
    rw [accessControl, List.filterMap_eq_flatMap_toList, List.flatMap_assoc]
    refine List.flatMap_congr fun id _ => ?_
    cases doc.accessList? id <;> simp
  rw [rules, rules]
  refine thin.flatMap_eq (fun id _ idle => ?_) fun id hid id' same => ?_
  · cases found : doc.accessList? id with
    | none => rfl
    | some list => simp [accessRule, idle list found]
  · rw [same, map_accessList?_eq pruned names (used id hid)]

theorem basicAuth_prune (used : ∀ id ∈ ids, doc.UsesCredential id)
    (thin : Without (doc.credential? · = none) ids ids') :
    basicAuth doc' ids' = basicAuth doc ids := by
  rw [basicAuth, basicAuth, List.map_filterMap, List.map_filterMap]
  refine thin.filterMap_eq (fun id _ missing => by rw [missing]; rfl) fun id hid id' same => ?_
  rw [same, map_credential?_eq pruned (used id hid)]

theorem map_headers_prune (change : HeaderRule → Directive)
    (plain : ∀ r s : HeaderRule, r.Prunes s → change s = change r)
    (used : ∀ id ∈ ids, doc.UsesHeader id) (thin : Without (doc.header? · = none) ids ids') :
    (ids'.filterMap doc'.header?).map change = (ids.filterMap doc.header?).map change := by
  rw [List.map_filterMap, List.map_filterMap]
  refine thin.filterMap_eq (fun id _ missing => by rw [missing]; rfl) fun id hid id' same => ?_
  rw [same, map_header?_eq pruned change plain (used id hid)]

end References

section Handlers

variable {certsDir : String} {doc doc' : Document} (pruned : doc.Prunes doc')
include pruned

theorem handlerBlock_prune {h k : Handler} (hh : h ∈ doc.handlers) (rendered : h.IsRendered doc)
    (thin : h.Prunes doc k) : handlerBlock certsDir doc' k = handlerBlock certsDir doc h := by
  obtain ⟨id, accessLists, credentials, headers, upstreams, health, description, rfl, hlists,
    hcredentials, hheaders, hupstreams, passes, fails, expectedStatus, expectedBody,
    followRedirects, rfl⟩ := thin
  have rules := accessControl_prune pruned handlerMatchers
    (fun id hid => .inr ⟨h, hh, rendered, hid⟩) hlists
  have auth := basicAuth_prune pruned (fun id hid => .inr ⟨h, hh, rendered, hid⟩) hcredentials
  have changes (name : HeaderRule → String)
      (plain : ∀ r s : HeaderRule, r.Prunes s → name s = name r) :
      (headers.filterMap doc'.header?).map (fun r => headerChange (name r) r) =
        (h.headers.filterMap doc.header?).map fun r => headerChange (name r) r := by
    refine map_headers_prune pruned _ (fun r s hs => ?_)
      (fun id hid => .inr ⟨h, hh, rendered, hid⟩) hheaders
    rw [plain r s hs]
    obtain ⟨replace, description, rfl⟩ := hs
    rfl
  have proxied := changes (·.direction.toText) fun r s ⟨_, _, hs⟩ => by rw [hs]
  have plain := changes (fun _ => "header") fun _ _ _ => rfl
  have target : upstreams.findSome? present? = h.upstreams.findSome? present? := by
    rw [← List.head?_filterMap, ← List.head?_filterMap, filterMap_present?_of_without hupstreams]
  have upstream := upstreamList_of_without hupstreams h.upstreamPort
  simp only [handlerBlock, rules, auth, Directive.mk.injEq, true_and, Option.some.injEq,
    List.append_cancel_left_eq]
  cases action : h.action with
  | proxy =>
    simp only [actionClauses, action, reverseProxy, upstream, proxied]
    rfl
  | redirect => simp only [actionClauses, action, redirect, target, plain]
  | other name => simp only [actionClauses, action, plain]

theorem placedIn_prune {d e : Domain} (hd : d ∈ doc.enabledDomains) (hde : d.Prunes doc e)
    {h k : Handler} (hhk : h.Prunes doc k) : k.PlacedIn doc' e ↔ h.PlacedIn doc d := by
  obtain ⟨_, _, _, rfl, -, -⟩ := hde
  obtain ⟨_, _, _, _, _, _, _, rfl, -⟩ := hhk
  have served := pruned.subdomains.exists_iff
    (P := fun s => s.enabled = true ∧ s.id = h.subdomainId ∧ s.domainId = d.id)
    (Q := fun s => s.enabled = true ∧ s.id = h.subdomainId ∧ s.domainId = d.id)
    (fun s _ out ⟨on, _, domain⟩ => by
      rcases out with off | foreign
      · simp [off] at on
      · exact foreign d hd domain)
    (fun s _ t ⟨_, _, _, ht⟩ => by rw [ht])
  simp only [Handler.PlacedIn, served]

theorem addresses_prune {d e : Domain} (hd : d ∈ doc.enabledDomains) (hde : d.Prunes doc e) :
    (siteOf certsDir doc' e).addresses = (siteOf certsDir doc d).addresses := by
  obtain ⟨_, _, _, rfl, -, -⟩ := hde
  have subs := pruned.subdomains.map_filter_eq
    (p := fun s => s.enabled && s.domainId = d.id) (q := fun s => s.enabled && s.domainId = d.id)
    (f := d.addressOf) (g := d.addressOf)
    (fun s _ out => by
      rcases out with off | foreign
      · simp [off]
      · simp [foreign d hd])
    (fun s _ t ⟨_, _, _, ht⟩ => by subst ht; exact ⟨rfl, fun _ => rfl⟩)
  rw [← Document.subdomainsOf_eq, ← Document.subdomainsOf_eq] at subs
  exact congrArg (d.address :: ·) subs

theorem siteBlock_prune (on : doc.general.enabled = true) {d e : Domain}
    (hd : d ∈ doc.enabledDomains) (hde : d.Prunes doc e) :
    siteBlock certsDir doc' (siteOf certsDir doc' e) =
      siteBlock certsDir doc (siteOf certsDir doc d) := by
  have addresses : (siteOf certsDir doc' e).addresses = (siteOf certsDir doc d).addresses :=
    addresses_prune pruned hd hde
  have key := congrArg (Text.join ", ") addresses
  have placed := fun {h k : Handler} => placedIn_prune (h := h) (k := k) pruned hd hde
  have handlers : (doc'.handlers.filter (attaches · (siteOf certsDir doc' e))).map
        (handlerBlock certsDir doc') =
      (doc.handlers.filter (attaches · (siteOf certsDir doc d))).map
        (handlerBlock certsDir doc) := by
    refine pruned.handlers.map_filter_eq (fun h _ out => ?_) fun h hh k hhk => ⟨?_, fun at_d => ?_⟩
    · rw [Bool.eq_false_iff]
      exact fun at_d => out ⟨on, d, hd, attaches_siteOf_iff.1 at_d⟩
    · rw [Bool.eq_iff_iff, attaches_siteOf_iff, attaches_siteOf_iff]
      exact placed hhk
    · exact handlerBlock_prune pruned hh ⟨on, d, hd, attaches_siteOf_iff.1 at_d⟩ hhk
  obtain ⟨accessLists, credentials, description, rfl, hlists, hcredentials⟩ := hde
  have rules := accessControl_prune pruned siteMatchers
    (fun id hid => .inl ⟨d, hd, hid⟩) hlists
  have auth := basicAuth_prune pruned (fun id hid => .inl ⟨d, hd, hid⟩) hcredentials
  have domain (doc : Document) (d : Domain) : (siteOf certsDir doc d).domain = d := rfl
  have site (doc : Document) (d : Domain) : tlsClause certsDir (siteOf certsDir doc d) =
      tlsClause certsDir (Site.of certsDir [] d) := rfl
  simp only [siteBlock, domain, site, rules, auth, handlers]
  exact congrArg (fun name => (⟨name, [], _⟩ : Directive)) key

end Handlers

theorem rawRouteBlock_prune {r s : RawRoute} (h : r.Prunes s) :
    rawRouteBlock s = rawRouteBlock r := by
  obtain ⟨id, sequence, kind, protocol, upstreams, description, rfl, hupstreams⟩ := h
  have proxy : rawProxy { r with id, sequence, kind, protocol, upstreams, description } =
      rawProxy r := by
    simp only [rawProxy, upstreamList_of_without hupstreams r.upstreamPort]
  simp only [rawRouteBlock, proxy]
  rfl

section Whole

variable {certsDir : String} {doc doc' : Document} (pruned : doc.Prunes doc')
include pruned

theorem rawRoutesBlock_prune (g : General) :
    rawRoutesBlock g doc'.rawRoutes = rawRoutesBlock g doc.rawRoutes := by
  have enabled : (doc'.rawRoutes.filter (·.enabled)).map rawRouteBlock =
      (doc.rawRoutes.filter (·.enabled)).map rawRouteBlock := by
    refine pruned.rawRoutes.map_filter_eq (fun r _ out => out.1) fun r _ s hs => ?_
    refine ⟨?_, fun _ => rawRouteBlock_prune hs⟩
    obtain ⟨_, _, _, _, _, _, rfl, -⟩ := hs
    rfl
  have none : doc'.rawRoutes = [] ↔ doc.rawRoutes = [] := by
    by_cases some : ∃ r ∈ doc.rawRoutes, r.enabled = true
    · have left := (pruned.rawRoutes.exists_iff (P := (·.enabled = true)) (Q := (·.enabled = true))
        (fun r _ out on => by simp [out.1] at on)
        (fun r _ s ⟨_, _, _, _, _, _, hs, _⟩ => by rw [hs])).2 some
      obtain ⟨r, hr, -⟩ := some
      obtain ⟨s, hs, -⟩ := left
      exact iff_of_false (List.ne_nil_of_mem hs) (List.ne_nil_of_mem hr)
    · rw [← List.length_eq_zero_iff, pruned.rawRoutes.length_eq fun r _ out => some out.2,
        List.length_eq_zero_iff]
  have isEmpty : doc'.rawRoutes.isEmpty = doc.rawRoutes.isEmpty := by
    rw [Bool.eq_iff_iff, List.isEmpty_iff, List.isEmpty_iff, none]
  rw [rawRoutesBlock, rawRoutesBlock, enabled, isEmpty]

theorem blocks_prune : blocks certsDir doc' = blocks certsDir doc := by
  have options : globalOptions doc'.general doc'.rawRoutes =
      globalOptions doc.general doc.rawRoutes := by
    rw [pruned.general, globalOptions, rawRoutesBlock_prune pruned, globalOptions]
  have sites : (blocks certsDir doc').tail = (blocks certsDir doc).tail := by
    by_cases on : doc.general.enabled = true
    · have on' : doc'.general.enabled = true := by rw [pruned.general, on]
      rw [tail_blocks on, tail_blocks on']
      refine pruned.domains.map_filter_eq (fun d _ off => off) fun d hd e hde => ⟨?_, fun hon => ?_⟩
      · obtain ⟨_, _, _, rfl, -⟩ := hde
        rfl
      · exact siteBlock_prune pruned on (List.mem_filter.2 ⟨hd, hon⟩) hde
    · simp [blocks, renderedSites, pruned.general, on]
  exact congrArg₂ List.cons options sites

theorem compile_prune : compile certsDir doc' = compile certsDir doc :=
  compile_eq_of_blocks_eq (blocks_prune pruned)

end Whole

end Caddyfile

theorem Without.filter {α : Type} {p : α → Bool} {out : α → Prop}
    (dropped : ∀ a, p a = false → out a) (as : List α) : Without out as (as.filter p) := by
  have thin : Without out as ((as.filter p).map id) := by
    refine .map_filter_self p id dropped ?_ as
    exact fun _ => rfl
  rwa [List.map_id] at thin

section Pruned

variable (doc : Document)

def Domain.pruned (d : Domain) : Domain where
  __ := d
  accessLists := d.accessLists.filter (¬ doc.IdleAccessList ·)
  credentials := d.credentials.filter fun id => (doc.credential? id).isSome
  description := ""

def Handler.pruned (h : Handler) : Handler where
  __ := h
  id := ""
  accessLists := h.accessLists.filter (¬ doc.IdleAccessList ·)
  credentials := h.credentials.filter fun id => (doc.credential? id).isSome
  headers := h.headers.filter fun id => (doc.header? id).isSome
  upstreams := h.upstreams.filter fun host => (Caddyfile.present? host).isSome
  health := { uri := h.health.uri, port := h.health.port, interval := h.health.interval,
              timeout := h.health.timeout }
  description := ""

def RawRoute.pruned (r : RawRoute) : RawRoute where
  __ := r
  id := ""
  sequence := ""
  kind := ""
  protocol := .tcp
  upstreams := r.upstreams.filter fun host => (Caddyfile.present? host).isSome
  description := ""

/-- The document without anything that a pruning may leave out, and with nothing in the places that
are only kept. -/
def Document.pruned : Document where
  general := doc.general
  domains := doc.enabledDomains.map (Domain.pruned doc)
  subdomains := (doc.subdomains.filter fun s =>
      s.enabled && doc.enabledDomains.any (·.id = s.domainId)).map fun s =>
    { s with accessLists := [], credentials := [], description := "" }
  handlers := (doc.handlers.filter (·.IsRendered doc)).map (Handler.pruned doc)
  accessLists := (doc.accessLists.filter (doc.UsesAccessList ·.id)).map fun l =>
    { l with name := "", description := "" }
  credentials := (doc.credentials.filter (doc.UsesCredential ·.id)).map fun c =>
    { c with description := "" }
  headers := (doc.headers.filter (doc.UsesHeader ·.id)).map fun r =>
    { r with replace := false, description := "" }
  rawRoutes := (doc.rawRoutes.filter fun r =>
      r.enabled || !doc.rawRoutes.any (·.enabled)).map RawRoute.pruned

theorem Domain.prunes_pruned (d : Domain) : d.Prunes doc (d.pruned doc) :=
  ⟨_, _, _, rfl, .filter (by simp) d.accessLists, .filter (by simp) d.credentials⟩

theorem Handler.prunes_pruned (h : Handler) : h.Prunes doc (h.pruned doc) :=
  ⟨_, _, _, _, _, _, _, rfl, .filter (by simp) h.accessLists, .filter (by simp) h.credentials,
    .filter (by simp) h.headers, .filter (by simp [BlankText]) h.upstreams,
    _, _, _, _, _, rfl⟩

theorem RawRoute.prunes_pruned (r : RawRoute) : r.Prunes r.pruned :=
  ⟨_, _, _, _, _, _, rfl, .filter (by simp [BlankText]) r.upstreams⟩

theorem Document.prunes_pruned : doc.Prunes doc.pruned where
  general := rfl
  domains := .map_filter_self _ _ (fun _ off => off) (Domain.prunes_pruned doc) doc.domains
  subdomains := by
    refine .map_filter_self _ _ (fun s out => ?_) (fun s => ⟨_, _, _, rfl⟩) doc.subdomains
    rw [Bool.and_eq_false_iff, List.any_eq_false] at out
    exact out.imp_right fun foreign d hd same => foreign d hd (by simp [same])
  handlers := .map_filter_self _ _ (by simp) (Handler.prunes_pruned doc) doc.handlers
  accessLists := .map_filter_self _ _ (by simp) (fun l => ⟨_, _, rfl⟩) doc.accessLists
  credentials := .map_filter_self _ _ (by simp) (fun c => ⟨_, rfl⟩) doc.credentials
  headers := .map_filter_self _ _ (by simp) (fun r => ⟨_, _, rfl⟩) doc.headers
  rawRoutes := .map_filter_self _ _ (by simp) RawRoute.prunes_pruned doc.rawRoutes

end Pruned

namespace Caddyfile

/-- However often and wherever a document is pruned, what it compiles to stays, and everything that
may be pruned can be pruned at once. -/
theorem compile_eq_of_prunings (certsDir : String) (doc : Document) :
    (∀ doc', Relation.ReflTransGen Document.Prunes doc doc' →
      compile certsDir doc' = compile certsDir doc) ∧ doc.Prunes doc.pruned := by
  refine ⟨fun doc' prunings => ?_, doc.prunes_pruned⟩
  induction prunings with
  | refl => rfl
  | tail _ pruned ih => rw [compile_prune pruned, ih]

def cluttered : Document where
  general := { enabled := true, rawEnabled := true }
  domains := [
    { Domain.serving "on" "on.example" with
      accessLists := ["office", "gone", "empty"], description := "kept" },
    { id := "off", host := "off.example", accessLists := ["secret"], credentials := ["root"] }]
  subdomains := [.serving "api" "on" "api", .serving "lost" "off" "lost"]
  handlers := [
    { Handler.proxying "first" "off" ["one", " "] (.ofNat 80) with subdomainId := "api" },
    .proxying "second" "off" ["two"] (.ofNat 80),
    { Handler.proxying "third" "on" ["three"] (.ofNat 80) with subdomainId := "lost" }]
  accessLists := [
    { id := "office", name := "Office", clientIps := ["10.0.0.1"] },
    { id := "empty", clientIps := [" "] },
    { id := "secret", clientIps := ["10.0.0.2"] }]
  credentials := [{ id := "root", username := "root", password := "hash" }]
  rawRoutes := [
    .forwarding "mail" (.ofNat 25) ["mail.internal"] (.ofNat 25),
    { id := "old", upstreams := ["old.internal"] }]

def decluttered : Document where
  general := { enabled := true, rawEnabled := true }
  domains := [{ Domain.serving "on" "on.example" with accessLists := ["office"] }]
  subdomains := [.serving "api" "on" "api"]
  handlers := [
    { Handler.proxying "" "off" ["one"] (.ofNat 80) with subdomainId := "api" }]
  accessLists := [{ id := "office", clientIps := ["10.0.0.1"] },
    { id := "empty", clientIps := [" "] }]
  rawRoutes := [.forwarding "" (.ofNat 25) ["mail.internal"] (.ofNat 25)]

theorem compile_eq_of_prunings_cluttered :
    Relation.ReflTransGen Document.Prunes cluttered decluttered ∧
      compile "./certs" decluttered = compile "./certs" cluttered := by
  have pruned : cluttered.pruned = decluttered := by decide +kernel
  have prunings : Relation.ReflTransGen Document.Prunes cluttered decluttered :=
    .single (pruned ▸ cluttered.prunes_pruned)
  exact ⟨prunings, (compile_eq_of_prunings "./certs" cluttered).1 decluttered prunings⟩

end Caddyfile

end ProxyConfig
