import ProxyConfig.Proofs.Caddyfile.HandlerPlacement
import ProxyConfig.Proofs.Caddyfile.SchemeAndTls
import ProxyConfig.Proofs.Caddyfile.TextRows
import ProxyConfig.Proofs.Lint.Formats
import ProxyConfig.Proofs.Text.HostNames
import ProxyConfig.Proofs.Text.Words

/-!
Which texts of a document can break a line of the compiled text.  `freeTexts` lists the names and
arguments that are texts of the document, in the order in which they are rendered: most as they were
typed, two kinds as quoted arguments.  All other names and arguments are fixed words, numbers, words
between blanks, and, where lint finds nothing, hosts and addresses.  Main statement: the names and
arguments with a line feed are those of the free texts, so that the text has one line for each
directive, block and block at the top exactly if no typed text holds a line feed
(`lines_iff_typed_unbroken`).
-/

namespace ProxyConfig

open Caddyfile

/-- A text of a document among the names and arguments: as it was typed, or as one argument, between
quotes where that is needed. -/
inductive FreeText where
  | typed (part : String)
  | quoted (text : String)

namespace FreeText

def part : FreeText → String
  | typed part => part
  | quoted text => quoteArg text

def typed? : FreeText → Option String
  | typed part => some part
  | quoted _ => none

def quoted? : FreeText → Option String
  | typed _ => none
  | quoted text => some (quoteArg text)

def given (a : Option String) : List FreeText := a.toList.map typed

def proxied (hosts : List String) (port : NumberText) (inside : List FreeText) : List FreeText :=
  match upstreamList hosts port with
  | [] => []
  | upstreams => upstreams.map typed ++ inside

end FreeText

open FreeText

def General.freeTexts (g : General) : List FreeText :=
  given (present? g.logLevel) ++ given (present? g.autoHttps) ++ given (present? g.email) ++
    given (duration? g.readBodyTimeout) ++ given (duration? g.readHeaderTimeout) ++
    given (duration? g.writeTimeout) ++ given (duration? g.idleTimeout)

def RawRoute.freeTexts (r : RawRoute) : List FreeText :=
  (((present? r.matcher).filter (· != "any")).toList.flatMap fun matcher =>
    typed matcher :: (r.matchDomains.filterMap present?).map typed) ++
  proxied r.upstreams r.upstreamPort (given (duration? r.failDuration))

def AccessList.messageTexts (list : AccessList) : List FreeText :=
  match (list.responseCode.bits? 16).filter (0 < ·) with
  | none => []
  | some _ => (present? list.responseMessage).toList.map quoted

/-- The name of the matcher, where it is defined and in the rule behind the message. -/
def AccessList.freeTexts (names : String) (list : AccessList) : List FreeText :=
  if (addresses list).isEmpty then []
  else typed (names ++ list.id) :: (list.messageTexts ++ [typed (names ++ list.id)])

def Credential.freeTexts (c : Credential) : List FreeText := [typed c.username, typed c.password]

def HeaderRule.freeTexts (rule : HeaderRule) : List FreeText :=
  if rule.value.isEmpty then [typed ("-" ++ Text.trim rule.fieldName)]
  else [typed (Text.trim rule.fieldName), quoted rule.value]

def LoadBalancing.freeTexts (b : LoadBalancing) : List FreeText :=
  given (duration? b.tryDuration) ++ given (duration? b.tryInterval)

def HealthCheck.freeTexts (h : HealthCheck) : List FreeText :=
  given (present? h.uri) ++ given (duration? h.interval) ++ given (duration? h.timeout)

def PassiveHealth.freeTexts (p : PassiveHealth) : List FreeText :=
  given (duration? p.failDuration) ++ given (duration? p.unhealthyLatency)

namespace Handler

def transportTexts (certsDir : String) (h : Handler) : List FreeText :=
  if h.ntlm then []
  else (if h.tls then given (present? h.tlsServerName) ++
      given ((present? h.tlsTrustedCas).map (Certificate.path certsDir)) else []) ++
    given (present? h.keepalive)

def actionTexts (certsDir : String) (h : Handler) (headers : List HeaderRule) : List FreeText :=
  match h.action with
  | .proxy => proxied h.upstreams h.upstreamPort
      (headers.flatMap HeaderRule.freeTexts ++ h.transportTexts certsDir ++ h.balancing.freeTexts ++
        h.health.freeTexts ++ h.passiveHealth.freeTexts)
  | .redirect => headers.flatMap HeaderRule.freeTexts ++ given (h.upstreams.findSome? present?)
  | .other _ => headers.flatMap HeaderRule.freeTexts

end Handler

namespace Document

def accessTexts (doc : Document) (names : String) (ids : List String) : List FreeText :=
  (ids.filterMap doc.accessList?).flatMap (AccessList.freeTexts names)

def credentialTexts (doc : Document) (ids : List String) : List FreeText :=
  (ids.filterMap doc.credential?).flatMap Credential.freeTexts

def handlerTexts (certsDir : String) (doc : Document) (h : Handler) : List FreeText :=
  given ((present? h.path).map fun path =>
    match h.pathMatch with
    | .keep => path
    | .strip => path ++ "/*") ++
  doc.accessTexts handlerMatchers h.accessLists ++ doc.credentialTexts h.credentials ++
  h.actionTexts certsDir (h.headers.filterMap doc.header?)

end Document

def Domain.clientAuthTexts (certsDir : String) (d : Domain) : List FreeText :=
  (present? d.clientAuthMode).toList.flatMap fun mode =>
    typed mode :: given ((present? d.clientAuthPool).map (Certificate.path certsDir))

namespace Site

def keyTexts (site : Site) : List FreeText :=
  if site.subdomains.isEmpty then [] else [typed site.key]

def tlsTexts (certsDir : String) (site : Site) : List FreeText :=
  match site.tls with
  | .off => []
  | .internal => site.domain.clientAuthTexts certsDir
  | .custom cert key => typed cert :: typed key :: site.domain.clientAuthTexts certsDir

def freeTexts (certsDir : String) (doc : Document) (site : Site) : List FreeText :=
  site.keyTexts ++ site.tlsTexts certsDir ++
    doc.accessTexts siteMatchers site.domain.accessLists ++
    doc.credentialTexts site.domain.credentials ++
    (doc.handlers.filter (attaches · site)).flatMap (doc.handlerTexts certsDir)

end Site

/-- The texts of a document that stand among the names and arguments of its compiled text. -/
def Document.freeTexts (certsDir : String) (doc : Document) : List FreeText :=
  doc.general.freeTexts ++
  (if doc.general.rawEnabled then
    (doc.rawRoutes.filter (·.enabled)).flatMap RawRoute.freeTexts else []) ++
  (renderedSites certsDir doc).flatMap (Site.freeTexts certsDir doc)

namespace Caddyfile

open Directive

def broken (ss : List String) : List String := ss.filter fun s => '\n' ∈ s.toList

@[simp] theorem broken_nil : broken [] = [] := rfl

@[simp] theorem broken_append (ss ts : List String) : broken (ss ++ ts) = broken ss ++ broken ts :=
  List.filter_append ..

theorem broken_cons_of_plain {s : String} (plain : '\n' ∉ s.toList) (ss : List String) :
    broken (s :: ss) = broken ss :=
  List.filter_cons_of_neg (by simpa using plain)

theorem broken_eq_nil_iff {ss : List String} : broken ss = [] ↔ ∀ s ∈ ss, '\n' ∉ s.toList := by
  simp [broken]

theorem feedsIn_broken (ss : List String) : feedsIn (broken ss) = feedsIn ss := by
  induction ss with
  | nil => rfl
  | cons s ss ih =>
    by_cases plain : '\n' ∉ s.toList
    · rw [broken_cons_of_plain plain, ih, feedsIn_cons, feeds_eq_zero_iff.2 plain, Nat.zero_add]
    · have kept : broken (s :: ss) = s :: broken ss :=
        List.filter_cons_of_pos (by simpa using plain)
      rw [kept, feedsIn_cons, feedsIn_cons, ih]

namespace Directive

theorem partsIn_append (ds es : List Directive) : partsIn (ds ++ es) = partsIn ds ++ partsIn es := by
  rw [partsIn, blockWithin_append, List.flatMap_append, partsIn, partsIn]

theorem partsIn_leaf (name : String) (args : List String) :
    partsIn [{ name, args }] = name :: args := by
  simp [partsIn, blockWithin, within, parts]

theorem partsIn_block (name : String) (args : List String) (children : List Directive) :
    partsIn [{ name, args, block := some children }] = name :: args ++ partsIn children := by
  simp [partsIn, blockWithin, within, parts]

end Directive

def breaks (ds : List Directive) : List String := broken (partsIn ds)

def breaksOf (texts : List FreeText) : List String := broken (texts.map part)

@[simp] theorem breaks_append (ds es : List Directive) : breaks (ds ++ es) = breaks ds ++ breaks es := by
  rw [breaks, partsIn_append, broken_append, breaks, breaks]

@[simp] theorem breaksOf_append (texts more : List FreeText) :
    breaksOf (texts ++ more) = breaksOf texts ++ breaksOf more := by
  rw [breaksOf, List.map_append, broken_append, breaksOf, breaksOf]

theorem breaks_flatMap {α : Type} {xs : List α} {f : α → List Directive} {g : α → List FreeText}
    (each : ∀ x ∈ xs, breaks (f x) = breaksOf (g x)) :
    breaks (xs.flatMap f) = breaksOf (xs.flatMap g) := by
  induction xs with
  | nil => rfl
  | cons x xs ih =>
    obtain ⟨first, rest⟩ := List.forall_mem_cons.1 each
    rw [List.flatMap_cons, List.flatMap_cons, breaks_append, breaksOf_append, first, ih rest]

theorem breaks_map {α : Type} {xs : List α} {f : α → Directive} {g : α → List FreeText}
    (each : ∀ x ∈ xs, breaks [f x] = breaksOf (g x)) :
    breaks (xs.map f) = breaksOf (xs.flatMap g) := by
  rw [List.map_eq_flatMap]
  exact breaks_flatMap each

theorem breaks_leaf {name : String} (plain : '\n' ∉ name.toList) (args : List String) :
    breaks [{ name, args }] = broken args := by
  rw [breaks, partsIn_leaf, broken_cons_of_plain plain]

theorem breaks_block {name : String} (plain : '\n' ∉ name.toList) (args : List String)
    (children : List Directive) :
    breaks [{ name, args, block := some children }] = broken args ++ breaks children := by
  rw [breaks, partsIn_block, List.cons_append, broken_cons_of_plain plain, broken_append, breaks]

theorem broken_map_typed (ss : List String) : broken ss = breaksOf (ss.map typed) := by
  rw [breaksOf, List.map_map]
  exact congrArg broken (List.map_id ss).symm

theorem broken_number (n : Nat) : broken [toString n] = [] := by
  rw [broken_eq_nil_iff, List.forall_mem_singleton, Nat.toString_eq_repr, Nat.toList_repr]
  exact fun there => absurd (Nat.isDigit_of_mem_toDigits (by decide) (by decide) there) (by decide)

section Kinds

variable {name : String} (plain : '\n' ∉ name.toList)
include plain

theorem breaks_optional (a : Option String) : breaks (optional name a) = breaksOf (given a) := by
  cases a with
  | none => rfl
  | some a =>
    rw [optional, Option.toList_some, List.map_singleton, breaks_leaf plain, broken_map_typed]
    rfl

theorem breaks_bare (wanted : Bool) : breaks (bare name wanted) = [] := by
  cases wanted with
  | false => rfl
  | true => exact breaks_leaf plain []

theorem breaks_number (n : Option Nat) : breaks (optional name (n.map toString)) = [] := by
  cases n with
  | none => rfl
  | some n =>
    rw [Option.map_some, optional, Option.toList_some, List.map_singleton, breaks_leaf plain]
    exact broken_number n

theorem breaks_optionalWords (s : String) : breaks (optionalWords name s) = [] := by
  unfold optionalWords
  cases present? s with
  | none => rfl
  | some t =>
    rw [Option.toList_some, List.map_singleton, breaks_leaf plain, broken_eq_nil_iff]
    intro word there feed
    exact absurd (Text.not_isBlank_of_mem_words there _ feed) (by decide)

theorem breaks_wrapped {args : List String} (fixed : broken args = []) (ds : List Directive) :
    breaks (if ds.isEmpty then [] else [{ name, args, block := some ds }]) = breaks ds := by
  cases ds with
  | nil => rfl
  | cons d ds =>
    rw [List.isEmpty_cons, if_neg Bool.false_ne_true, breaks_block plain, fixed, List.nil_append]

end Kinds

theorem breaks_serversBlock (g : General) :
    breaks (serversBlock g) = breaksOf (given (duration? g.readBodyTimeout) ++
      given (duration? g.readHeaderTimeout) ++ given (duration? g.writeTimeout) ++
      given (duration? g.idleTimeout)) := by
  unfold serversBlock
  dsimp only
  rw [breaks_wrapped (by decide) rfl, breaks_append, breaks_append,
    breaks_optionalWords (by decide), breaks_bare (by decide), breaks_wrapped (by decide) rfl]
  simp only [breaks_append, breaksOf_append, List.nil_append]
  rw [breaks_optional (by decide), breaks_optional (by decide), breaks_optional (by decide),
    breaks_optional (by decide)]

theorem breaks_proxied {name : String} (plain : '\n' ∉ name.toList) (hosts : List String)
    (port : NumberText) {inside : List Directive} {texts : List FreeText}
    (same : breaks inside = breaksOf texts) :
    breaks (match upstreamList hosts port with
      | [] => []
      | upstreams => [{ name, args := upstreams, block := some inside }]) =
        breaksOf (proxied hosts port texts) := by
  rw [proxied]
  cases upstreamList hosts port with
  | nil => rfl
  | cons upstream rest =>
    dsimp only
    rw [breaks_block plain, breaksOf_append, broken_map_typed, same]

theorem breaks_rawProxy (r : RawRoute) :
    breaks (rawProxy r) =
      breaksOf (proxied r.upstreams r.upstreamPort (given (duration? r.failDuration))) := by
  unfold rawProxy
  refine breaks_proxied (by decide) r.upstreams r.upstreamPort ?_
  simp only [breaks_append]
  rw [breaks_optionalWords (by decide), breaks_optional (by decide), breaks_number (by decide),
    List.append_nil, List.append_nil]
  have version : breaks (if Text.trim r.proxyProtocol = "v1" || Text.trim r.proxyProtocol = "v2" then
      [{ name := "proxy_protocol", args := [Text.trim r.proxyProtocol] }] else []) = [] := by
    split
    case isTrue known =>
      rw [breaks_leaf (by decide)]
      simp only [Bool.or_eq_true, decide_eq_true_eq] at known
      rcases known with same | same <;> rw [same] <;> rfl
    case isFalse => rfl
  rw [version, List.nil_append]

theorem breaks_rawTls (r : RawRoute) : breaks (rawTls r) = [] := by
  rw [rawTls, breaks_append, breaks_bare (by decide), List.nil_append]
  cases r.upstreamTls <;> rfl

theorem breaks_rawMatch (r : RawRoute) :
    breaks (rawMatch r) = breaksOf (((present? r.matcher).filter (· != "any")).toList.flatMap
      fun matcher => typed matcher :: (r.matchDomains.filterMap present?).map typed) := by
  refine breaks_map fun matcher _ => ?_
  rw [breaks_block (by decide), breaks, partsIn_leaf, broken_map_typed, broken_map_typed]
  rfl

theorem breaks_rawRouteBlock (r : RawRoute) : breaks [rawRouteBlock r] = breaksOf r.freeTexts := by
  have port : '\n' ∉ (":" ++ (r.fromPort.port?.map toString).getD "443").toList := by
    rw [String.toList_append, List.mem_append, not_or]
    refine ⟨by decide, ?_⟩
    cases r.fromPort.port? with
    | none => decide
    | some n => exact broken_eq_nil_iff.1 (broken_number n) _ (List.mem_singleton_self _)
  rw [rawRouteBlock, breaks_block port, breaks_append, breaks_append, breaks_rawMatch,
    breaks_rawProxy, breaks_rawTls, List.append_nil, RawRoute.freeTexts, breaksOf_append,
    broken_nil, List.nil_append]

theorem breaks_globalOptions (doc : Document) :
    breaks [globalOptions doc.general doc.rawRoutes] =
      breaksOf (doc.general.freeTexts ++
        if doc.general.rawEnabled then
          (doc.rawRoutes.filter (·.enabled)).flatMap RawRoute.freeTexts else []) := by
  have level : breaks ((present? doc.general.logLevel).toList.map fun level =>
      { name := "log", block := some [{ name := "level", args := [level] }] }) =
        breaksOf (given (present? doc.general.logLevel)) := by
    cases present? doc.general.logLevel with
    | none => rfl
    | some level =>
      rw [Option.toList_some, List.map_singleton, breaks_block (by decide),
        breaks_leaf (by decide), broken_map_typed]
      rfl
  have routes : breaks (rawRoutesBlock doc.general doc.rawRoutes) =
      breaksOf (if doc.general.rawEnabled then
        (doc.rawRoutes.filter (·.enabled)).flatMap RawRoute.freeTexts else []) := by
    unfold rawRoutesBlock
    cases doc.general.rawEnabled with
    | false => rfl
    | true =>
      cases doc.rawRoutes with
      | nil => rfl
      | cons r rest =>
        refine (breaks_block (by decide) [] _).trans ?_
        exact breaks_map fun r _ => breaks_rawRouteBlock r
  rw [globalOptions, anonymous, breaks_block (by decide)]
  simp only [breaks_append, breaksOf_append, General.freeTexts, level, routes,
    breaks_serversBlock, List.append_assoc]
  rw [breaks_number (by decide), breaks_number (by decide), breaks_optional (by decide),
    breaks_optional (by decide)]
  simp only [broken_nil, List.nil_append]

theorem exists_rejection (list : AccessList) :
    ∃ name args, rejection list = { name, args } ∧ '\n' ∉ name.toList ∧
      broken args = breaksOf list.messageTexts := by
  unfold rejection AccessList.messageTexts
  cases (list.responseCode.bits? 16).filter (0 < ·) with
  | none => exact ⟨"abort", [], rfl, by decide, rfl⟩
  | some code =>
    refine ⟨"respond", _, rfl, by decide, ?_⟩
    rw [broken_append, broken_number, List.append_nil]
    cases present? list.responseMessage <;> rfl

theorem breaks_rejectionRule (names : String) (list : AccessList) :
    breaks [rejectionRule names list] =
      breaksOf (list.messageTexts ++ [typed (names ++ list.id)]) := by
  obtain ⟨name, args, made, plain, own⟩ := exists_rejection list
  have not : broken (args ++ ["not"]) = broken args := by
    rw [broken_append]
    exact List.append_nil _
  rw [rejectionRule, made, breaksOf_append, ← own]
  split
  · exact (breaks_leaf plain _).trans (broken_append args _)
  · rw [← not]
    exact (breaks_leaf plain _).trans (broken_append _ _)

theorem breaks_accessRule (names : String) {list : AccessList}
    (plain : ∀ s ∈ addresses list, '\n' ∉ s.toList) :
    breaks (accessRule names list) = breaksOf (list.freeTexts names) := by
  have inside : breaks [{ name := list.matcher.toText, args := addresses list }] = [] := by
    rw [breaks_leaf (by cases list.matcher <;> decide), broken_eq_nil_iff.2 plain]
  have matcher : breaks [matcherBlock names list] = breaksOf [typed (names ++ list.id)] := by
    rw [breaks, matcherBlock, partsIn_block, broken_append, ← breaks, inside, List.append_nil]
    rfl
  rw [accessRule_eq, AccessList.freeTexts]
  split
  · rfl
  · refine (breaks_append [matcherBlock names list] _).trans ?_
    rw [matcher, breaks_rejectionRule]
    exact (breaksOf_append [_] _).symm

theorem breaks_basicAuth (doc : Document) (ids : List String) :
    breaks (basicAuth doc ids) = breaksOf (doc.credentialTexts ids) := by
  refine breaks_map fun c _ => ?_
  rw [credentialBlock, breaks_block (by decide), breaks, partsIn_leaf]
  rfl

theorem breaks_headerChange {name : String} (plain : '\n' ∉ name.toList) (rule : HeaderRule) :
    breaks [headerChange name rule] = breaksOf rule.freeTexts := by
  unfold headerChange HeaderRule.freeTexts
  dsimp only
  split <;> exact breaks_leaf plain _

theorem breaks_headers (headers : List HeaderRule) {name : HeaderRule → String}
    (plain : ∀ rule, '\n' ∉ (name rule).toList) :
    breaks (headers.map fun rule => headerChange (name rule) rule) =
      breaksOf (headers.flatMap HeaderRule.freeTexts) :=
  breaks_map fun rule _ => breaks_headerChange (plain rule) rule

theorem breaks_transport (certsDir : String) (h : Handler) :
    breaks (transport certsDir h) = breaksOf (h.transportTexts certsDir) := by
  have verification : breaks (bare "tls" h.tls ++
      bare "tls_insecure_skip_verify" (h.tls && h.tlsInsecure)) = [] := by
    rw [breaks_append, breaks_bare (by decide), breaks_bare (by decide)]
    rfl
  unfold transport Handler.transportTexts
  dsimp only
  split
  · rw [breaks_block (by decide), verification]
    rfl
  · rw [breaks_wrapped (by decide) rfl, breaks_append, breaks_append, breaks_append, verification,
      breaks_optionalWords (by decide), breaks_optional (by decide), breaksOf_append,
      List.nil_append, List.append_nil]
    congr 1
    split
    · rw [breaks_append, breaks_optional (by decide), breaks_optional (by decide), breaksOf_append]
    · rfl

theorem breaks_balancing (b : LoadBalancing) : breaks (balancing b) = breaksOf b.freeTexts := by
  rw [balancing, breaks_append, breaks_append, breaks_append, breaks_optionalWords (by decide),
    breaks_number (by decide), breaks_optional (by decide), breaks_optional (by decide),
    LoadBalancing.freeTexts, breaksOf_append, List.nil_append, List.nil_append]

theorem breaks_healthChecks (h : HealthCheck) : breaks (healthChecks h) = breaksOf h.freeTexts := by
  rw [healthChecks, breaks_append, breaks_append, breaks_append, breaks_number (by decide),
    breaks_optional (by decide), breaks_optional (by decide), breaks_optional (by decide),
    HealthCheck.freeTexts, breaksOf_append, breaksOf_append, List.append_nil]

theorem breaks_passiveHealth (p : PassiveHealth) :
    breaks (passiveHealth p) = breaksOf p.freeTexts := by
  simp only [passiveHealth, breaks_append]
  rw [breaks_optional (by decide), breaks_number (by decide), breaks_optionalWords (by decide),
    breaks_optional (by decide), breaks_number (by decide), PassiveHealth.freeTexts,
    breaksOf_append, List.append_nil, List.append_nil, List.append_nil]

theorem breaks_reverseProxy (certsDir : String) (h : Handler) (headers : List HeaderRule) :
    breaks (reverseProxy certsDir h headers) = breaksOf (proxied h.upstreams h.upstreamPort
      (headers.flatMap HeaderRule.freeTexts ++ h.transportTexts certsDir ++ h.balancing.freeTexts ++
        h.health.freeTexts ++ h.passiveHealth.freeTexts)) := by
  unfold reverseProxy
  refine breaks_proxied (by decide) h.upstreams h.upstreamPort ?_
  have plain (rule : HeaderRule) : '\n' ∉ rule.direction.toText.toList := by
    cases rule.direction <;> decide
  simp only [breaks_append, breaksOf_append, breaks_headers _ plain, breaks_transport,
    breaks_balancing, breaks_healthChecks, breaks_passiveHealth]

theorem breaks_redirect (h : Handler) :
    breaks (redirect h) = breaksOf (given (h.upstreams.findSome? present?)) := by
  unfold redirect
  cases h.upstreams.findSome? present? with
  | none => rfl
  | some target =>
    have status : broken ((h.redirectStatus.bits? 16).map toString).toList = [] := by
      cases h.redirectStatus.bits? 16 with
      | none => rfl
      | some n => exact broken_number n
    refine (breaks_leaf (by decide) _).trans ?_
    rw [← List.singleton_append, broken_append, status, List.append_nil]
    rfl

theorem breaks_actionClauses (certsDir : String) (h : Handler) (headers : List HeaderRule) :
    breaks (actionClauses certsDir h headers) = breaksOf (h.actionTexts certsDir headers) := by
  have changes : breaks (headers.map (headerChange "header")) =
      breaksOf (headers.flatMap HeaderRule.freeTexts) :=
    breaks_headers headers fun _ => by decide
  unfold actionClauses Handler.actionTexts
  cases h.action with
  | proxy => exact breaks_reverseProxy certsDir h headers
  | redirect => exact (breaks_append _ _).trans (by rw [changes, breaks_redirect, breaksOf_append])
  | other name => exact changes

theorem breaks_tls (certsDir : String) (d : Domain) (args : List String) :
    breaks [{ name := "tls", args, block := clientAuth certsDir d }] =
      broken args ++ breaksOf (d.clientAuthTexts certsDir) := by
  unfold clientAuth Domain.clientAuthTexts
  cases present? d.clientAuthMode with
  | none => exact (breaks_leaf (by decide) args).trans (List.append_nil _).symm
  | some mode =>
    have inside (pool : Option String) :
        breaks ({ name := "mode", args := [mode] } :: optional "trusted_ca_cert" pool) =
          breaksOf (typed mode :: given pool) := by
      change breaks ([{ name := "mode", args := [mode] }] ++ optional "trusted_ca_cert" pool) = _
      rw [breaks_append, breaks_leaf (by decide), breaks_optional (by decide)]
      exact (breaksOf_append [typed mode] _).symm
    rw [Option.map_some, breaks_block (by decide), breaks_block (by decide), inside]
    simp only [broken_nil, List.nil_append, Option.toList_some, List.flatMap_singleton]

theorem breaks_tlsClause (certsDir : String) (site : Site) :
    breaks (tlsClause certsDir site) = breaksOf (site.tlsTexts certsDir) := by
  unfold tlsClause Site.tlsTexts
  cases site.tls with
  | off => rfl
  | internal =>
    dsimp only
    rw [breaks_tls, broken_cons_of_plain (by decide), broken_nil, List.nil_append]
  | custom cert key =>
    dsimp only
    rw [breaks_tls, broken_map_typed, ← breaksOf_append, List.map_cons, List.map_singleton,
      List.cons_append, List.singleton_append]

section Formed

variable {doc : Document} (formed : doc.Formed)
include formed

theorem breaks_accessControl (names : String) (ids : List String) :
    breaks (accessControl doc names ids) = breaksOf (doc.accessTexts names ids) := by
  refine breaks_flatMap fun list there => breaks_accessRule names fun s listed => ?_
  obtain ⟨id, -, found⟩ := List.mem_filterMap.1 there
  exact Address.lineFeed_not_mem_of_isAddressOrRange
    (formed.addresses list (TextMap.mem_of_find?_byId found).2 s listed)

theorem breaks_handlerBlock (certsDir : String) (h : Handler) :
    breaks [handlerBlock certsDir doc h] = breaksOf (doc.handlerTexts certsDir h) := by
  have plain : '\n' ∉ h.pathMatch.toText.toList := by cases h.pathMatch <;> decide
  rw [handlerBlock, breaks_block plain, breaks_append, breaks_append,
    breaks_accessControl formed, breaks_basicAuth, breaks_actionClauses, broken_map_typed]
  simp only [Document.handlerTexts, breaksOf_append, List.append_assoc]
  rfl

theorem lineFeed_not_mem_address {d : Domain} (there : d ∈ doc.domains) :
    '\n' ∉ d.address.toList := by
  have scheme : '\n' ∉ d.scheme.toList := by
    rcases d.scheme_cases with scheme | scheme <;> rw [scheme] <;> decide
  have host : '\n' ∉ d.bareHost.toList := by
    obtain ⟨-, -, bare⟩ := Host.valid_iff.1 (formed.hosts d there)
    rw [Domain.bareHost, String.toList_ofList]
    exact bare.not_mem (by decide) (by decide) (by decide) (by decide)
  have port : '\n' ∉ d.effectivePort.toList := by
    unfold Domain.effectivePort
    split
    · exact broken_eq_nil_iff.1 (broken_number _) _ (List.mem_singleton_self _)
    · split <;> decide
  simp [Domain.address, scheme, host, port]

theorem broken_key (certsDir : String) {d : Domain} (there : d ∈ doc.domains) :
    broken [(siteOf certsDir doc d).key] = breaksOf (siteOf certsDir doc d).keyTexts := by
  unfold Site.keyTexts
  split
  case isTrue none =>
    have alone : (siteOf certsDir doc d).key = d.address := by
      change doc.subdomainsOf d.id |>.isEmpty at none
      change Text.join ", " (d.address :: (doc.subdomainsOf d.id).map d.addressOf) = d.address
      rw [List.isEmpty_iff.1 none]
      rfl
    rw [alone, broken_cons_of_plain (lineFeed_not_mem_address formed there)]
    rfl
  case isFalse => rfl

theorem breaks_siteBlock (certsDir : String) {d : Domain} (there : d ∈ doc.domains) :
    breaks [siteBlock certsDir doc (siteOf certsDir doc d)] =
      breaksOf ((siteOf certsDir doc d).freeTexts certsDir doc) := by
  have handlers : breaks ((doc.handlers.filter (attaches · (siteOf certsDir doc d))).map
      (handlerBlock certsDir doc)) =
        breaksOf ((doc.handlers.filter (attaches · (siteOf certsDir doc d))).flatMap
          (doc.handlerTexts certsDir)) :=
    breaks_map fun h _ => breaks_handlerBlock formed certsDir h
  have block (name : String) (ds : List Directive) :
      breaks [{ name, block := some ds }] = broken [name] ++ breaks ds := by
    rw [breaks, partsIn_block, broken_append, ← breaks]
  rw [siteBlock, block, broken_key formed certsDir there]
  simp only [breaks_append, breaks_tlsClause, breaks_accessControl formed,
    breaks_basicAuth, handlers, Site.freeTexts, breaksOf_append, List.append_assoc]
  rw [breaks_bare (by decide), List.nil_append]

/-- The names and arguments with a line feed are the free texts with one. -/
theorem breaks_blocks (certsDir : String) :
    breaks (blocks certsDir doc) = breaksOf (doc.freeTexts certsDir) := by
  have sites : breaks ((renderedSites certsDir doc).map (siteBlock certsDir doc)) =
      breaksOf ((renderedSites certsDir doc).flatMap (Site.freeTexts certsDir doc)) := by
    refine breaks_map fun site rendered => ?_
    obtain ⟨-, d, enabled, rfl⟩ := mem_renderedSites_iff.1 rendered
    exact breaks_siteBlock formed certsDir (List.mem_of_mem_filter enabled)
  refine (breaks_append [_] _).trans ?_
  rw [sites, breaks_globalOptions, Document.freeTexts, breaksOf_append, breaksOf_append,
    breaksOf_append]

end Formed

theorem feedsIn_map_part (texts : List FreeText) :
    feedsIn (texts.map part) = feedsIn (texts.filterMap typed?) + feedsIn (texts.filterMap quoted?) := by
  induction texts with
  | nil => rfl
  | cons text texts ih =>
    cases text with
    | typed s =>
      simp only [List.map_cons, List.filterMap_cons, typed?, quoted?, part, feedsIn_cons, ih]
      omega
    | quoted s =>
      simp only [List.map_cons, List.filterMap_cons, typed?, quoted?, part, feedsIn_cons, ih]
      omega

theorem quoteArg_of_lineFeed {s : String} (broken : '\n' ∈ (quoteArg s).toList) :
    quoteArg s = String.ofList ('"' :: s.toList.flatMap quotedChar ++ ['"']) := by
  unfold quoteArg at broken ⊢
  split at broken
  case isTrue needed => rw [if_pos needed]
  case isFalse fine =>
    have needed : needsQuotes s.toList = true := by
      rw [needsQuotes, Bool.or_eq_true, List.any_eq_true]
      exact .inr ⟨'\n', broken, rfl⟩
    exact absurd needed fine

/-- In a document without findings, a compiled text has one line for each directive, each block and
each block at the top, and one more for each line feed in a free text.  So lines and directives agree,
line feeds between quotes apart, exactly if no typed text holds a line feed. -/
theorem lines_iff_typed_unbroken (certsDir : String) {doc : Document} (clean : doc.lint = []) :
    (compile certsDir doc).text =
        String.join ((topRows (blocks certsDir doc)).map (· ++ "\n")) ∧
      (topRows (blocks certsDir doc)).length = (blockWithin (blocks certsDir doc)).length +
        blocksIn (blockWithin (blocks certsDir doc)) + (blocks certsDir doc).length ∧
      broken (partsIn (blocks certsDir doc)) = broken ((doc.freeTexts certsDir).map part) ∧
      (∀ s, '\n' ∈ (quoteArg s).toList →
        quoteArg s = String.ofList ('"' :: s.toList.flatMap quotedChar ++ ['"'])) ∧
      feeds (compile certsDir doc).text = (topRows (blocks certsDir doc)).length +
        feedsIn ((doc.freeTexts certsDir).filterMap quoted?) +
        feedsIn ((doc.freeTexts certsDir).filterMap typed?) ∧
      (feeds (compile certsDir doc).text = (topRows (blocks certsDir doc)).length +
          feedsIn ((doc.freeTexts certsDir).filterMap quoted?) ↔
        ∀ s, typed s ∈ doc.freeTexts certsDir → '\n' ∉ s.toList) := by
  have parts := breaks_blocks (Document.formed_of_lint_eq_nil clean) certsDir
  -- each line feed ends a row or stands in a free text
  have counted : feeds (compile certsDir doc).text = (topRows (blocks certsDir doc)).length +
      feedsIn ((doc.freeTexts certsDir).filterMap quoted?) +
      feedsIn ((doc.freeTexts certsDir).filterMap typed?) := by
    have inside := congrArg feedsIn parts
    rw [breaks, breaksOf, feedsIn_broken, feedsIn_broken, feedsIn_map_part] at inside
    rw [compile, feeds_format, inside]
    omega
  refine ⟨format_eq_join_rows _, length_topRows _, parts, fun s => quoteArg_of_lineFeed, counted, ?_⟩
  have listed (s : String) :
      s ∈ (doc.freeTexts certsDir).filterMap typed? ↔ typed s ∈ doc.freeTexts certsDir := by
    rw [List.mem_filterMap]
    constructor
    · rintro ⟨_ | _, there, same⟩
      · cases same
        exact there
      · cases same
    · exact fun there => ⟨_, there, rfl⟩
  rw [counted, Nat.add_eq_left, feedsIn_eq_zero_iff]
  exact forall_congr' fun s => imp_congr_left (listed s)

def longHeader : Document where
  general := { enabled := true }
  domains := [.serving "d" "d.example"]
  handlers := [{ Handler.proxying "h" "d" ["one"] ⟨"80"⟩ with headers := ["x"] }]
  headers := [{ id := "x", fieldName := "X-Note", value := "first\nsecond" }]

theorem lines_iff_typed_unbroken_longHeader :
    longHeader.lint = [] ∧ feeds (compile "./certs" longHeader).text =
      (topRows (blocks "./certs" longHeader)).length + 1 := by
  have clean : longHeader.lint = [] := by decide +kernel
  have between : feedsIn ((longHeader.freeTexts "./certs").filterMap quoted?) = 1 := by
    decide +kernel
  have outside : feedsIn ((longHeader.freeTexts "./certs").filterMap typed?) = 0 := by
    decide +kernel
  obtain ⟨-, -, -, -, counted, -⟩ := lines_iff_typed_unbroken "./certs" clean
  rw [counted, between, outside]
  exact ⟨clean, rfl⟩

def breakingOut : Document where
  general := { enabled := true }
  domains := [.serving "d" "d.example"]
  handlers := [{ Handler.proxying "h" "d" ["one"] ⟨"80"⟩ with path := "/a \x7b\n\t\x7d\n\thandle /b" }]

def spelledOut : Document where
  general := { enabled := true }
  domains := [.serving "d" "d.example"]
  handlers := [{ id := "h", enabled := true, domainId := "d", path := "/a", action := .other "none" },
    { Handler.proxying "g" "d" ["one"] ⟨"80"⟩ with path := "/b" }]

/-- Nothing is found about the path, and the text has a directive and a block more than the document
asks for. -/
theorem breakingOut_adds_block :
    breakingOut.lint = [] ∧
      (compile "./certs" breakingOut).text = (compile "./certs" spelledOut).text ∧
      (topRows (blocks "./certs" breakingOut)).length + 2 =
        (topRows (blocks "./certs" spelledOut)).length ∧
      broken (partsIn (blocks "./certs" breakingOut)) =
        ["/a \x7b\n\t\x7d\n\thandle /b"] := by
  decide +kernel

end Caddyfile

end ProxyConfig
