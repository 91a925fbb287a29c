import ProxyConfig.Proofs.Caddyfile.HandlerPlacement
import ProxyConfig.Proofs.Lint.Links

/-!
What is rendered of a document about which nothing is found.  Main statement: if all of it is switched
on, each handler stands in the block of one site and of no other, all ids lead somewhere, and each
handler that passes requests on has one clause for that, with all its upstreams.
-/

namespace ProxyConfig.Caddyfile

open Directive Handler Document

section Places

variable {certsDir : String} {doc : Document} (linked : doc.Linked)
  (subdomainsOn : ∀ s ∈ doc.subdomains, s.enabled = true)
  (domainsOn : ∀ d ∈ doc.domains, d.enabled = true)
include linked

include subdomainsOn in
theorem exists_placedIn {h : Handler} (hh : h ∈ doc.handlers) (on : h.enabled = true) :
    ∃ d ∈ doc.domains, h.PlacedIn doc d := by
  rcases linked.handlers h hh with ⟨named, found⟩ | ⟨unnamed, named, found⟩
  · obtain ⟨s, hs, id⟩ := List.mem_map.1 found
    obtain ⟨d, hd, domain⟩ := List.mem_map.1 (linked.subdomains s hs)
    exact ⟨d, hd, on, .inl ⟨named, s, hs, subdomainsOn s hs, id, domain.symm⟩⟩
  · obtain ⟨d, hd, domain⟩ := List.mem_map.1 found
    exact ⟨d, hd, on, .inr ⟨unnamed, named, domain.symm⟩⟩

theorem eq_of_placedIn {h : Handler} {d e : Domain} (hd : d ∈ doc.domains) (he : e ∈ doc.domains)
    (atD : h.PlacedIn doc d) (atE : h.PlacedIn doc e) : d = e := by
  have subs : (doc.enabledSubdomains.map (·.id)).Nodup :=
    linked.subdomainIds.sublist (List.filter_sublist.map _)
  exact List.inj_on_of_nodup_map linked.domainIds hd he (PlacedIn.id_eq subs atD atE)

include subdomainsOn in
theorem exists_filter_placedIn {h : Handler} (hh : h ∈ doc.handlers) (on : h.enabled = true) :
    ∃ d, doc.domains.filter (fun d => h.PlacedIn doc d) = [d] := by
  obtain ⟨d, hd, atD⟩ := exists_placedIn linked subdomainsOn hh on
  have distinct : doc.domains.Nodup := .of_map _ linked.domainIds
  refine ⟨d, List.perm_singleton.1 ?_⟩
  refine (List.perm_ext_iff_of_nodup (distinct.filter _) (List.nodup_singleton d)).2 fun e => ?_
  rw [List.mem_filter, decide_eq_true_iff, List.mem_singleton]
  constructor
  · rintro ⟨he, atE⟩
    exact eq_of_placedIn linked he hd atE atD
  · rintro rfl
    exact ⟨hd, atD⟩

end Places

theorem renderedSites_eq {certsDir : String} {doc : Document} (on : doc.general.enabled = true)
    (domainsOn : ∀ d ∈ doc.domains, d.enabled = true) :
    renderedSites certsDir doc = doc.domains.map (siteOf certsDir doc) := by
  rw [renderedSites, if_pos on, sites, List.filter_eq_self.2 domainsOn]
  rfl

section Served

variable {certsDir : String} {doc : Document} (linked : doc.Linked)
  (on : doc.general.enabled = true) (domainsOn : ∀ d ∈ doc.domains, d.enabled = true)
  (subdomainsOn : ∀ s ∈ doc.subdomains, s.enabled = true)
include linked on domainsOn subdomainsOn

theorem exists_site_of_handler {h : Handler} (hh : h ∈ doc.handlers) (hon : h.enabled = true) :
    ∃ site, (renderedSites certsDir doc).filter (attaches h) = [site] := by
  obtain ⟨d, only⟩ := exists_filter_placedIn linked subdomainsOn hh hon
  refine ⟨siteOf certsDir doc d, ?_⟩
  have attached : (attaches h ∘ siteOf certsDir doc) = fun d => decide (h.PlacedIn doc d) := by
    funext d
    rw [Function.comp_apply, Bool.eq_iff_iff, attaches_siteOf_iff, decide_eq_true_iff]
  rw [renderedSites_eq on domainsOn, List.filter_map, attached, only, List.map_singleton]

theorem handlers_blocks_perm (handlersOn : ∀ h ∈ doc.handlers, h.enabled = true) :
    ((blocks certsDir doc).tail.flatMap Directive.handlers).Perm
      (doc.handlers.map (handlerBlock certsDir doc)) := by
  have apart : doc.domains.Pairwise fun d e => ∀ h ∈ doc.handlers,
      ¬ (decide (h.PlacedIn doc d) = true ∧ decide (h.PlacedIn doc e) = true) := by
    have distinct : doc.domains.Nodup := .of_map _ linked.domainIds
    refine distinct.imp_of_mem fun hd he ne h _ ⟨atD, atE⟩ => ne ?_
    exact eq_of_placedIn linked hd he (of_decide_eq_true atD) (of_decide_eq_true atE)
  have shared := flatMap_filter_perm _ doc.handlers apart
  have all : (doc.handlers.filter fun h => doc.domains.any fun d => decide (h.PlacedIn doc d)) =
      doc.handlers := by
    refine List.filter_eq_self.2 fun h hh => ?_
    obtain ⟨d, hd, atD⟩ := exists_placedIn linked subdomainsOn hh (handlersOn h hh)
    exact List.any_eq_true.2 ⟨d, hd, decide_eq_true atD⟩
  have enabled : doc.enabledDomains = doc.domains := List.filter_eq_self.2 domainsOn
  rw [tail_blocks on, enabled, List.flatMap_map]
  simp only [handlers_siteBlock_siteOf]
  rw [← List.map_flatMap]
  exact (shared.trans (.of_eq all)).map _

end Served

theorem upstreamList_eq (hosts : List String) (port : NumberText) :
    upstreamList hosts port =
      (hosts.filter fun host => !Text.blank host).map fun host =>
        upstreamAddress (Text.trim host) port := by
  have present (host : String) : present? host =
      if !Text.blank host then some (Text.trim host) else none := by
    have empty : (Text.trim host).isEmpty = Text.blank host := by
      rw [Bool.eq_iff_iff, String.isEmpty_iff, ← String.toList_eq_nil_iff, Text.toList_trim,
        Text.blank, List.isEmpty_iff]
    cases blank : Text.blank host <;> simp [present?, empty, blank]
  unfold upstreamList
  induction hosts with
  | nil => rfl
  | cons host hosts ih =>
    cases blank : Text.blank host <;> simp_all

theorem exists_proxy_clause {certsDir : String} {doc : Document} {h : Handler}
    (proxy : h.action = .proxy) (target : h.upstreams.filterMap present? ≠ []) :
    ∃ clause, (handlerBlock certsDir doc h).children.filter (·.name = "reverse_proxy") = [clause] ∧
      clause.args = upstreamList h.upstreams h.upstreamPort ∧ clause.args ≠ [] := by
  have some : upstreamList h.upstreams h.upstreamPort ≠ [] := by simpa [upstreamList] using target
  -- neither the rules nor the credentials hold a directive of that name
  have rules : (accessControl doc handlerMatchers h.accessLists).filter
      (·.name = "reverse_proxy") = [] := by
    refine List.filter_eq_nil_iff.2 fun d hd => ?_
    simpa using name_ne_of_mem_accessControl namesMatchers_handler hd (by decide) (by decide)
      (by decide)
  have auth : (basicAuth doc h.credentials).filter (·.name = "reverse_proxy") = [] := by
    refine List.filter_eq_nil_iff.2 fun d hd => ?_
    obtain ⟨credential, -, rfl⟩ := List.mem_map.1 hd
    simp [credentialBlock]
  obtain ⟨clause, action, name, args⟩ : ∃ clause,
      actionClauses certsDir h (h.headers.filterMap doc.header?) = [clause] ∧
        clause.name = "reverse_proxy" ∧ clause.args = upstreamList h.upstreams h.upstreamPort := by
    rw [actionClauses, proxy]
    dsimp only
    unfold reverseProxy
    split
    · exact absurd ‹_› some
    · exact ⟨_, rfl, rfl, rfl⟩
  refine ⟨clause, ?_, args, args ▸ some⟩
  simp only [children, handlerBlock, Option.getD_some, List.filter_append]
  rw [rules, auth, action]
  simp [name]

/-- If nothing is found about a document and all of it is switched on, each handler is rendered in
one site and the text holds no other handlers, every id that a domain or a handler refers to leads
somewhere, and each handler that passes requests on has one clause for it, with all its upstreams. -/
theorem handlers_served_of_lint_eq_nil (certsDir : String) (doc : Document)
    (clean : doc.lint = []) (on : doc.general.enabled = true)
    (domainsOn : ∀ d ∈ doc.domains, d.enabled = true)
    (subdomainsOn : ∀ s ∈ doc.subdomains, s.enabled = true)
    (handlersOn : ∀ h ∈ doc.handlers, h.enabled = true) :
    (∀ h ∈ doc.handlers, ∃ site, (renderedSites certsDir doc).filter (attaches h) = [site]) ∧
      ((blocks certsDir doc).tail.flatMap Directive.handlers).Perm
        (doc.handlers.map (handlerBlock certsDir doc)) ∧
      (∀ d ∈ doc.domains, (∀ id ∈ d.accessLists, (doc.accessList? id).isSome = true) ∧
        ∀ id ∈ d.credentials, (doc.credential? id).isSome = true) ∧
      (∀ h ∈ doc.handlers, (∀ id ∈ h.accessLists, (doc.accessList? id).isSome = true) ∧
        (∀ id ∈ h.credentials, (doc.credential? id).isSome = true) ∧
        ∀ id ∈ h.headers, (doc.header? id).isSome = true) ∧
      ∀ h ∈ doc.handlers, h.action = .proxy → ∃ clause,
        (handlerBlock certsDir doc h).children.filter (·.name = "reverse_proxy") = [clause] ∧
          clause.args ≠ [] ∧
          clause.args = (h.upstreams.filter fun host => !Text.blank host).map fun host =>
            upstreamAddress (Text.trim host) h.upstreamPort := by
  have linked := linked_of_lint_eq_nil clean
  refine ⟨fun h hh => exists_site_of_handler linked on domainsOn subdomainsOn hh (handlersOn h hh),
    handlers_blocks_perm linked on domainsOn subdomainsOn handlersOn, fun d hd => ⟨?_, ?_⟩,
    fun h hh => ⟨?_, ?_, ?_⟩, fun h hh proxy => ?_⟩
  · exact fun id hid => TextMap.isSome_find?_byId_iff.2 (linked.domainAccessLists d hd id hid)
  · exact fun id hid => TextMap.isSome_find?_byId_iff.2 (linked.domainCredentials d hd id hid)
  · exact fun id hid => TextMap.isSome_find?_byId_iff.2 (linked.handlerAccessLists h hh id hid)
  · exact fun id hid => TextMap.isSome_find?_byId_iff.2 (linked.handlerCredentials h hh id hid)
  · exact fun id hid => TextMap.isSome_find?_byId_iff.2 (linked.handlerHeaders h hh id hid)
  · obtain ⟨clause, one, args, some⟩ :=
      @exists_proxy_clause certsDir doc h proxy (linked.targets h hh proxy)
    exact ⟨clause, one, some, args.trans (upstreamList_eq h.upstreams h.upstreamPort)⟩

def fullyLinked : Document where
  general := { enabled := true }
  domains := [
    { Domain.serving "a" "a.example" with accessLists := ["office"] },
    { Domain.serving "b" "b.example" with credentials := ["root"] }]
  subdomains := [.serving "s" "b" "api"]
  handlers := [
    { Handler.proxying "api" "a" ["one", " ", "two"] (.ofNat 80) with
      subdomainId := "s", headers := ["trace"], accessLists := ["office"] },
    .redirecting "moved" "b" "a.example"]
  accessLists := [{ id := "office", clientIps := ["10.0.0.0/8"] }]
  credentials := [{ id := "root", username := "root", password := "hash" }]
  headers := [{ id := "trace", fieldName := "X-Trace", value := "on" }]

theorem handlers_served_of_lint_eq_nil_fullyLinked :
    fullyLinked.lint = [] ∧ fullyLinked.general.enabled = true ∧
      (∀ d ∈ fullyLinked.domains, d.enabled = true) ∧
      (∀ s ∈ fullyLinked.subdomains, s.enabled = true) ∧
      (∀ h ∈ fullyLinked.handlers, h.enabled = true) ∧
      ∀ h ∈ fullyLinked.handlers,
        ∃ site, (renderedSites "./certs" fullyLinked).filter (attaches h) = [site] := by
  have clean : fullyLinked.lint = [] := by decide +kernel
  have domainsOn : ∀ d ∈ fullyLinked.domains, d.enabled = true := by decide
  have subdomainsOn : ∀ s ∈ fullyLinked.subdomains, s.enabled = true := by decide
  have handlersOn : ∀ h ∈ fullyLinked.handlers, h.enabled = true := by decide
  have served := handlers_served_of_lint_eq_nil "./certs" fullyLinked clean rfl domainsOn
    subdomainsOn handlersOn
  exact ⟨clean, rfl, domainsOn, subdomainsOn, handlersOn, served.1⟩

end ProxyConfig.Caddyfile
