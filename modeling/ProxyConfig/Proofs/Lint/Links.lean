import Mathlib.Data.List.Nodup
import ProxyConfig.Lookup
import ProxyConfig.Proofs.Lint.FoundByCheck

/-!
What it says about a document that nothing is found about it: ids are distinct, and every reference
leads somewhere.  Main statements: each check is passed exactly if what it looks for is so
(`duplicates_eq_nil_iff`, `references_eq_nil_iff`), and a document without findings is linked
throughout (`linked_of_lint_eq_nil`).
-/

namespace ProxyConfig

namespace Lint

theorem repeated_eq_nil_iff {xs : List String} : repeated xs = [] ↔ xs.Nodup := by
  rw [List.nodup_iff_count_le_one, List.eq_nil_iff_forall_not_mem]
  refine forall_congr' fun x => ?_
  rw [mem_repeated_iff]
  omega

theorem duplicates_eq_nil_iff {collection : Collection} {ids : List String} :
    duplicates collection ids = [] ↔ ids.Nodup := by
  rw [duplicates, List.map_eq_nil_iff, repeated_eq_nil_iff]

theorem references_eq_nil_iff {owner : Owner} {target : Target} {known ids : List String} :
    references owner target known ids = [] ↔ ∀ id ∈ ids, id ∈ known := by
  simp [references]

end Lint

namespace Document

/-- Ids of domains and of subdomains are distinct, what names another entity names one that is there,
and a handler names a place and, if it passes requests on, a host to pass them to. -/
structure Linked (doc : Document) : Prop where
  domainIds : doc.domainIds.Nodup
  subdomainIds : doc.subdomainIds.Nodup
  subdomains : ∀ s ∈ doc.subdomains, s.domainId ∈ doc.domainIds
  handlers : ∀ h ∈ doc.handlers,
    (h.subdomainId ≠ "" ∧ h.subdomainId ∈ doc.subdomainIds) ∨
      (h.subdomainId = "" ∧ h.domainId ≠ "" ∧ h.domainId ∈ doc.domainIds)
  targets : ∀ h ∈ doc.handlers, h.action = .proxy → h.upstreams.filterMap Caddyfile.present? ≠ []
  domainAccessLists : ∀ d ∈ doc.domains, ∀ id ∈ d.accessLists, id ∈ doc.accessListIds
  domainCredentials : ∀ d ∈ doc.domains, ∀ id ∈ d.credentials, id ∈ doc.credentialIds
  handlerAccessLists : ∀ h ∈ doc.handlers, ∀ id ∈ h.accessLists, id ∈ doc.accessListIds
  handlerCredentials : ∀ h ∈ doc.handlers, ∀ id ∈ h.credentials, id ∈ doc.credentialIds
  handlerHeaders : ∀ h ∈ doc.handlers, ∀ id ∈ h.headers, id ∈ doc.headerIds

open Lint

variable {doc : Document}

theorem bound_of_lintBinding_eq_nil {h : Handler} (clean : doc.lintBinding h = []) :
    (h.subdomainId ≠ "" ∧ h.subdomainId ∈ doc.subdomainIds) ∨
      (h.subdomainId = "" ∧ h.domainId ≠ "" ∧ h.domainId ∈ doc.domainIds) := by
  unfold lintBinding at clean
  split at clean
  case isTrue named =>
    exact .inl ⟨named, references_eq_nil_iff.1 clean _ (List.mem_singleton_self _)⟩
  case isFalse unnamed =>
    split at clean
    case isTrue named =>
      exact .inr ⟨not_not.1 unnamed, named,
        references_eq_nil_iff.1 clean _ (List.mem_singleton_self _)⟩
    case isFalse => cases clean

theorem targets_of_lintTargets_eq_nil {h : Handler} (clean : h.lintTargets = [])
    (proxy : h.action = .proxy) : h.upstreams.filterMap Caddyfile.present? ≠ [] := by
  intro none
  simp [Handler.lintTargets, proxy, none] at clean

theorem linked_of_lint_eq_nil (clean : doc.lint = []) : doc.Linked := by
  simp only [lint, lintIds, lintDomain, lintSubdomain, lintHandler, List.append_eq_nil_iff,
    List.flatMap_eq_nil_iff, duplicates_eq_nil_iff, references_eq_nil_iff] at clean
  obtain ⟨⟨⟨⟨⟨⟨ids, -⟩, domains⟩, subdomains⟩, handlers⟩, -⟩, -⟩ := clean
  exact
    { domainIds := ids.1.1.1.1.1.1
      subdomainIds := ids.1.1.1.1.1.2
      subdomains := fun s hs => (subdomains s hs).1.1.1 _ (List.mem_singleton_self _)
      handlers := fun h hh => bound_of_lintBinding_eq_nil (handlers h hh).1.1.1.1.1
      targets := fun h hh => targets_of_lintTargets_eq_nil (handlers h hh).2
      domainAccessLists := fun d hd => (domains d hd).1.2
      domainCredentials := fun d hd => (domains d hd).2
      handlerAccessLists := fun h hh => (handlers h hh).1.1.1.1.2
      handlerCredentials := fun h hh => (handlers h hh).1.1.1.2
      handlerHeaders := fun h hh => (handlers h hh).1.1.2 }

end Document

end ProxyConfig
