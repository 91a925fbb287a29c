import ProxyConfig.Proofs.Caddyfile.AccessRules
import ProxyConfig.Proofs.Caddyfile.HandlerPlacement
import ProxyConfig.Proofs.Lint.Links

/-!
References to access lists in a document about which nothing is found.  Each of them leads to a list,
and the list is enforced where it is referred to if it has an address.  A list without one is left out
as everywhere, and nothing is found about it.  Main statement: that having an address is all it takes,
in the blocks of domains and in those of handlers.
-/

namespace ProxyConfig

theorem AccessList.lint_eq_nil_of_not_hasAddress {list : AccessList} (none : ¬ list.HasAddress) :
    list.lint = [] := by
  have empty : Caddyfile.addresses list = [] :=
    not_not.1 fun some => none (Caddyfile.hasAddress_iff.2 some)
  rw [Caddyfile.addresses] at empty
  rw [AccessList.lint, Lint.addresses, empty]
  rfl

theorem Document.exists_refers {doc : Document} {id : String} (known : id ∈ doc.accessListIds) :
    ∃ list, doc.Refers id list := by
  have found : (doc.accessList? id).isSome = true := TextMap.isSome_find?_byId_iff.2 known
  obtain ⟨list, found⟩ := Option.isSome_iff_exists.1 found
  exact ⟨list, Caddyfile.accessList?_eq_some_iff.1 found⟩

namespace Caddyfile

open Directive

/-- The block defines the matcher of a list and has the rule that rejects by it. -/
def Directive.Enforces (names : String) (list : AccessList) (block : Directive) : Prop :=
  matcherBlock names list ∈ block.children ∧ rejectionRule names list ∈ block.children

section Block

variable {names : String} {doc : Document} {ids : List String} {block : Directive}
  {list : AccessList}

theorem enforces_of_mem_enforced (rules : accessControl doc names ids ⊆ block.children)
    (there : list ∈ enforced doc ids) : block.Enforces names list := by
  have mem {d : Directive} (hd : d ∈ [matcherBlock names list, rejectionRule names list]) :
      d ∈ block.children := by
    refine rules ?_
    rw [accessControl_eq]
    exact List.mem_flatMap.2 ⟨list, there, hd⟩
  exact ⟨mem List.mem_cons_self, mem (List.mem_cons_of_mem _ List.mem_cons_self)⟩

theorem hasAddress_of_mem_matchers {ds : List AccessList} (some : ∀ a ∈ ds, a.HasAddress)
    (there : matcherBlock names list ∈ ds.map (matcherBlock names)) : list.HasAddress := by
  obtain ⟨other, hother, same⟩ := List.mem_map.1 there
  have addresses : addresses other = addresses list := by
    simp only [matcherBlock, Directive.mk.injEq, Option.some.injEq, List.cons.injEq] at same
    exact same.2.2.1.2.1
  rw [hasAddress_iff, ← addresses, ← hasAddress_iff]
  exact some other hother

theorem not_enforces_of_matchers_eq_nil (begins : NamesMatchers names)
    (none : block.children.filter isMatcher = []) (list : AccessList) :
    ¬ block.Enforces names list := by
  rintro ⟨matcher, -⟩
  exact List.filter_eq_nil_iff.1 none _ matcher (isMatcher_matcherBlock begins list)

theorem enforces_iff_hasAddress (begins : NamesMatchers names)
    (matchers : block.children.filter isMatcher = (enforced doc ids).map (matcherBlock names))
    (rules : accessControl doc names ids ⊆ block.children) {id : String} (hid : id ∈ ids)
    (refers : doc.Refers id list) : block.Enforces names list ↔ list.HasAddress := by
  constructor
  · rintro ⟨matcher, -⟩
    have there := List.mem_filter.2 ⟨matcher, isMatcher_matcherBlock begins list⟩
    rw [matchers] at there
    refine hasAddress_of_mem_matchers (fun other hother => ?_) there
    obtain ⟨-, -, -, some⟩ := mem_enforced_iff.1 hother
    exact some
  · exact fun some => enforces_of_mem_enforced rules (mem_enforced_iff.2 ⟨id, hid, refers, some⟩)

end Block

theorem accessControl_subset_siteBlock (certsDir : String) (doc : Document) (site : Site) :
    accessControl doc siteMatchers site.domain.accessLists ⊆
      (siteBlock certsDir doc site).children := by
  intro d hd
  simp [children, siteBlock, hd]

theorem accessControl_subset_handlerBlock (certsDir : String) (doc : Document) (h : Handler) :
    accessControl doc handlerMatchers h.accessLists ⊆ (handlerBlock certsDir doc h).children := by
  intro d hd
  simp [children, handlerBlock, hd]

/-- If nothing is found about a document whose sites are switched on, each access list that an enabled
domain or a rendered handler refers to is there, and in the block of the domain or handler it is
enforced exactly if it has an address.  About a list without one there is nothing to be found. -/
theorem references_enforced_iff_hasAddress (certsDir : String) (doc : Document)
    (clean : doc.lint = []) (on : doc.general.enabled = true) :
    (∀ d ∈ doc.enabledDomains,
        siteBlock certsDir doc (siteOf certsDir doc d) ∈ (blocks certsDir doc).tail ∧
        ∀ id ∈ d.accessLists, ∃ list, doc.Refers id list ∧
          ((siteBlock certsDir doc (siteOf certsDir doc d)).Enforces siteMatchers list ↔
            list.HasAddress)) ∧
      (∀ d ∈ doc.enabledDomains, ∀ h ∈ doc.handlers, h.PlacedIn doc d →
        handlerBlock certsDir doc h ∈ (siteBlock certsDir doc (siteOf certsDir doc d)).handlers ∧
        ∀ id ∈ h.accessLists, ∃ list, doc.Refers id list ∧
          ((handlerBlock certsDir doc h).Enforces handlerMatchers list ↔ list.HasAddress)) ∧
      ∀ list : AccessList, ¬ list.HasAddress → list.lint = [] := by
  have linked := Document.linked_of_lint_eq_nil clean
  refine ⟨fun d hd => ⟨?_, fun id hid => ?_⟩, fun d hd h hh placed => ⟨?_, fun id hid => ?_⟩,
    fun list => AccessList.lint_eq_nil_of_not_hasAddress⟩
  · rw [tail_blocks on]
    exact List.mem_map_of_mem hd
  · have known := linked.domainAccessLists d (List.mem_of_mem_filter hd) id hid
    obtain ⟨list, refers⟩ := Document.exists_refers known
    exact ⟨list, refers, enforces_iff_hasAddress namesMatchers_site (matchers_siteBlock _ _ _)
      (accessControl_subset_siteBlock certsDir doc (siteOf certsDir doc d)) hid refers⟩
  · rw [handlers_siteBlock_siteOf]
    exact List.mem_map_of_mem (List.mem_filter.2 ⟨hh, decide_eq_true placed⟩)
  · obtain ⟨list, refers⟩ := Document.exists_refers (linked.handlerAccessLists h hh id hid)
    exact ⟨list, refers, enforces_iff_hasAddress namesMatchers_handler
      (matchers_handlerBlock _ _ _) (accessControl_subset_handlerBlock certsDir doc h) hid refers⟩

def guardedBy (office home : List String) : Document where
  general := { enabled := true }
  domains := [{ Domain.serving "d" "d.example" with accessLists := ["office"] }]
  handlers := [{ Handler.proxying "h" "d" ["one"] (.ofNat 80) with accessLists := ["home"] }]
  accessLists := [{ id := "office", clientIps := office }, { id := "home", clientIps := home }]

/-- Neither list is enforced, since the one is empty and the other is blank. -/
theorem guardedBy_nobody :
    (guardedBy [] [" "]).lint = [] ∧ (guardedBy [] [" "]).general.enabled = true ∧
      (blocks "./certs" (guardedBy [] [" "])).tail.map (·.handlers.length) = [1] ∧
      ∀ site ∈ (blocks "./certs" (guardedBy [] [" "])).tail,
        (∀ list, ¬ site.Enforces siteMatchers list) ∧
          ∀ handler ∈ site.handlers, ∀ list, ¬ handler.Enforces handlerMatchers list := by
  have unmatched : ∀ site ∈ (blocks "./certs" (guardedBy [] [" "])).tail,
      (site.children.filter isMatcher).length = 0 ∧
        ∀ handler ∈ site.handlers, (handler.children.filter isMatcher).length = 0 := by
    decide +kernel
  refine ⟨by decide +kernel, rfl, by decide +kernel, fun site hsite => ?_⟩
  obtain ⟨own, inside⟩ := unmatched site hsite
  exact ⟨not_enforces_of_matchers_eq_nil namesMatchers_site (List.length_eq_zero_iff.1 own),
    fun handler hhandler => not_enforces_of_matchers_eq_nil namesMatchers_handler
      (List.length_eq_zero_iff.1 (inside handler hhandler))⟩

theorem references_enforced_iff_hasAddress_guarded :
    (guardedBy ["10.0.0.0/8"] [" 10.0.0.1 "]).lint = [] ∧
      (guardedBy ["10.0.0.0/8"] [" 10.0.0.1 "]).general.enabled = true ∧
      ∀ h ∈ (guardedBy ["10.0.0.0/8"] [" 10.0.0.1 "]).handlers, ∀ id ∈ h.accessLists,
        ∃ list, (guardedBy ["10.0.0.0/8"] [" 10.0.0.1 "]).Refers id list ∧
          (handlerBlock "./certs" (guardedBy ["10.0.0.0/8"] [" 10.0.0.1 "]) h).Enforces
            handlerMatchers list := by
  have clean : (guardedBy ["10.0.0.0/8"] [" 10.0.0.1 "]).lint = [] := by decide +kernel
  have addresses : ∀ list ∈ (guardedBy ["10.0.0.0/8"] [" 10.0.0.1 "]).accessLists,
      addresses list ≠ [] := by decide
  have placed : ∀ h ∈ (guardedBy ["10.0.0.0/8"] [" 10.0.0.1 "]).handlers, h.PlacedIn
      (guardedBy ["10.0.0.0/8"] [" 10.0.0.1 "])
      { Domain.serving "d" "d.example" with accessLists := ["office"] } := by decide
  refine ⟨clean, rfl, fun h hh id hid => ?_⟩
  obtain ⟨-, handlers, -⟩ := references_enforced_iff_hasAddress "./certs" _ clean rfl
  obtain ⟨list, refers, enforced⟩ := (handlers _ List.mem_cons_self h hh (placed h hh)).2 id hid
  have there := (TextMap.mem_of_find?_byId (accessList?_eq_some_iff.2 refers)).2
  exact ⟨list, refers, enforced.2 (hasAddress_iff.2 (addresses list there))⟩

end Caddyfile

end ProxyConfig
