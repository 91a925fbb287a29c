import Mathlib.Data.List.Nodup
import ProxyConfig.Proofs.Caddyfile.BlockContents
import ProxyConfig.Proofs.Document.Thinned

/-!
Where handlers are rendered.  A handler's place is said in terms of the document alone: the domain
of the enabled subdomain it names, or else the domain it names.  Main statement: the blocks of
handlers in a site's block are those of the handlers placed in its domain, in order, and where ids
do not repeat, each handler is rendered at most once.
-/

namespace ProxyConfig

namespace Handler

/-- A handler that names a subdomain is placed in the domain of the enabled subdomain with this id;
one that names none is placed in the domain that it names, if it names one. -/
def PlacedIn (doc : Document) (d : Domain) (h : Handler) : Prop :=
  h.enabled = true ∧
    ((h.subdomainId ≠ "" ∧
        ∃ s ∈ doc.subdomains, s.enabled = true ∧ s.id = h.subdomainId ∧ s.domainId = d.id) ∨
      (h.subdomainId = "" ∧ h.domainId ≠ "" ∧ h.domainId = d.id))

instance (doc : Document) (d : Domain) : DecidablePred (PlacedIn doc d) := fun _ =>
  inferInstanceAs (Decidable (_ ∧ _))

/-- The same handler with another domain, which counts only if no subdomain is named. -/
def rebound (newDomain : Handler → String) (h : Handler) : Handler :=
  if h.subdomainId = "" then h else { h with domainId := newDomain h }

end Handler

namespace Document

def enabledDomains (doc : Document) : List Domain := doc.domains.filter (·.enabled)

def enabledSubdomains (doc : Document) : List Subdomain := doc.subdomains.filter (·.enabled)

/-- The document with other domains for the handlers that name a subdomain. -/
def rebound (newDomain : Handler → String) (doc : Document) : Document :=
  { doc with handlers := doc.handlers.map (Handler.rebound newDomain) }

end Document

namespace Caddyfile

open Handler Document
open scoped List

def siteOf (certsDir : String) (doc : Document) (d : Domain) : Site :=
  .of certsDir (doc.subdomainsOf d.id) d

theorem attaches_siteOf_iff {certsDir : String} {doc : Document} {d : Domain} {h : Handler} :
    attaches h (siteOf certsDir doc d) = true ↔ h.PlacedIn doc d := by
  have serves : (siteOf certsDir doc d).serves h.subdomainId = true ↔
      ∃ s ∈ doc.subdomains, s.enabled = true ∧ s.id = h.subdomainId ∧ s.domainId = d.id := by
    simp only [Site.serves, siteOf, Site.of, subdomainsOf_eq, List.any_eq_true, List.mem_filter,
      Bool.and_eq_true, decide_eq_true_eq]
    exact ⟨fun ⟨s, ⟨hs, he, hd⟩, hi⟩ => ⟨s, hs, he, hi, hd⟩,
      fun ⟨s, hs, he, hi, hd⟩ => ⟨s, ⟨hs, he, hd⟩, hi⟩⟩
  unfold attaches PlacedIn
  rw [Bool.and_eq_true]
  refine and_congr_right fun _ => ?_
  by_cases hsub : h.subdomainId = ""
  · have sameDomain : (decide (h.domainId = (siteOf certsDir doc d).domain.id)) = true ↔
        h.domainId = d.id := decide_eq_true_iff
    rw [if_pos (by simp [hsub]), Bool.and_eq_true, sameDomain]
    simp [hsub]
  · rw [if_neg (by simpa using hsub), serves]
    simp [hsub]

theorem tail_blocks {certsDir : String} {doc : Document} (on : doc.general.enabled = true) :
    (blocks certsDir doc).tail =
      doc.enabledDomains.map fun d => siteBlock certsDir doc (siteOf certsDir doc d) := by
  simp [blocks, renderedSites, on, sites, enabledDomains, siteOf]

theorem mem_renderedSites_iff {certsDir : String} {doc : Document} {site : Site} :
    site ∈ renderedSites certsDir doc ↔
      doc.general.enabled = true ∧ ∃ d ∈ doc.enabledDomains, siteOf certsDir doc d = site := by
  unfold renderedSites
  cases doc.general.enabled <;> simp [sites, enabledDomains, siteOf]

theorem compile_eq_of_blocks_eq {certsDir : String} {doc doc' : Document}
    (same : blocks certsDir doc' = blocks certsDir doc) :
    compile certsDir doc' = compile certsDir doc := by
  have made (doc : Document) : compile certsDir doc =
      ⟨Directive.format (blocks certsDir doc), (blocks certsDir doc).tail.length⟩ := by
    simp [compile, blocks]
  rw [made, made, same]

/-- A document compiles to the same with the same global options, the same sites and the same block for
each of them. -/
theorem compile_eq_of_siteBlock_eq {certsDir : String} {doc doc' : Document}
    (options : globalOptions doc'.general doc'.rawRoutes = globalOptions doc.general doc.rawRoutes)
    (rendered : renderedSites certsDir doc' = renderedSites certsDir doc)
    (same : ∀ site ∈ renderedSites certsDir doc,
      siteBlock certsDir doc' site = siteBlock certsDir doc site) :
    compile certsDir doc' = compile certsDir doc := by
  simp only [compile, blocks, options, rendered, List.map_congr_left same]

theorem filter_attaches_siteOf (certsDir : String) (doc : Document) (d : Domain) :
    doc.handlers.filter (attaches · (siteOf certsDir doc d)) =
      doc.handlers.filter (·.PlacedIn doc d) := by
  refine List.filter_congr fun h _ => ?_
  rw [Bool.eq_iff_iff, attaches_siteOf_iff, decide_eq_true_iff]

theorem handlers_siteBlock_siteOf (certsDir : String) (doc : Document) (d : Domain) :
    (siteBlock certsDir doc (siteOf certsDir doc d)).handlers =
      (doc.handlers.filter (·.PlacedIn doc d)).map (handlerBlock certsDir doc) := by
  rw [handlers_siteBlock, filter_attaches_siteOf]

theorem handlerBlock_rebound (certsDir : String) (doc : Document) (newDomain : Handler → String)
    (h : Handler) :
    handlerBlock certsDir (doc.rebound newDomain) (h.rebound newDomain) =
      handlerBlock certsDir doc h := by
  unfold Handler.rebound
  split <;> rfl

theorem attaches_rebound (newDomain : Handler → String) (h : Handler) (site : Site) :
    attaches (h.rebound newDomain) site = attaches h site := by
  unfold Handler.rebound
  split
  · rfl
  · simp [attaches, *]

theorem siteBlock_rebound (certsDir : String) (doc : Document) (newDomain : Handler → String)
    (site : Site) :
    siteBlock certsDir (doc.rebound newDomain) site = siteBlock certsDir doc site := by
  have same : ((doc.rebound newDomain).handlers.filter (attaches · site)).map
        (handlerBlock certsDir (doc.rebound newDomain)) =
      (doc.handlers.filter (attaches · site)).map (handlerBlock certsDir doc) := by
    simp only [Document.rebound, List.filter_map, List.map_map]
    congr 1
    · funext h
      exact handlerBlock_rebound certsDir doc newDomain h
    · congr 1
      funext h
      exact attaches_rebound newDomain h site
  unfold siteBlock
  rw [same]
  rfl

theorem blocks_rebound (certsDir : String) (doc : Document) (newDomain : Handler → String) :
    blocks certsDir (doc.rebound newDomain) = blocks certsDir doc := by
  simp only [blocks, List.cons.injEq]
  exact ⟨rfl, List.map_congr_left fun site _ => siteBlock_rebound certsDir doc newDomain site⟩

theorem PlacedIn.domainId_eq {doc : Document} (subs : (doc.enabledSubdomains.map (·.id)).Nodup)
    {s : Subdomain} (hs : s ∈ doc.enabledSubdomains) {h : Handler} (named : h.subdomainId = s.id)
    (nonempty : s.id ≠ "") {d : Domain} (placed : h.PlacedIn doc d) : s.domainId = d.id := by
  obtain ⟨-, ⟨-, t, ht, he, hi, hd⟩ | ⟨hempty, -⟩⟩ := placed
  · have ht' : t ∈ doc.enabledSubdomains := by simp [enabledSubdomains, ht, he]
    have same : t = s := List.inj_on_of_nodup_map subs ht' hs (hi.trans named)
    rw [← same, hd]
  · exact absurd (named ▸ hempty) nonempty

theorem PlacedIn.id_eq {doc : Document} (subs : (doc.enabledSubdomains.map (·.id)).Nodup)
    {h : Handler} {d e : Domain} (hd : h.PlacedIn doc d) (he : h.PlacedIn doc e) : d.id = e.id := by
  obtain ⟨-, ⟨hsub, s, hs, hen, hi, hsd⟩ | ⟨hempty, -, hdom⟩⟩ := hd
  · have hs' : s ∈ doc.enabledSubdomains := by simp [enabledSubdomains, hs, hen]
    exact hsd.symm.trans (PlacedIn.domainId_eq subs hs' hi.symm (hi ▸ hsub) he)
  · obtain ⟨-, ⟨hsub, -⟩ | ⟨-, -, hdom'⟩⟩ := he
    · exact absurd hempty hsub
    · exact hdom.symm.trans hdom'

/-- The block of each enabled domain holds the blocks of the handlers placed there, in order; the
domain that a handler names beside a subdomain counts for nothing; and with ids that do not repeat,
no handler is placed twice, and the whole text has one block for each handler that is placed. -/
theorem handlers_rendered_where_placed (certsDir : String) (doc : Document)
    (on : doc.general.enabled = true) :
    (blocks certsDir doc).tail.map Directive.handlers =
        doc.enabledDomains.map (fun d =>
          (doc.handlers.filter (·.PlacedIn doc d)).map (handlerBlock certsDir doc)) ∧
      (∀ newDomain, blocks certsDir (doc.rebound newDomain) = blocks certsDir doc) ∧
      ((doc.enabledDomains.map (·.id)).Nodup → (doc.enabledSubdomains.map (·.id)).Nodup →
        doc.enabledDomains.Pairwise
          (fun d e => ∀ h : Handler, ¬ (h.PlacedIn doc d ∧ h.PlacedIn doc e)) ∧
        ((blocks certsDir doc).tail.flatMap Directive.handlers).Perm
          ((doc.handlers.filter fun h => ∃ d ∈ doc.enabledDomains, h.PlacedIn doc d).map
            (handlerBlock certsDir doc)) ∧
        ∀ s ∈ doc.enabledSubdomains, s.id ≠ "" → ∀ h : Handler, h.subdomainId = s.id →
          ∀ d, h.PlacedIn doc d → s.domainId = d.id) := by
  have perSite : (blocks certsDir doc).tail.map Directive.handlers =
      doc.enabledDomains.map fun d =>
        (doc.handlers.filter (·.PlacedIn doc d)).map (handlerBlock certsDir doc) := by
    rw [tail_blocks on, List.map_map]
    exact List.map_congr_left fun d _ => handlers_siteBlock_siteOf certsDir doc d
  refine ⟨perSite, blocks_rebound certsDir doc, fun domains subs => ?_⟩
  -- no handler is placed twice, so the sites share the handlers out
  have apart : doc.enabledDomains.Pairwise
      fun d e => ∀ h : Handler, ¬ (h.PlacedIn doc d ∧ h.PlacedIn doc e) :=
    (List.pairwise_map.1 domains).imp fun hne h ⟨hd, he⟩ => hne (PlacedIn.id_eq subs hd he)
  refine ⟨apart, ?_, fun s hs nonempty h named d => PlacedIn.domainId_eq subs hs named nonempty⟩
  have shared := flatMap_filter_perm (fun (d : Domain) (h : Handler) => decide (h.PlacedIn doc d))
    doc.handlers (apart.imp fun hne h _ => by simpa using fun hd he => hne h ⟨hd, he⟩)
  rw [List.flatMap_def, perSite, ← List.flatMap_def, ← List.map_flatMap]
  refine (shared.map _).trans (.of_eq ?_)
  congr 1
  refine List.filter_congr fun h _ => ?_
  rw [Bool.eq_iff_iff]
  simp

def twoDomains : Document where
  general := { enabled := true }
  domains := [.serving "a" "a.example", .serving "b" "b.example"]
  subdomains := [.serving "s" "b" "api"]
  handlers := [
    { Handler.proxying "foreign" "a" ["one"] (.ofNat 80) with subdomainId := "s" },
    { Handler.proxying "dangling" "a" ["two"] (.ofNat 80) with subdomainId := "t" },
    .proxying "direct" "a" ["three"] (.ofNat 80)]

theorem handlers_rendered_where_placed_twoDomains :
    twoDomains.general.enabled = true ∧ (twoDomains.enabledDomains.map (·.id)).Nodup ∧
      (twoDomains.enabledSubdomains.map (·.id)).Nodup ∧
      ((blocks "./certs" twoDomains).tail.flatMap Directive.handlers).Perm
        ((twoDomains.handlers.filter fun h =>
            ∃ d ∈ twoDomains.enabledDomains, h.PlacedIn twoDomains d).map
          (handlerBlock "./certs" twoDomains)) := by
  have domains : (twoDomains.enabledDomains.map (·.id)).Nodup := by decide
  have subs : (twoDomains.enabledSubdomains.map (·.id)).Nodup := by decide
  have rendered := handlers_rendered_where_placed "./certs" twoDomains rfl
  exact ⟨rfl, domains, subs, (rendered.2.2 domains subs).2.1⟩

end Caddyfile

end ProxyConfig
