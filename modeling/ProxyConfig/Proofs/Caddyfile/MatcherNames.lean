import ProxyConfig.Proofs.Caddyfile.HandlerPlacement

/-!
The names of matchers at the two levels of a site.  The names of one level begin like names of the
other, so the levels meet where the id of a list spells out the difference.  Main statement: they
meet exactly where a list of the domain has the id `h_` and behind it the id of a list of a handler
placed there; such lists are never the same.
-/

namespace ProxyConfig.Caddyfile

open Directive

/-- No matcher of the block has the name of a matcher inside one of its handlers. -/
def Directive.ScopesApart (d : Directive) : Prop :=
  ∀ name ∈ d.matcherNames, ∀ handler ∈ d.handlers, name ∉ handler.matcherNames

/-- What an id has to begin with for its site-level name to be a handler-level one. -/
def scopeGap : String := "h_"

theorem handlerMatchers_eq : handlerMatchers = siteMatchers ++ scopeGap := by decide

theorem siteMatchers_append_eq_iff {s t : String} :
    siteMatchers ++ s = handlerMatchers ++ t ↔ s = scopeGap ++ t := by
  rw [handlerMatchers_eq, String.append_assoc]
  exact String.append_right_inj siteMatchers

theorem ne_of_siteMatchers_append_eq {s t : String}
    (h : siteMatchers ++ s = handlerMatchers ++ t) : s ≠ t := by
  intro same
  have length := congrArg String.length (siteMatchers_append_eq_iff.1 h)
  rw [same, String.length_append] at length
  have : scopeGap.length = 2 := by decide
  omega

theorem scopesApart_siteBlock_iff {certsDir : String} {doc : Document} {d : Domain} :
    (siteBlock certsDir doc (siteOf certsDir doc d)).ScopesApart ↔
      ∀ a ∈ enforced doc d.accessLists, ∀ h ∈ doc.handlers, h.PlacedIn doc d →
        ∀ b ∈ enforced doc h.accessLists, a.id ≠ scopeGap ++ b.id := by
  have domain : (siteOf certsDir doc d).domain = d := rfl
  unfold ScopesApart
  rw [matcherNames_siteBlock, handlers_siteBlock_siteOf, domain]
  constructor
  · intro apart a ha h hh placed b hb meet
    refine apart _ (List.mem_map_of_mem ha) _
      (List.mem_map_of_mem (List.mem_filter.2 ⟨hh, by simpa using placed⟩)) ?_
    rw [matcherNames_handlerBlock, siteMatchers_append_eq_iff.2 meet]
    exact List.mem_map_of_mem hb
  · intro apart name hname block hblock meet
    obtain ⟨a, ha, rfl⟩ := List.mem_map.1 hname
    obtain ⟨h, hh, rfl⟩ := List.mem_map.1 hblock
    obtain ⟨hh, placed⟩ := List.mem_filter.1 hh
    rw [matcherNames_handlerBlock] at meet
    obtain ⟨b, hb, hab⟩ := List.mem_map.1 meet
    exact apart a ha h hh (by simpa using placed) b hb (siteMatchers_append_eq_iff.1 hab.symm)

/-- Names that meet across the levels never stand for one list, and the names of a document's sites
stay apart exactly where no id of a domain's enforced list is `h_` and the id of an enforced list of
a handler placed in that domain. -/
theorem matcher_scopes_apart_iff (certsDir : String) (doc : Document) :
    (∀ a b : AccessList, siteMatchers ++ a.id = handlerMatchers ++ b.id → a.id ≠ b.id) ∧
      ((∀ block ∈ (blocks certsDir doc).tail, block.ScopesApart) ↔
        (doc.general.enabled = true → ∀ d ∈ doc.enabledDomains,
          ∀ a ∈ enforced doc d.accessLists, ∀ h ∈ doc.handlers, h.PlacedIn doc d →
            ∀ b ∈ enforced doc h.accessLists, a.id ≠ scopeGap ++ b.id)) := by
  refine ⟨fun a b => ne_of_siteMatchers_append_eq, ?_⟩
  by_cases on : doc.general.enabled = true
  · rw [tail_blocks on, List.forall_mem_map]
    simp only [scopesApart_siteBlock_iff, on, true_imp_iff]
  · simp [blocks, renderedSites, on]

def meetingScopes : Document where
  general := { enabled := true }
  domains := [{ Domain.serving "d" "d.example" with accessLists := ["h_x"] }]
  handlers := [{ Handler.proxying "h" "d" ["one"] (.ofNat 80) with accessLists := ["x"] }]
  accessLists := [
    { id := "h_x", clientIps := ["10.0.0.1"] },
    { id := "x", clientIps := ["10.0.0.2"] }]

theorem meetingScopes_meet :
    meetingScopes.accessList? "h_x" ≠ meetingScopes.accessList? "x" ∧
      ∃ block ∈ (blocks "./certs" meetingScopes).tail, "@al_h_x" ∈ block.matcherNames ∧
        ∃ handler ∈ block.handlers, "@al_h_x" ∈ handler.matcherNames := by
  decide

end ProxyConfig.Caddyfile
