import ProxyConfig.Proofs.Caddyfile.HandlerPlacement

/-!
Sites side by side.  The text of a document is that of its global options with the texts of its sites
behind it, and a site's text comes from its own domain and from what is bound to it.  Main statement:
without its sites a document has the same global options; another domain adds its own text in its
place and changes no other one; and handlers or subdomains that have no site in common may change
places.
-/

namespace ProxyConfig

theorem filter_swap (p : α → Bool) {a b : α} (apart : ¬ (p a = true ∧ p b = true))
    (before after : List α) :
    (before ++ b :: a :: after).filter p = (before ++ a :: b :: after).filter p := by
  rw [List.filter_append, List.filter_append]
  congr 1
  cases keepsA : p a with
  | false => simp [keepsA, List.filter_cons]
  | true =>
    have dropsB : p b = false := by simpa [keepsA] using apart
    simp [keepsA, dropsB]

def Document.switched (on : Bool) (doc : Document) : Document :=
  { doc with general := { doc.general with enabled := on } }

namespace Caddyfile

def globalText (doc : Document) : String :=
  Directive.format [globalOptions doc.general doc.rawRoutes]

def siteText (certsDir : String) (doc : Document) (d : Domain) : String :=
  Directive.format [siteBlock certsDir doc (siteOf certsDir doc d)]

def siteTexts (certsDir : String) (doc : Document) : List String :=
  (blocks certsDir doc).tail.map fun block => Directive.format [block]

theorem format_eq_join (blocks : List Directive) :
    Directive.format blocks = String.join (blocks.map fun block => Directive.format [block]) := by
  induction blocks with
  | nil => rfl
  | cons block blocks ih =>
    rw [← List.singleton_append, Directive.format_append, ih]
    simp

theorem text_compile (certsDir : String) (doc : Document) :
    (compile certsDir doc).text = globalText doc ++ String.join (siteTexts certsDir doc) := by
  rw [siteTexts, ← format_eq_join, globalText, ← Directive.format_append]
  rfl

theorem siteTexts_of_enabled {certsDir : String} {doc : Document}
    (on : doc.general.enabled = true) :
    siteTexts certsDir doc = doc.enabledDomains.map (siteText certsDir doc) := by
  rw [siteTexts, tail_blocks on, List.map_map]
  rfl

theorem siteTexts_of_not_enabled {certsDir : String} {doc : Document}
    (off : doc.general.enabled = false) : siteTexts certsDir doc = [] := by
  simp [siteTexts, blocks, renderedSites, off]

section Swap

variable {certsDir : String} {doc : Document}

theorem siteBlock_swap_handlers {before after : List Handler} {h k : Handler}
    (listed : doc.handlers = before ++ h :: k :: after) {site : Site}
    (apart : ¬ (attaches h site = true ∧ attaches k site = true)) :
    siteBlock certsDir { doc with handlers := before ++ k :: h :: after } site =
      siteBlock certsDir doc site := by
  have placed := filter_swap (attaches · site) apart before after
  rw [← listed] at placed
  simp only [siteBlock, placed]
  rfl

theorem compile_swap_handlers {before after : List Handler} {h k : Handler}
    (listed : doc.handlers = before ++ h :: k :: after)
    (apart : ∀ site ∈ doc.sites certsDir, ¬ (attaches h site = true ∧ attaches k site = true)) :
    compile certsDir { doc with handlers := before ++ k :: h :: after } = compile certsDir doc := by
  refine compile_eq_of_siteBlock_eq rfl rfl fun site there => ?_
  obtain ⟨-, d, enabled, rfl⟩ := mem_renderedSites_iff.1 there
  exact siteBlock_swap_handlers listed (apart _ (List.mem_map_of_mem enabled))

theorem compile_swap_subdomains {before after : List Subdomain} {s t : Subdomain}
    (listed : doc.subdomains = before ++ s :: t :: after) (apart : s.domainId ≠ t.domainId) :
    compile certsDir { doc with subdomains := before ++ t :: s :: after } =
      compile certsDir doc := by
  have same (domainId : String) :
      { doc with subdomains := before ++ t :: s :: after }.subdomainsOf domainId =
        doc.subdomainsOf domainId := by
    rw [Document.subdomainsOf_eq, Document.subdomainsOf_eq, listed]
    refine filter_swap _ ?_ before after
    rintro ⟨ofS, ofT⟩
    simp only [Bool.and_eq_true, decide_eq_true_eq] at ofS ofT
    exact apart (ofS.2.trans ofT.2.symm)
  have rendered : renderedSites certsDir { doc with subdomains := before ++ t :: s :: after } =
      renderedSites certsDir doc := by
    simp only [renderedSites, Document.sites, same]
  exact compile_eq_of_siteBlock_eq rfl rendered fun _ _ => rfl

end Swap

/-- Without its sites, a document's text is that of the global options, with which its text begins.
With them, one more domain adds the text of its own site in its place, if it is enabled, and all other
texts stay; and neighbouring handlers that attach to no common site, or neighbouring subdomains of
different domains, may change places. -/
theorem sites_independent (certsDir : String) (doc : Document) :
    ((compile certsDir (doc.switched false)).text = globalText doc ∧
        (compile certsDir (doc.switched true)).text =
          globalText doc ++ String.join (siteTexts certsDir (doc.switched true))) ∧
      (∀ before d after, doc.general.enabled = true → doc.domains = before ++ after →
        let more := { doc with domains := before ++ d :: after }
        ∃ front back, front.length = (before.filter (·.enabled)).length ∧
          siteTexts certsDir doc = front ++ back ∧
          siteTexts certsDir more =
            front ++ (if d.enabled then [siteText certsDir more d] else []) ++ back ∧
          (compile certsDir doc).text = globalText doc ++ String.join (siteTexts certsDir doc) ∧
          (compile certsDir more).text = globalText doc ++ String.join (siteTexts certsDir more)) ∧
      (∀ before h k after, doc.handlers = before ++ h :: k :: after →
        (∀ site ∈ doc.sites certsDir, ¬ (attaches h site = true ∧ attaches k site = true)) →
        compile certsDir { doc with handlers := before ++ k :: h :: after } =
          compile certsDir doc) ∧
      ∀ before s t after, doc.subdomains = before ++ s :: t :: after → s.domainId ≠ t.domainId →
        compile certsDir { doc with subdomains := before ++ t :: s :: after } =
          compile certsDir doc := by
  refine ⟨⟨?_, text_compile certsDir (doc.switched true)⟩, fun before d after on listed => ?_,
    fun before h k after listed apart => compile_swap_handlers listed apart,
    fun before s t after listed apart => compile_swap_subdomains listed apart⟩
  · rw [text_compile, siteTexts_of_not_enabled rfl]
    exact String.append_empty
  · refine ⟨(before.filter (·.enabled)).map (siteText certsDir doc),
      (after.filter (·.enabled)).map (siteText certsDir doc), List.length_map _, ?_, ?_,
      text_compile _ _, text_compile _ _⟩
    · rw [siteTexts_of_enabled on, Document.enabledDomains, listed, List.filter_append,
        List.map_append]
    · -- no site's block looks at the other domains
      have texts : siteTexts certsDir { doc with domains := before ++ d :: after } =
          ((before ++ d :: after).filter (·.enabled)).map (siteText certsDir doc) :=
        siteTexts_of_enabled on
      rw [texts, List.filter_append, List.filter_cons, List.map_append, List.append_assoc]
      cases d.enabled <;> rfl

def neighbours : Document where
  general := { enabled := true }
  domains := [.serving "a" "a.example", .serving "b" "b.example"]
  subdomains := [.serving "s" "b" "api", .serving "t" "a" "www"]
  handlers := [
    { Handler.proxying "first" "a" ["one"] (.ofNat 80) with subdomainId := "s" },
    .proxying "second" "a" ["two"] (.ofNat 80)]

theorem sites_independent_neighbours :
    neighbours.general.enabled = true ∧
      (∃ front back, front.length = 1 ∧
        siteTexts "./certs" { neighbours with
            domains := [.serving "a" "a.example", .serving "a" "c.example",
              .serving "b" "b.example"] } =
          front ++ [siteText "./certs" neighbours (.serving "a" "c.example")] ++ back ∧
        siteTexts "./certs" neighbours = front ++ back) ∧
      compile "./certs" { neighbours with handlers := neighbours.handlers.reverse } =
        compile "./certs" neighbours ∧
      compile "./certs" { neighbours with subdomains := neighbours.subdomains.reverse } =
        compile "./certs" neighbours := by
  obtain ⟨-, insert, handlers, subdomains⟩ := sites_independent "./certs" neighbours
  obtain ⟨front, back, length, fewer, more, -⟩ :=
    insert [.serving "a" "a.example"] (.serving "a" "c.example") [.serving "b" "b.example"] rfl rfl
  exact ⟨rfl, ⟨front, back, length, more, fewer⟩, handlers [] _ _ [] rfl (by decide +kernel),
    subdomains [] _ _ [] rfl (by decide)⟩

end Caddyfile

end ProxyConfig
