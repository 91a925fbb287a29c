import ProxyConfig.Proofs.Caddyfile.BlockContents

/-!
The scheme of a site's addresses beside the way the site ends TLS.  The scheme is the one typed in
front of the host, or else the one that goes with the domain's switch for TLS; TLS is ended as the
switch says, whatever is typed.  Main statement: the two agree exactly where no scheme is typed in
front of the host that speaks against the switch.
-/

namespace ProxyConfig

namespace Domain

def typedScheme? (d : Domain) : Option String := (splitScheme (Text.trimmed d.host.toList)).1

def switchScheme (d : Domain) : String := if d.tlsDisabled then "http://" else "https://"

/-- What is typed in front of the host does not speak against the switch for TLS. -/
def SchemeFits (d : Domain) : Prop := ∀ typed ∈ d.typedScheme?, typed = d.switchScheme

instance (d : Domain) : Decidable d.SchemeFits :=
  inferInstanceAs (Decidable (∀ typed ∈ d.typedScheme?, typed = d.switchScheme))

theorem scheme_eq (d : Domain) : d.scheme = d.typedScheme?.getD d.switchScheme := rfl

theorem scheme_eq_switchScheme_iff {d : Domain} : d.scheme = d.switchScheme ↔ d.SchemeFits := by
  rw [scheme_eq, SchemeFits]
  cases d.typedScheme? <;> simp

theorem typedScheme?_cases (d : Domain) :
    d.typedScheme? = none ∨ d.typedScheme? = some "http://" ∨ d.typedScheme? = some "https://" := by
  unfold typedScheme? splitScheme
  split
  · exact .inr (.inr rfl)
  · split
    · exact .inr (.inl rfl)
    · exact .inl rfl

theorem switchScheme_cases (d : Domain) :
    d.switchScheme = "http://" ∨ d.switchScheme = "https://" := by
  unfold switchScheme
  split
  · exact .inl rfl
  · exact .inr rfl

theorem scheme_cases (d : Domain) : d.scheme = "http://" ∨ d.scheme = "https://" := by
  rw [scheme_eq]
  rcases d.typedScheme?_cases with typed | typed | typed <;> rw [typed]
  · exact d.switchScheme_cases
  · exact .inl rfl
  · exact .inr rfl

theorem switchScheme_eq_http_iff {d : Domain} :
    d.switchScheme = "http://" ↔ d.tlsDisabled = true := by
  unfold switchScheme
  cases d.tlsDisabled <;> decide

theorem tlsMode_eq_off_iff {certsDir : String} {d : Domain} :
    d.tlsMode certsDir = .off ↔ d.tlsDisabled = true := by
  unfold tlsMode
  cases d.tlsDisabled with
  | true => simp
  | false => cases empty : (Text.trim d.customCert).isEmpty <;> simp [empty]

end Domain

namespace Site

theorem startsWith_scheme_append {scheme other rest : String}
    (hs : scheme = "http://" ∨ scheme = "https://") (ho : other = "http://" ∨ other = "https://") :
    (other ++ rest).startsWith scheme = true ↔ other = scheme := by
  rw [String.startsWith_string_iff, String.toList_append]
  rcases hs with rfl | rfl <;> rcases ho with rfl | rfl <;> simp

variable {certsDir : String} {subdomains : List Subdomain} {d : Domain}

theorem exists_scheme_append {a : String} (ha : a ∈ (Site.of certsDir subdomains d).addresses) :
    ∃ rest, a = d.scheme ++ rest := by
  rcases List.mem_cons.1 ha with rfl | ha
  · exact ⟨_, by rw [Domain.address, String.append_assoc, String.append_assoc]⟩
  · obtain ⟨s, -, rfl⟩ := List.mem_map.1 ha
    exact ⟨_, by rw [Domain.addressOf, String.append_assoc, String.append_assoc,
      String.append_assoc, String.append_assoc]⟩

theorem forall_startsWith_iff {scheme : String} (hs : scheme = "http://" ∨ scheme = "https://") :
    (∀ a ∈ (Site.of certsDir subdomains d).addresses, a.startsWith scheme = true) ↔
      d.scheme = scheme := by
  constructor
  · intro all
    have there : d.address ∈ (Site.of certsDir subdomains d).addresses := List.mem_cons_self
    obtain ⟨rest, own⟩ := exists_scheme_append there
    have begins := all d.address there
    rw [own] at begins
    exact (startsWith_scheme_append hs d.scheme_cases).1 begins
  · intro same a ha
    obtain ⟨rest, rfl⟩ := exists_scheme_append ha
    exact (startsWith_scheme_append hs d.scheme_cases).2 same

end Site

namespace Caddyfile

open Directive

theorem tlsClause_eq_nil_iff (certsDir : String) {site : Site} :
    tlsClause certsDir site = [] ↔ site.tls = .off := by
  unfold tlsClause
  split <;> simp [*]

theorem mem_children_siteBlock_tls_iff {certsDir : String} {doc : Document} {site : Site}
    {d : Directive} :
    d ∈ (siteBlock certsDir doc site).children ∧ d.name = "tls" ↔ d ∈ tlsClause certsDir site := by
  constructor
  · rintro ⟨hd, name⟩
    simp only [children, siteBlock, Option.getD_some, List.mem_append] at hd
    rcases hd with (((hd | hd) | hd) | hd) | hd
    · exact hd
    · have : d.name = "log" := by
        rw [bare] at hd
        split at hd
        · rw [List.mem_singleton.1 hd]
        · cases hd
      exact absurd (this.symm.trans name) (by decide)
    · exact absurd name (name_ne_of_mem_accessControl namesMatchers_site hd (by decide) (by decide)
        (by decide))
    · obtain ⟨credential, -, rfl⟩ := List.mem_map.1 hd
      exact absurd name (by simp [credentialBlock])
    · obtain ⟨h, -, rfl⟩ := List.mem_map.1 hd
      have handler := isHandler_handlerBlock certsDir doc h
      rw [isHandler, name] at handler
      exact absurd handler (by decide)
  · intro hd
    have there : d ∈ (siteBlock certsDir doc site).children := by
      simp [children, siteBlock, hd]
    exact ⟨there, tlsClause_name hd⟩

def HasTlsDirective (certsDir : String) (doc : Document) (site : Site) : Prop :=
  ∃ d ∈ (siteBlock certsDir doc site).children, d.name = "tls"

theorem hasTlsDirective_iff {certsDir : String} {doc : Document} {site : Site} :
    HasTlsDirective certsDir doc site ↔ site.tls ≠ .off := by
  unfold HasTlsDirective
  rw [ne_eq, ← tlsClause_eq_nil_iff certsDir]
  simp only [mem_children_siteBlock_tls_iff]
  exact ⟨fun ⟨_, hd⟩ => List.ne_nil_of_mem hd, List.exists_mem_of_ne_nil _⟩

/-- A site ends TLS, and its block has the directive for it, unless its domain's switch says otherwise,
and all its addresses have one scheme.  That a site goes without TLS exactly if all its addresses are
plain ones, is so exactly where what is typed in front of the host does not speak against the switch;
that all addresses are secure ones if there is a directive, where it does not or there is none. -/
theorem tls_fits_scheme_iff (certsDir : String) (doc : Document) :
    ∀ site ∈ doc.sites certsDir,
      (site.tls = .off ↔ site.domain.tlsDisabled = true) ∧
        (HasTlsDirective certsDir doc site ↔ site.tls ≠ .off) ∧
        (∀ a ∈ site.addresses, a.startsWith site.domain.scheme = true) ∧
        ((site.tls = .off ↔ ∀ a ∈ site.addresses, a.startsWith "http://" = true) ↔
          site.domain.SchemeFits) ∧
        ((HasTlsDirective certsDir doc site →
            ∀ a ∈ site.addresses, a.startsWith "https://" = true) ↔
          site.domain.SchemeFits ∨ site.domain.tlsDisabled = true) := by
  intro site hsite
  obtain ⟨d, -, rfl⟩ := List.mem_map.1 hsite
  have off : (Site.of certsDir (doc.subdomainsOf d.id) d).tls = .off ↔ d.tlsDisabled = true :=
    Domain.tlsMode_eq_off_iff
  have domain : (Site.of certsDir (doc.subdomainsOf d.id) d).domain = d := rfl
  rw [hasTlsDirective_iff, ne_eq, Site.forall_startsWith_iff (.inl rfl),
    Site.forall_startsWith_iff (.inr rfl), off, domain, ← Domain.scheme_eq_switchScheme_iff,
    ← Domain.switchScheme_eq_http_iff]
  refine ⟨.rfl, .rfl, (Site.forall_startsWith_iff d.scheme_cases).2 rfl, ?_, ?_⟩
  -- the scheme and the switch's scheme are one of two each
  all_goals
    rcases d.scheme_cases with typed | typed <;> rcases d.switchScheme_cases with switch | switch <;>
      rw [typed, switch] <;> decide

def contradicting : Document where
  general := { enabled := true }
  domains := [
    { Domain.serving "shop" "https://shop.example" with tlsDisabled := true },
    .serving "intranet" "http://intranet.local"]

theorem contradicting_sites :
    (contradicting.sites "./certs").map (fun site => (site.tls, site.addresses)) =
        [(.off, ["https://shop.example:80"]), (.internal, ["http://intranet.local:443"])] ∧
      ¬ (∀ site ∈ contradicting.sites "./certs",
        (site.tls = .off ↔ ∀ a ∈ site.addresses, a.startsWith "http://" = true)) ∧
      ¬ (∀ site ∈ contradicting.sites "./certs", HasTlsDirective "./certs" contradicting site →
        ∀ a ∈ site.addresses, a.startsWith "https://" = true) := by
  simp only [String.startsWith_string_iff, hasTlsDirective_iff]
  decide

def wiki : Domain := { Domain.serving "wiki" " http://wiki.example " with tlsDisabled := true }

def agreeing : Document := { domains := [wiki], subdomains := [.serving "s" "wiki" "en"] }

theorem tls_fits_scheme_iff_agreeing :
    Site.of "./certs" agreeing.subdomains wiki ∈ agreeing.sites "./certs" ∧ wiki.SchemeFits ∧
      ((Site.of "./certs" agreeing.subdomains wiki).tls = .off ↔
        ∀ a ∈ (Site.of "./certs" agreeing.subdomains wiki).addresses,
          a.startsWith "http://" = true) := by
  have there : Site.of "./certs" agreeing.subdomains wiki ∈ agreeing.sites "./certs" :=
    List.mem_cons_self
  have fits : wiki.SchemeFits := by decide
  exact ⟨there, fits, (tls_fits_scheme_iff "./certs" agreeing _ there).2.2.2.1.2 fits⟩

end Caddyfile

end ProxyConfig
