import Mathlib.Data.List.Forall2
import ProxyConfig.Proofs.Caddyfile.SiteAddresses
import ProxyConfig.Proofs.Text.HostGrammar
import ProxyConfig.Proofs.Text.NumberReadings

/-!
Sites beside what they are meant to be.  What a domain is served at is said from its fields alone: a
scheme, a host and a port.  Main statement: there is one site for each enabled domain, in order, with
the enabled subdomains of the domain's id, in order, and with the addresses that follow from what the
domain is served at; the port can be read off each address, and two first addresses are the same exactly
if scheme, host and port are.
-/

namespace ProxyConfig

namespace Domain

/-- A domain is served with the scheme that its host begins with, at what follows it; or, if the host
begins with none, with the scheme that goes with the switch for TLS, at the whole host.  Blanks around
the host do not count.  The port is the given one, or else the usual one of the switch. -/
structure ServedAt (d : Domain) (scheme host : String) (port : Nat) : Prop where
  host : (scheme ∈ ["https://", "http://"] ∧ Text.trim d.host = scheme ++ host) ∨
    ((∀ typed ∈ ["https://", "http://"], (Text.trim d.host).startsWith typed = false) ∧
      scheme = (if d.tlsDisabled then "http://" else "https://") ∧ host = Text.trim d.host)
  port : d.port.port? = some port ∨
    (d.port.port? = none ∧ port = if d.tlsDisabled then 80 else 443)

theorem startsWith_eq_false_iff {typed s : String} :
    s.startsWith typed = false ↔ Text.after? typed.toList s.toList = none := by
  rw [Bool.eq_false_iff, ne_eq, String.startsWith_string_iff, Text.after?_eq_none_iff]

theorem servedAt_scheme_bareHost {d : Domain} {port : Nat}
    (usable : d.port.port? = some port ∨
      (d.port.port? = none ∧ port = if d.tlsDisabled then 80 else 443)) :
    d.ServedAt d.scheme d.bareHost port := by
  refine ⟨?_, usable⟩
  unfold Domain.scheme bareHost splitScheme
  rw [← Text.toList_trim]
  have typed {scheme : String} {bare : List Char}
      (front : Text.after? scheme.toList (Text.trim d.host).toList = some bare) :
      Text.trim d.host = scheme ++ String.ofList bare := by
    rw [← String.toList_inj, String.toList_append, String.toList_ofList]
    exact Text.after?_eq_some_iff.1 front
  cases https : Text.after? "https://".toList (Text.trim d.host).toList with
  | some bare => exact .inl ⟨List.mem_cons_self, typed https⟩
  | none =>
    cases http : Text.after? "http://".toList (Text.trim d.host).toList with
    | some bare => exact .inl ⟨List.mem_cons_of_mem _ List.mem_cons_self, typed http⟩
    | none =>
      refine .inr ⟨?_, rfl, String.ofList_toList⟩
      exact List.forall_mem_cons.2 ⟨startsWith_eq_false_iff.2 https,
        List.forall_mem_singleton.2 (startsWith_eq_false_iff.2 http)⟩

theorem ServedAt.unique {d : Domain} {scheme host : String} {port : Nat}
    (served : d.ServedAt scheme host port) :
    d.scheme = scheme ∧ d.bareHost = host ∧ d.effectivePort = toString port := by
  have split : d.scheme = scheme ∧ d.bareHost = host := by
    unfold Domain.scheme bareHost
    rw [← Text.toList_trim]
    rcases served.host with ⟨typed, text⟩ | ⟨untyped, rfl, rfl⟩
    · rw [text, String.toList_append]
      rcases List.mem_cons.1 typed with rfl | typed
      · simp [splitScheme, Text.after?]
      · obtain rfl := List.mem_singleton.1 typed
        simp [splitScheme, Text.after?]
    · have https := startsWith_eq_false_iff.1 (untyped "https://" (by simp))
      have http := startsWith_eq_false_iff.1 (untyped "http://" (by simp))
      rw [Host.splitScheme_eq_self https http]
      exact ⟨rfl, String.ofList_toList⟩
  refine ⟨split.1, split.2, ?_⟩
  unfold effectivePort
  rcases served.port with given | ⟨missing, rfl⟩
  · rw [given]
  · rw [missing]
    cases d.tlsDisabled <;> rfl

theorem exists_port (d : Domain) :
    ∃ port, d.effectivePort = toString port ∧ 1 ≤ port ∧ port ≤ 65535 ∧
      d.ServedAt d.scheme d.bareHost port := by
  cases given : d.port.port? with
  | some p =>
    obtain ⟨-, low, high⟩ := NumberText.port?_eq_some_iff.1 given
    refine ⟨p, ?_, low, high, servedAt_scheme_bareHost (.inl given)⟩
    rw [effectivePort, given]
  | none =>
    have served := servedAt_scheme_bareHost (.inr ⟨given, rfl⟩)
    rw [effectivePort, given]
    cases off : d.tlsDisabled with
    | true => exact ⟨80, rfl, by decide, by decide, by simpa [off] using served⟩
    | false => exact ⟨443, rfl, by decide, by decide, by simpa [off] using served⟩

end Domain

namespace Site

def portIn? (address : String) : Option String :=
  (Text.cutLast ':' address.toList).map fun cut => String.ofList cut.2

theorem portIn?_append (front : String) {port : String} (last : ':' ∉ port.toList) :
    portIn? (front ++ ":" ++ port) = some port := by
  have text : (front ++ ":" ++ port).toList = front.toList ++ ':' :: port.toList := by simp
  rw [portIn?, text, Text.cutLast_append _ last]
  simp

end Site

namespace Domain

open Site

theorem portIn?_address (d : Domain) : portIn? d.address = some d.effectivePort :=
  portIn?_append (d.scheme ++ d.bareHost) (not_mem_effectivePort (by decide))

theorem portIn?_addressOf (d : Domain) (s : Subdomain) :
    portIn? (d.addressOf s) = some d.effectivePort :=
  portIn?_append (d.scheme ++ Text.trim s.fragment ++ "." ++ d.bareHost)
    (not_mem_effectivePort (by decide))

theorem address_eq_iff {d e : Domain} :
    d.address = e.address ↔
      d.scheme = e.scheme ∧ d.bareHost = e.bareHost ∧ d.effectivePort = e.effectivePort := by
  constructor
  · intro same
    have host : d.bareHost = e.bareHost := by rw [← hostIn_address, same, hostIn_address]
    have port : d.effectivePort = e.effectivePort := by
      rw [← Option.some_inj, ← portIn?_address, same, portIn?_address]
    refine ⟨?_, host, port⟩
    rw [address, address, host, port] at same
    exact String.append_left_inj _ |>.1 (String.append_left_inj _ |>.1 (String.append_left_inj _ |>.1 same))
  · rintro ⟨scheme, host, port⟩
    rw [address, address, scheme, host, port]

theorem address_eq_iff_of_servedAt {d e : Domain} {scheme host scheme' host' : String}
    {port port' : Nat} (served : d.ServedAt scheme host port)
    (servedToo : e.ServedAt scheme' host' port') :
    d.address = e.address ↔ scheme = scheme' ∧ host = host' ∧ port = port' := by
  obtain ⟨rfl, rfl, decimal⟩ := served.unique
  obtain ⟨rfl, rfl, decimal'⟩ := servedToo.unique
  have ports : d.effectivePort = e.effectivePort ↔ port = port' := by
    rw [decimal, decimal']
    refine ⟨fun same => ?_, congrArg toString⟩
    have digits : Nat.toDigits 10 port = Nat.toDigits 10 port' := by
      simpa [Nat.toString_eq_ofList_toDigits] using congrArg String.toList same
    rw [← Nat.ofDigitChars_ten_toDigits (n := port), digits, Nat.ofDigitChars_ten_toDigits]
  rw [address_eq_iff, ports]

end Domain

/-- The site is what it is meant to be for the domain: it has the enabled subdomains of the domain's id,
in order; its addresses, one for the domain and one for each of these, have one scheme, end in one host
and have one port, from 1 to 65535 and in plain decimal, which stands behind their last colon. -/
structure Site.Resolves (doc : Document) (site : Site) (d : Domain) : Prop where
  domain : site.domain = d
  subdomains : site.subdomains = doc.subdomains.filter fun s => s.enabled && s.domainId = d.id
  addresses : ∃ scheme host port, d.ServedAt scheme host port ∧ 1 ≤ port ∧ port ≤ 65535 ∧
    site.addresses = (scheme ++ host ++ ":" ++ toString port) ::
      site.subdomains.map (fun s =>
        scheme ++ Text.trim s.fragment ++ "." ++ host ++ ":" ++ toString port) ∧
    ∀ a ∈ site.addresses, Site.portIn? a = some (toString port)

theorem Site.resolves_of (certsDir : String) (doc : Document) (d : Domain) :
    (Site.of certsDir (doc.subdomainsOf d.id) d).Resolves doc d := by
  obtain ⟨port, decimal, low, high, served⟩ := d.exists_port
  refine ⟨rfl, doc.subdomainsOf_eq d.id, d.scheme, d.bareHost, port, served, low, high, ?_, ?_⟩
  · rw [← decimal]
    rfl
  · rw [← decimal]
    exact List.forall_mem_cons.2 ⟨d.portIn?_address,
      List.forall_mem_map.2 fun s _ => d.portIn?_addressOf s⟩

namespace Document

/-- There is one site for each enabled domain, in order, which is what it is meant to be; and the first
addresses of two sites are the same exactly if their domains are served with the same scheme, at the same
host and the same port. -/
theorem sites_as_meant (certsDir : String) (doc : Document) :
    List.Forall₂ (Site.Resolves doc) (doc.sites certsDir) (doc.domains.filter (·.enabled)) ∧
      ∀ site ∈ doc.sites certsDir, ∀ other ∈ doc.sites certsDir,
        ∀ scheme host port scheme' host' port',
          site.domain.ServedAt scheme host port → other.domain.ServedAt scheme' host' port' →
          (site.addresses.head? = other.addresses.head? ↔
            scheme = scheme' ∧ host = host' ∧ port = port') := by
  constructor
  · rw [sites, List.forall₂_map_left_iff]
    exact List.forall₂_same.2 fun d _ => Site.resolves_of certsDir doc d
  · intro site there other thereToo scheme host port scheme' host' port' served servedToo
    obtain ⟨d, -, rfl⟩ := List.mem_map.1 there
    obtain ⟨e, -, rfl⟩ := List.mem_map.1 thereToo
    exact Option.some_inj.trans (Domain.address_eq_iff_of_servedAt served servedToo)

def mirrored : Document where
  domains := [.serving "shop" "shop.example",
    { Domain.serving "mirror" " https://shop.example" with port := ⟨"0443"⟩ }]
  subdomains := [.serving "a" "mirror" "api", .serving "b" "shop" "api", .serving "c" "gone" "api",
    { Subdomain.serving "d" "shop" "old" with enabled := false }, .serving "b" "shop" " www "]

theorem sites_as_meant_mirrored :
    ∃ site ∈ mirrored.sites "./certs", ∃ other ∈ mirrored.sites "./certs",
      site.domain.ServedAt "https://" "shop.example" 443 ∧
        other.domain.ServedAt "https://" "shop.example" 443 ∧
        site.addresses.head? = other.addresses.head? ∧
        site.subdomains.map Subdomain.fragment = ["api", " www "] := by
  obtain ⟨-, equal⟩ := sites_as_meant "./certs" mirrored
  have shop : (Domain.serving "shop" "shop.example").ServedAt "https://" "shop.example" 443 :=
    Domain.servedAt_scheme_bareHost (.inr ⟨rfl, rfl⟩)
  have mirror : { Domain.serving "mirror" " https://shop.example" with port := ⟨"0443"⟩ }.ServedAt
      "https://" "shop.example" 443 :=
    Domain.servedAt_scheme_bareHost (.inl (by decide))
  refine ⟨_, List.mem_cons_self, _, List.mem_cons_of_mem _ List.mem_cons_self, shop, mirror, ?_, rfl⟩
  exact (equal _ List.mem_cons_self _ (List.mem_cons_of_mem _ List.mem_cons_self) _ _ _ _ _ _ shop
    mirror).2 ⟨rfl, rfl, rfl⟩

end Document

end ProxyConfig
