import ProxyConfig.Certificate
import ProxyConfig.Document.Basic

/-!
Sites: an enabled domain with the enabled subdomains of its id, the addresses they are served at and
the way TLS is ended there.  The subdomains are gathered in one pass over the document.  Main statement:
what has been gathered under an id is every enabled subdomain of that domain id, in order
(`subdomainsOf_eq`).
-/

namespace ProxyConfig

inductive TlsMode where
  /-- Not at all; the addresses are plain HTTP unless the host says otherwise. -/
  | off
  /-- With the operator's certificate and key. -/
  | custom (cert key : String)
  /-- With a certificate issued on the spot. -/
  | internal
  deriving DecidableEq

structure Site where
  domain : Domain
  subdomains : List Subdomain
  addresses : List String
  tls : TlsMode

namespace Domain

def effectivePort (d : Domain) : String :=
  match d.port.port? with
  | some p => toString p
  | none => if d.tlsDisabled then "80" else "443"

def splitScheme (host : List Char) : Option String × List Char :=
  match Text.after? "https://".toList host with
  | some bare => (some "https://", bare)
  | none =>
    match Text.after? "http://".toList host with
    | some bare => (some "http://", bare)
    | none => (none, host)

def scheme (d : Domain) : String :=
  (splitScheme (Text.trimmed d.host.toList)).1.getD
    (if d.tlsDisabled then "http://" else "https://")

def bareHost (d : Domain) : String :=
  String.ofList (splitScheme (Text.trimmed d.host.toList)).2

def address (d : Domain) : String := d.scheme ++ d.bareHost ++ ":" ++ d.effectivePort

def addressOf (d : Domain) (s : Subdomain) : String :=
  d.scheme ++ Text.trim s.fragment ++ "." ++ d.bareHost ++ ":" ++ d.effectivePort

def tlsMode (certsDir : String) (d : Domain) : TlsMode :=
  if d.tlsDisabled then .off
  else
    let file := Text.trim d.customCert
    if file.isEmpty then .internal
    else .custom (Certificate.path certsDir file) (Certificate.path certsDir (Certificate.keyFile file))

end Domain

namespace Site

def of (certsDir : String) (subdomains : List Subdomain) (d : Domain) : Site where
  domain := d
  subdomains := subdomains
  addresses := d.address :: subdomains.map d.addressOf
  tls := d.tlsMode certsDir

def key (s : Site) : String := Text.join ", " s.addresses

/-- Whether the subdomain with this id is served by the site. -/
def serves (s : Site) (subdomainId : String) : Bool := s.subdomains.any (·.id = subdomainId)

end Site

/-- Subdomains by the id of their domain; an id stands there once. -/
abbrev SubdomainGroups := List (String × List Subdomain)

namespace SubdomainGroups

/-- Puts a subdomain behind those of its domain's id, of which it may be the first. -/
def push : SubdomainGroups → Subdomain → SubdomainGroups
  | [], s => [(s.domainId, [s])]
  | (id, group) :: rest, s =>
    if id = s.domainId then (id, group ++ [s]) :: rest else (id, group) :: push rest s

def under (domainId : String) : SubdomainGroups → List Subdomain
  | [] => []
  | (id, group) :: rest => if id = domainId then group else under domainId rest

theorem under_push (domainId : String) (groups : SubdomainGroups) (s : Subdomain) :
    (push groups s).under domainId =
      groups.under domainId ++ if s.domainId = domainId then [s] else [] := by
  induction groups with
  | nil => simp [push, under]
  | cons entry rest ih =>
    obtain ⟨id, group⟩ := entry
    by_cases here : id = s.domainId
    · by_cases asked : id = domainId
      · subst here asked
        simp [push, under]
      · simp [push, under, here, here ▸ asked]
    · by_cases asked : id = domainId
      · subst asked
        simp [push, under, here, Ne.symm here]
      · simp [push, under, here, asked, ih]

theorem under_foldl_push (domainId : String) (groups : SubdomainGroups) (ss : List Subdomain) :
    (ss.foldl push groups).under domainId =
      groups.under domainId ++ ss.filter fun s => s.domainId = domainId := by
  induction ss generalizing groups with
  | nil => simp
  | cons s ss ih =>
    rw [List.foldl_cons, ih, under_push, List.append_assoc]
    by_cases asked : s.domainId = domainId <;> simp [asked]

end SubdomainGroups

namespace Document

def subdomainGroups (doc : Document) : SubdomainGroups :=
  (doc.subdomains.filter (·.enabled)).foldl SubdomainGroups.push []

def subdomainsOf (doc : Document) (domainId : String) : List Subdomain :=
  doc.subdomainGroups.under domainId

def sites (certsDir : String) (doc : Document) : List Site :=
  (doc.domains.filter (·.enabled)).map fun d => .of certsDir (doc.subdomainsOf d.id) d

theorem subdomainsOf_eq (doc : Document) (domainId : String) :
    doc.subdomainsOf domainId =
      doc.subdomains.filter fun s => s.enabled && s.domainId = domainId := by
  rw [subdomainsOf, subdomainGroups, SubdomainGroups.under_foldl_push, List.filter_filter]
  simp only [SubdomainGroups.under, List.nil_append, Bool.and_comm]

theorem mem_of_mem_subdomainsOf {doc : Document} {domainId : String} {s : Subdomain}
    (there : s ∈ doc.subdomainsOf domainId) : s ∈ doc.subdomains := by
  rw [subdomainsOf_eq] at there
  exact (List.mem_filter.1 there).1

end Document

end ProxyConfig
