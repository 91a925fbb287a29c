import ProxyConfig.Proofs.Caddyfile.HandlerPlacement
import ProxyConfig.Proofs.Caddyfile.SchemeAndTls
import ProxyConfig.Proofs.Lint.Formats
import ProxyConfig.Proofs.Text.HostNames
import ProxyConfig.Proofs.Text.Words

/-!
The addresses of a site as they are read back.  The line that opens a site's block is cut at its marks,
and an address has its host between its scheme and its port.  Main statement: in a document about which
nothing is found, the host of a domain's own address is valid; that of a subdomain's address is valid
exactly if the fragment can be put in front of the domain's host, which nothing asks for; and the line
is cut into the addresses exactly if no fragment has a mark in it.
-/

namespace ProxyConfig

namespace Text

/-- What stands between the marks of a text, a mark being a comma with a space behind it. -/
def splitMarks : List Char → List (List Char)
  | [] => [[]]
  | ',' :: ' ' :: rest => [] :: splitMarks rest
  | c :: rest =>
    match splitMarks rest with
    | [] => [[c]]
    | part :: parts => (c :: part) :: parts

def Marked (s : List Char) : Prop := ∃ before behind, s = before ++ ',' :: ' ' :: behind

theorem not_marked_of_not_mem {s : List Char} (plain : ',' ∉ s) : ¬ Marked s := by
  rintro ⟨before, behind, rfl⟩
  exact plain (by simp)

theorem not_marked_nil : ¬ Marked [] := not_marked_of_not_mem List.not_mem_nil

theorem marked_cons_iff {c : Char} {s : List Char} :
    Marked (c :: s) ↔ (c = ',' ∧ ∃ behind, s = ' ' :: behind) ∨ Marked s := by
  constructor
  · rintro ⟨before, behind, text⟩
    cases before with
    | nil => exact .inl ⟨(List.cons.inj text).1, behind, (List.cons.inj text).2⟩
    | cons d before => exact .inr ⟨before, behind, (List.cons.inj text).2⟩
  · rintro (⟨rfl, behind, rfl⟩ | ⟨before, behind, rfl⟩)
    · exact ⟨[], behind, rfl⟩
    · exact ⟨c :: before, behind, rfl⟩

theorem splitMarks_mark (rest : List Char) :
    splitMarks (',' :: ' ' :: rest) = [] :: splitMarks rest := splitMarks.eq_2 rest

theorem splitMarks_cons {c : Char} {s part : List Char} {parts : List (List Char)}
    (inside : ¬ (c = ',' ∧ ∃ behind, s = ' ' :: behind)) (behind : splitMarks s = part :: parts) :
    splitMarks (c :: s) = (c :: part) :: parts := by
  rw [splitMarks.eq_3 _ _ fun rest comma space => inside ⟨comma, rest, space⟩, behind]

theorem splitMarks_append {s : List Char} (whole : ¬ Marked s) (rest : List Char) :
    splitMarks (s ++ ',' :: ' ' :: rest) = s :: splitMarks rest := by
  induction s with
  | nil => exact splitMarks_mark rest
  | cons c s ih =>
    rw [marked_cons_iff, not_or] at whole
    have inside : ¬ (c = ',' ∧ ∃ behind, s ++ ',' :: ' ' :: rest = ' ' :: behind) := by
      rintro ⟨rfl, behind, text⟩
      cases s with
      | nil => cases text
      | cons d s => exact whole.1 ⟨rfl, s, by rw [(List.cons.inj text).1]⟩
    exact splitMarks_cons inside (ih whole.2)

theorem splitMarks_eq_singleton {s : List Char} (whole : ¬ Marked s) : splitMarks s = [s] := by
  induction s with
  | nil => rfl
  | cons c s ih =>
    rw [marked_cons_iff, not_or] at whole
    exact splitMarks_cons whole.1 (ih whole.2)

theorem exists_first_mark {s : List Char} (marked : Marked s) :
    ∃ front rest, s = front ++ ',' :: ' ' :: rest ∧ ¬ Marked front := by
  induction s with
  | nil => exact absurd marked not_marked_nil
  | cons c s ih =>
    by_cases first : c = ',' ∧ ∃ behind, s = ' ' :: behind
    · obtain ⟨rfl, rest, rfl⟩ := first
      exact ⟨[], rest, rfl, not_marked_nil⟩
    · obtain ⟨front, rest, rfl, whole⟩ := ih ((marked_cons_iff.1 marked).resolve_left first)
      refine ⟨c :: front, rest, rfl, fun again => ?_⟩
      rcases marked_cons_iff.1 again with ⟨comma, behind, rfl⟩ | inside
      · exact first ⟨comma, _, rfl⟩
      · exact whole inside

theorem not_marked_of_mem_splitMarks {s part : List Char} (listed : part ∈ splitMarks s) :
    ¬ Marked part := by
  induction length : s.length using Nat.strongRecOn generalizing s with
  | ind n ih =>
    by_cases marked : Marked s
    · obtain ⟨front, rest, rfl, whole⟩ := exists_first_mark marked
      rw [splitMarks_append whole] at listed
      rcases List.mem_cons.1 listed with rfl | listed
      · exact whole
      · have shorter : rest.length < n := by
          rw [← length, List.length_append, List.length_cons, List.length_cons]
          omega
        exact ih _ shorter listed rfl
    · rw [splitMarks_eq_singleton marked, List.mem_singleton] at listed
      exact listed ▸ marked

theorem toList_join_cons (s t : String) (texts : List String) :
    (join ", " (s :: t :: texts)).toList =
      s.toList ++ ',' :: ' ' :: (join ", " (t :: texts)).toList := by
  change (s ++ ", " ++ join ", " (t :: texts)).toList = _
  rw [String.toList_append, String.toList_append, List.append_assoc]
  rfl

theorem splitMarks_join_iff {texts : List String} (some : texts ≠ []) :
    splitMarks (join ", " texts).toList = texts.map String.toList ↔
      ∀ s ∈ texts, ¬ Marked s.toList := by
  constructor
  · intro same s listed
    refine not_marked_of_mem_splitMarks (s := (join ", " texts).toList) ?_
    rw [same]
    exact List.mem_map_of_mem listed
  · intro whole
    induction texts with
    | nil => exact absurd rfl some
    | cons s texts ih =>
      obtain ⟨first, others⟩ := List.forall_mem_cons.1 whole
      cases texts with
      | nil => exact splitMarks_eq_singleton first
      | cons t texts => rw [toList_join_cons, splitMarks_append first, ih nofun others]; rfl

theorem marked_append_iff {front s : List Char} (plain : ',' ∉ front) :
    Marked (front ++ s) ↔ Marked s := by
  induction front with
  | nil => rfl
  | cons c front ih =>
    rw [List.mem_cons, not_or] at plain
    rw [List.cons_append, marked_cons_iff, ih plain.2, or_iff_right]
    exact fun first => plain.1 first.1.symm

theorem marked_append_point_iff {s rest : List Char} (plain : ',' ∉ rest) :
    Marked (s ++ '.' :: rest) ↔ Marked s := by
  induction s with
  | nil =>
    have unmarked : ¬ Marked ('.' :: rest) := not_marked_of_not_mem (by simp [plain])
    exact iff_of_false unmarked not_marked_nil
  | cons c s ih =>
    have space : (∃ behind, s ++ '.' :: rest = ' ' :: behind) ↔ ∃ behind, s = ' ' :: behind := by
      cases s with
      | nil => simp
      | cons d s => simp
    rw [List.cons_append, marked_cons_iff, marked_cons_iff, space, ih]

end Text

namespace Site

open Text

def hostIn (address : String) : String :=
  String.ofList <|
    let bare := (Domain.splitScheme address.toList).2
    ((cutLast ':' bare).map Prod.fst).getD bare

def addressesIn (key : String) : List String := (splitMarks key.toList).map String.ofList

theorem addressesIn_join_iff {texts : List String} (some : texts ≠ []) :
    addressesIn (join ", " texts) = texts ↔ ∀ s ∈ texts, ¬ Marked s.toList := by
  rw [← splitMarks_join_iff some, addressesIn]
  constructor
  · intro same
    conv_rhs => rw [← same]
    simp
  · intro same
    rw [same]
    simp

theorem hostIn_eq {scheme host port : String} (named : scheme = "http://" ∨ scheme = "https://")
    (last : ':' ∉ port.toList) : hostIn (scheme ++ host ++ ":" ++ port) = host := by
  have bare : (Domain.splitScheme (scheme ++ host ++ ":" ++ port).toList).2 =
      host.toList ++ ':' :: port.toList := by
    rcases named with rfl | rfl
    · simp [Domain.splitScheme, after?]
    · simp [Domain.splitScheme, after?]
  rw [hostIn, bare]
  dsimp only
  rw [cutLast_append _ last]
  exact String.ofList_toList

end Site

/-- The fragment of a subdomain can be put in front of a domain's host: it is a star or labels, perhaps
with a scheme in front, the host is labels without a star, and the two are not too long together. -/
structure Subdomain.Continues (d : Domain) (s : Subdomain) : Prop where
  front : Host.Front (Domain.splitScheme (Text.trimmed s.fragment.toList)).2
  labels : Host.Labels d.bareHost.toList
  short : (Text.trim s.fragment ++ "." ++ d.bareHost).utf8ByteSize ≤ Host.lengthLimit

namespace Domain

open Site Text

variable {d : Domain} {s : Subdomain}

theorem isDigit_of_mem_effectivePort {c : Char} (there : c ∈ d.effectivePort.toList) :
    c.isDigit = true := by
  unfold effectivePort at there
  split at there
  case h_1 p _ =>
    have digits : (toString p).toList = Nat.toDigits 10 p := Nat.toList_repr
    rw [digits] at there
    exact Nat.isDigit_of_mem_toDigits (by decide) (by decide) there
  case h_2 =>
    have usual (port : String) (digits : port.toList.all Char.isDigit = true)
        (there : c ∈ port.toList) : c.isDigit = true := List.all_eq_true.1 digits c there
    split at there
    case isTrue => exact usual "80" (by decide) there
    case isFalse => exact usual "443" (by decide) there

theorem not_mem_effectivePort {c : Char} (other : c.isDigit = false) :
    c ∉ d.effectivePort.toList := by
  intro there
  rw [isDigit_of_mem_effectivePort there] at other
  cases other

theorem hostIn_address (d : Domain) : hostIn d.address = d.bareHost :=
  hostIn_eq d.scheme_cases (not_mem_effectivePort (by decide))

theorem hostIn_addressOf (d : Domain) (s : Subdomain) :
    hostIn (d.addressOf s) = Text.trim s.fragment ++ "." ++ d.bareHost := by
  have host : d.addressOf s =
      d.scheme ++ (Text.trim s.fragment ++ "." ++ d.bareHost) ++ ":" ++ d.effectivePort := by
    simp only [addressOf, String.append_assoc]
  rw [host, hostIn_eq d.scheme_cases (not_mem_effectivePort (by decide))]

section Valid

variable (accepted : Host.valid d.host = true)
include accepted

theorem bare_bareHost : Host.Bare d.bareHost.toList := by
  rw [bareHost, String.toList_ofList]
  exact (Host.valid_iff.1 accepted).2.2

theorem trimmed_bareHost : trimmed d.bareHost.toList = d.bareHost.toList :=
  trimmed_eq_self (trimmed_of_filled (bare_bareHost accepted).not_isBlank)

theorem valid_bareHost : Host.valid d.bareHost = true := by
  obtain ⟨-, short, -⟩ := Host.valid_iff.1 accepted
  have bare := bare_bareHost accepted
  rw [Host.valid_iff, trimmed_bareHost accepted, bare.splitScheme, String.ofList_toList]
  refine ⟨bare.ne_nil, ?_, bare⟩
  obtain ⟨typed, text⟩ := Host.splitScheme_eq (trimmed d.host.toList)
  rw [text, String.ofList_append, String.utf8ByteSize_append] at short
  rw [bareHost]
  omega

theorem valid_continued_iff (some : Text.blank s.fragment = false) :
    Host.valid (Text.trim s.fragment ++ "." ++ d.bareHost) = true ↔ s.Continues d := by
  have bare := bare_bareHost accepted
  have text : (Text.trim s.fragment ++ "." ++ d.bareHost).toList =
      trimmed s.fragment.toList ++ '.' :: d.bareHost.toList := by
    simp
  -- neither end of the whole is a blank, so that nothing is trimmed from it
  have ends : Trimmed (trimmed s.fragment.toList ++ '.' :: d.bareHost.toList) := by
    constructor
    · rw [List.head?_append_of_ne_nil _ (List.isEmpty_eq_false_iff.1 some), ← toList_trim]
      exact (trimmed_toList_trim s.fragment).1
    · intro c last
      rw [List.getLast?_append_of_ne_nil _ (List.cons_ne_nil _ _)] at last
      rcases List.mem_cons.1 (List.mem_of_getLast? last) with rfl | there
      · decide
      · exact bare.not_isBlank c there
  have same : String.ofList (trimmed s.fragment.toList ++ '.' :: d.bareHost.toList) =
      Text.trim s.fragment ++ "." ++ d.bareHost := by
    rw [← text, String.ofList_toList]
  rw [Host.valid_iff, text, trimmed_eq_self ends, same, Host.splitScheme_append,
    Host.bare_append_iff bare]
  constructor
  · rintro ⟨-, short, front, labels⟩
    exact ⟨front, labels, short⟩
  · rintro ⟨front, labels, short⟩
    exact ⟨by simp, short, front, labels⟩

end Valid

theorem comma_not_mem_scheme (d : Domain) : ',' ∉ d.scheme.toList := by
  rcases d.scheme_cases with scheme | scheme <;> rw [scheme] <;> decide

theorem comma_not_mem_bareHost (accepted : Host.valid d.host = true) :
    ',' ∉ d.bareHost.toList :=
  (bare_bareHost accepted).not_mem (by decide) (by decide) (by decide) (by decide)

theorem not_marked_address (accepted : Host.valid d.host = true) :
    ¬ Marked d.address.toList := by
  refine not_marked_of_not_mem ?_
  simp [address, comma_not_mem_scheme, comma_not_mem_bareHost accepted,
    @not_mem_effectivePort d ',' (by decide)]

theorem marked_addressOf_iff (accepted : Host.valid d.host = true) (s : Subdomain) :
    Marked (d.addressOf s).toList ↔ Marked (Text.trim s.fragment).toList := by
  have text : (d.addressOf s).toList = d.scheme.toList ++ ((Text.trim s.fragment).toList ++
      '.' :: (d.bareHost.toList ++ ':' :: d.effectivePort.toList)) := by
    simp [addressOf]
  rw [text, marked_append_iff d.comma_not_mem_scheme, marked_append_point_iff]
  simp [comma_not_mem_bareHost accepted, @not_mem_effectivePort d ',' (by decide)]

end Domain

namespace Document

variable {doc : Document}

theorem not_blank_of_lint_eq_nil (clean : doc.lint = []) {s : Subdomain}
    (there : s ∈ doc.subdomains) : Text.blank s.fragment = false := by
  simp only [lint, lintSubdomain, List.append_eq_nil_iff, List.flatMap_eq_nil_iff] at clean
  obtain ⟨⟨⟨⟨-, subdomains⟩, -⟩, -⟩, -⟩ := clean
  have fragment := (subdomains s there).1.1.2
  refine Bool.eq_false_iff.2 fun blank => ?_
  rw [if_pos blank] at fragment
  cases fragment

end Document

namespace Caddyfile

open Site

/-- In a document about which nothing is found, each site has a valid host in the address of its domain;
the host in the address of a subdomain is valid exactly if the fragment can be put in front of the
domain's host; and the site's line is cut into the addresses exactly if no fragment has a mark in it. -/
theorem site_addresses_valid_iff (certsDir : String) (doc : Document) (clean : doc.lint = []) :
    ∀ site ∈ doc.sites certsDir,
      site.addresses = site.domain.address :: site.subdomains.map site.domain.addressOf ∧
        Host.valid (hostIn site.domain.address) = true ∧
        (∀ s ∈ site.subdomains, Host.valid (hostIn (site.domain.addressOf s)) = true ↔
          s.Continues site.domain) ∧
        (addressesIn site.key = site.addresses ↔
          ∀ s ∈ site.subdomains, ¬ Text.Marked (Text.trim s.fragment).toList) := by
  intro site there
  obtain ⟨d, listed, rfl⟩ := List.mem_map.1 there
  have accepted := (Document.formed_of_lint_eq_nil clean).hosts d (List.mem_filter.1 listed).1
  refine ⟨rfl, ?_, fun s hs => ?_, ?_⟩
  · rw [Domain.hostIn_address]
    exact Domain.valid_bareHost accepted
  · have some := Document.not_blank_of_lint_eq_nil clean (Document.mem_of_mem_subdomainsOf hs)
    rw [Domain.hostIn_addressOf]
    exact Domain.valid_continued_iff accepted some
  · have unmarked := Domain.not_marked_address accepted
    change addressesIn (Text.join ", " (d.address :: (doc.subdomainsOf d.id).map d.addressOf)) =
        d.address :: (doc.subdomainsOf d.id).map d.addressOf ↔ _
    rw [addressesIn_join_iff (List.cons_ne_nil _ _), List.forall_mem_cons, and_iff_right unmarked,
      List.forall_mem_map]
    exact forall₂_congr fun s _ => not_congr (Domain.marked_addressOf_iff accepted s)

def extendedBy (fragment : String) : Document where
  general := { enabled := true }
  domains := [.serving "d" "d.example"]
  subdomains := [.serving "s" "d" fragment]

theorem site_addresses_valid_iff_api :
    (extendedBy "api").lint = [] ∧
      ∀ site ∈ (extendedBy "api").sites "./certs",
        (∀ a ∈ site.addresses, Host.valid (hostIn a) = true) ∧
          addressesIn site.key = site.addresses := by
  have clean : (extendedBy "api").lint = [] := by decide +kernel
  refine ⟨clean, fun site there => ?_⟩
  obtain ⟨addresses, own, others, cut⟩ := site_addresses_valid_iff "./certs" _ clean site there
  have one : (extendedBy "api").sites "./certs" =
      [.of "./certs" [.serving "s" "d" "api"] (.serving "d" "d.example")] := rfl
  rw [one, List.mem_singleton] at there
  subst there
  have fits : Subdomain.Continues (.serving "d" "d.example") (.serving "s" "d" "api") :=
    ⟨by decide +kernel, by decide +kernel, by decide +kernel⟩
  have api : Host.valid (hostIn (Domain.addressOf (.serving "d" "d.example")
      (.serving "s" "d" "api"))) = true := (others _ List.mem_cons_self).2 fits
  refine ⟨?_, cut.2 ?_⟩
  · rw [addresses]
    exact List.forall_mem_cons.2 ⟨own, List.forall_mem_singleton.2 api⟩
  · exact List.forall_mem_singleton.2 (Text.not_marked_of_not_mem (by decide +kernel))

/-- The fragment passes for one, and the line has three addresses in place of two. -/
theorem site_addresses_invalid_list :
    (extendedBy "api, www").lint = [] ∧
      ∃ site ∈ (extendedBy "api, www").sites "./certs",
        (∃ a ∈ site.addresses, Host.valid (hostIn a) = false) ∧
          site.addresses.length = 2 ∧ (addressesIn site.key).length = 3 := by
  decide +kernel

end Caddyfile

end ProxyConfig
