import ProxyConfig.Address
import ProxyConfig.Duration

/-!
What cannot stand in texts that are accepted.  Main statements: an address holds no character that is
foreign to addresses, a range of addresses no line feed, and a number nothing but digits; digits and a
span of units hold no blank at all.
-/

namespace ProxyConfig

namespace Text

def Pattern.mentions (c : Char) : Pattern → Bool
  | .none | .empty => false
  | .one ranges => inRanges ranges c
  | .seq p q | .alt p q => p.mentions c || q.mentions c
  | .star p | .upTo _ p => p.mentions c

theorem Pattern.mentions_of_matches {p : Pattern} {s : List Char} (described : Matches p s)
    {c : Char} (there : c ∈ s) : p.mentions c = true := by
  induction described with
  | empty => cases there
  | one h => rw [List.mem_singleton.1 there, mentions, h]
  | seq _ _ ihs iht =>
    rw [mentions, Bool.or_eq_true]
    exact (List.mem_append.1 there).imp ihs iht
  | left _ ih => rw [mentions, ih there, Bool.true_or]
  | right _ ih => rw [mentions, ih there, Bool.or_true]
  | starNil => cases there
  | starCons _ _ ihs iht => exact (List.mem_append.1 there).elim ihs iht
  | upToNil => cases there
  | upToCons _ _ ihs iht => exact (List.mem_append.1 there).elim ihs iht

theorem Pattern.not_matches_of_mem {p : Pattern} {c : Char} (unmentioned : p.mentions c = false)
    {s : List Char} (there : c ∈ s) : ¬ Matches p s := by
  intro described
  rw [mentions_of_matches described there] at unmentioned
  cases unmentioned

theorem Pattern.not_mem_of_accepts {p : Pattern} {s : List Char} (accepted : p.accepts s = true)
    {c : Char} (unmentioned : p.mentions c = false) : c ∉ s :=
  fun there => not_matches_of_mem unmentioned there (accepts_iff.1 accepted)

theorem exists_part_of_mem {p : Char → Bool} {c : Char} (inside : p c = false) {s : List Char}
    (there : c ∈ s) : ∃ part ∈ splitAll p s, c ∈ part := by
  induction s with
  | nil => cases there
  | cons d s ih =>
    rw [splitAll]
    split
    case isTrue separates =>
      rcases List.mem_cons.1 there with rfl | there
      · rw [inside] at separates
        cases separates
      · obtain ⟨part, listed, holds⟩ := ih there
        exact ⟨part, List.mem_cons_of_mem _ listed, holds⟩
    case isFalse =>
      obtain ⟨part, parts, some⟩ := List.exists_cons_of_ne_nil (splitAll_ne_nil p s)
      rw [some] at ih ⊢
      rcases List.mem_cons.1 there with rfl | there
      · exact ⟨c :: part, List.mem_cons_self, List.mem_cons_self⟩
      · obtain ⟨other, listed, holds⟩ := ih there
        rcases List.mem_cons.1 listed with rfl | listed
        · exact ⟨d :: other, List.mem_cons_self, List.mem_cons_of_mem d holds⟩
        · exact ⟨other, List.mem_cons_of_mem _ listed, holds⟩

def blanks : List Char :=
  [9, 10, 11, 12, 13, 0x20, 0x85, 0xA0, 0x1680, 0x2000, 0x2001, 0x2002, 0x2003, 0x2004, 0x2005,
    0x2006, 0x2007, 0x2008, 0x2009, 0x200A, 0x2028, 0x2029, 0x202F, 0x205F, 0x3000].map Char.ofNat

theorem mem_blanks_of_isBlank {c : Char} (blank : isBlank c = true) : c ∈ blanks := by
  refine List.mem_map.2 ⟨c.toNat, ?_, Char.ofNat_toNat c⟩
  simp only [isBlank, Bool.or_eq_true, Bool.and_eq_true, decide_eq_true_eq, beq_iff_eq] at blank
  simp only [List.mem_cons, List.not_mem_nil, or_false]
  omega

theorem eq_false_of_isBlank (p : Char → Bool) (apart : blanks.any p = false) {c : Char}
    (blank : isBlank c = true) : p c = false :=
  Bool.eq_false_iff.2 (List.any_eq_false.1 apart c (mem_blanks_of_isBlank blank))

end Text

namespace Numeral

theorem not_mem_of_extend? {radix acc n : Nat} {s : List Char} (read : extend? radix acc s = some n)
    {c : Char} (foreign : digit? radix c = none) : c ∉ s := by
  induction s generalizing acc with
  | nil => exact List.not_mem_nil
  | cons d s ih =>
    obtain ⟨v, digit, rest⟩ := Option.bind_eq_some_iff.1 read
    rw [List.mem_cons, not_or]
    refine ⟨fun same => ?_, ih rest⟩
    rw [same, digit] at foreign
    cases foreign

theorem not_mem_of_value? {radix n : Nat} {s : List Char} (read : value? radix s = some n)
    {c : Char} (foreign : digit? radix c = none) : c ∉ s := by
  cases s with
  | nil => exact List.not_mem_nil
  | cons d s => exact not_mem_of_extend? read foreign

theorem not_mem_of_unsigned? {bound n : Nat} {s : List Char} (read : unsigned? bound s = some n)
    {c : Char} (foreign : digit? 10 c = none) (other : c ≠ '+') : c ∉ s := by
  unfold unsigned? at read
  have value := (Option.filter_eq_some_iff.1 read).1
  split at value
  case h_1 rest =>
    rw [List.mem_cons, not_or]
    exact ⟨other, not_mem_of_value? value foreign⟩
  case h_2 => exact not_mem_of_value? value foreign

end Numeral

namespace Address

def Foreign (c : Char) : Prop :=
  Numeral.digit? 10 c = none ∧ Numeral.digit? 16 c = none ∧ c ≠ '.' ∧ c ≠ ':'

instance : DecidablePred Foreign := fun _ => inferInstanceAs (Decidable (_ ∧ _))

theorem foreign_of_isBlank {c : Char} (blank : Text.isBlank c = true) : Foreign c := by
  have other := Text.eq_false_of_isBlank (fun c => !decide (Foreign c)) (by decide) blank
  simpa using other

section Foreign

variable {c : Char} (foreign : Foreign c)
include foreign

theorem not_mem_of_isOctet {s : List Char} (octet : isOctet s = true) : c ∉ s := by
  rw [isOctet, Bool.and_eq_true] at octet
  obtain ⟨-, small⟩ := octet
  split at small
  case h_1 n value => exact Numeral.not_mem_of_value? value foreign.1
  case h_2 => cases small

theorem not_mem_of_isV4 {s : List Char} (v4 : isV4 s = true) : c ∉ s := by
  intro there
  have inside : (c == '.') = false := beq_eq_false_iff_ne.2 foreign.2.2.1
  obtain ⟨part, listed, holds⟩ := Text.exists_part_of_mem (p := (· == '.')) inside there
  rw [isV4, Bool.and_eq_true, List.all_eq_true] at v4
  exact not_mem_of_isOctet foreign (v4.2 part listed) holds

theorem not_mem_of_isGroup {s : List Char} (group : isGroup s = true) : c ∉ s := by
  rw [isGroup, Bool.and_eq_true] at group
  obtain ⟨n, value⟩ := Option.isSome_iff_exists.1 group.2
  exact Numeral.not_mem_of_value? value foreign.2.1

theorem not_mem_of_countGroups? {endsInV4 : Bool} {parts : List (List Char)} {n : Nat}
    (counted : countGroups? endsInV4 parts = some n) : ∀ part ∈ parts, c ∉ part := by
  induction parts generalizing n with
  | nil => exact List.forall_mem_nil _
  | cons part rest ih =>
    cases rest with
    | nil =>
      rw [countGroups?] at counted
      rw [List.forall_mem_singleton]
      split at counted
      case isTrue group => exact not_mem_of_isGroup foreign group
      case isFalse =>
        split at counted
        case isTrue v4 => exact not_mem_of_isV4 foreign (Bool.and_eq_true_iff.1 v4).2
        case isFalse => cases counted
    | cons next rest =>
      rw [countGroups?.eq_3 _ _ _ (by simp)] at counted
      split at counted
      case isTrue group =>
        obtain ⟨m, others, -⟩ := Option.map_eq_some_iff.1 counted
        exact List.forall_mem_cons.2 ⟨not_mem_of_isGroup foreign group, ih others⟩
      case isFalse => cases counted

theorem not_mem_of_groups? {endsInV4 : Bool} {s : List Char} {n : Nat}
    (counted : groups? endsInV4 s = some n) : c ∉ s := by
  rw [groups?] at counted
  split at counted
  case isTrue none =>
    rw [List.isEmpty_iff.1 none]
    exact List.not_mem_nil
  case isFalse =>
    intro there
    have inside : (c == ':') = false := beq_eq_false_iff_ne.2 foreign.2.2.2
    obtain ⟨part, listed, holds⟩ := Text.exists_part_of_mem (p := (· == ':')) inside there
    exact not_mem_of_countGroups? foreign counted part listed holds

end Foreign

theorem cutGap_eq_some {s before after : List Char} (cut : cutGap s = some (before, after)) :
    s = before ++ ':' :: ':' :: after := by
  induction s generalizing before with
  | nil => cases cut
  | cons c s ih =>
    by_cases gap : ∃ rest, c :: s = ':' :: ':' :: rest
    · obtain ⟨rest, text⟩ := gap
      rw [text] at cut ⊢
      cases cut
      rfl
    · rw [cutGap.eq_2 _ _ fun rest same more => gap ⟨rest, by rw [same, more]⟩] at cut
      obtain ⟨⟨front, back⟩, found, same⟩ := Option.map_eq_some_iff.1 cut
      cases same
      rw [ih found]
      rfl

theorem not_mem_of_isV6 {c : Char} (foreign : Foreign c) {s : List Char} (v6 : isV6 s = true) :
    c ∉ s := by
  rw [isV6] at v6
  split at v6
  case h_1 => exact not_mem_of_groups? foreign (eq_of_beq v6)
  case h_2 before after cut =>
    split at v6
    case h_1 m n first second =>
      rw [cutGap_eq_some cut]
      simp [not_mem_of_groups? foreign first, not_mem_of_groups? foreign second,
        foreign.2.2.2]
    case h_2 => cases v6

theorem not_mem_of_family? {c : Char} (foreign : Foreign c) {s : List Char} {family : Family}
    (read : family? s = some family) : c ∉ s := by
  rw [family?] at read
  split at read
  case isTrue v4 => exact not_mem_of_isV4 foreign v4
  case isFalse =>
    split at read
    case isTrue v6 => exact not_mem_of_isV6 foreign v6
    case isFalse => cases read

theorem lineFeed_not_mem_of_isAddressOrRange {s : List Char}
    (accepted : isAddressOrRange s = true) : '\n' ∉ s := by
  rw [isAddressOrRange] at accepted
  split at accepted
  case h_1 =>
    obtain ⟨family, read⟩ := Option.isSome_iff_exists.1 accepted
    exact not_mem_of_family? (by decide) read
  case h_2 address length cut =>
    split at accepted
    case h_1 family n first second =>
      rw [(Text.cutFirst_eq_some cut).1]
      have before := not_mem_of_family? (c := '\n') (by decide) first
      have behind := Numeral.not_mem_of_unsigned? second (c := '\n') rfl (by decide)
      simp [before, behind]
    case h_2 => cases accepted

end Address

namespace Duration

theorem not_isBlank_of_digits {s : List Char} (digits : s.all Caddyfile.isAsciiDigit = true) :
    ∀ c ∈ s, Text.isBlank c = false := by
  intro c there
  have digit := List.all_eq_true.1 digits c there
  refine Bool.eq_false_iff.2 fun blank => ?_
  rw [Text.eq_false_of_isBlank Caddyfile.isAsciiDigit (by decide) blank] at digit
  cases digit

theorem not_isBlank_of_unitSpan {s : List Char} (span : unitSpan.accepts s = true) :
    ∀ c ∈ s, Text.isBlank c = false := by
  intro c there
  refine Bool.eq_false_iff.2 fun blank => ?_
  have unmentioned : unitSpan.mentions c = false :=
    Text.eq_false_of_isBlank (fun c => unitSpan.mentions c) (by decide +kernel) blank
  exact Text.Pattern.not_mem_of_accepts span unmentioned there

end Duration

end ProxyConfig
