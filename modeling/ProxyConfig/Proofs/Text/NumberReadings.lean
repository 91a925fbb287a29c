import ProxyConfig.Caddyfile.SiteBlock
import ProxyConfig.Proofs.Text.AcceptedTexts
import ProxyConfig.Proofs.Text.Words

/-!
Numbers in text, as they are written and as they are read.  `Natural` and `Whole` say which texts are
numbers, and of which value: digits with a sign in front if need be, and with as many zeros in front as
one likes.  Main statement: each reading of a numeric field gives the value that its text has, if that is
in range, and nothing otherwise; and what is rendered of a value is read as this value again.
-/

namespace ProxyConfig

namespace Numeral

structure Decimal (s : List Char) (n : Nat) : Prop where
  some : s ≠ []
  digits : ∀ c ∈ s, c.isDigit = true
  value : Nat.ofDigitChars 10 s 0 = n

def Natural (s : List Char) (n : Nat) : Prop :=
  ∃ digits, Decimal digits n ∧ (s = digits ∨ s = '+' :: digits)

def Whole (s : List Char) (z : Int) : Prop :=
  (∃ n : Nat, Natural s n ∧ z = n) ∨
    ∃ digits, ∃ n : Nat, Decimal digits n ∧ s = '-' :: digits ∧ z = -n

theorem digit?_ten_eq (c : Char) :
    digit? 10 c = if c.isDigit then some (c.toNat - '0'.toNat) else none := by
  have range : c.isDigit = ('0' ≤ c && c ≤ '9') := rfl
  rw [range, digit?]
  split
  case isTrue digit =>
    obtain ⟨first, last⟩ := Bool.and_eq_true_iff.1 digit
    have low : '0'.toNat ≤ c.toNat := of_decide_eq_true first
    have high : c.toNat < '9'.toNat + 1 := Nat.lt_succ_of_le (of_decide_eq_true last)
    exact if_pos (Nat.sub_lt_right_of_lt_add low high)
  case isFalse =>
    -- letters stand for ten and more
    refine if_neg ?_
    split
    · omega
    · split <;> omega

theorem extend?_ten_eq_some_iff {s : List Char} {acc n : Nat} :
    extend? 10 acc s = some n ↔
      (∀ c ∈ s, c.isDigit = true) ∧ Nat.ofDigitChars 10 s acc = n := by
  induction s generalizing acc with
  | nil => simp [extend?]
  | cons c s ih =>
    rw [extend?, digit?_ten_eq, List.forall_mem_cons, Nat.ofDigitChars_cons, Nat.mul_comm 10]
    cases c.isDigit with
    | true => simp [ih]
    | false => simp

theorem value?_ten_eq_some_iff {s : List Char} {n : Nat} : value? 10 s = some n ↔ Decimal s n := by
  cases s with
  | nil => exact ⟨nofun, fun decimal => absurd rfl decimal.some⟩
  | cons c s =>
    have read : value? 10 (c :: s) = extend? 10 0 (c :: s) := rfl
    rw [read, extend?_ten_eq_some_iff]
    exact ⟨fun ⟨digits, value⟩ => ⟨nofun, digits, value⟩,
      fun decimal => ⟨decimal.digits, decimal.value⟩⟩

theorem decimal_toDigits (n : Nat) : Decimal (Nat.toDigits 10 n) n where
  some := Nat.toDigits_ne_nil
  digits _ there := Nat.isDigit_of_mem_toDigits (by decide) (by decide) there
  value := Nat.ofDigitChars_ten_toDigits

section Signs

variable {s : List Char} {n : Nat}

theorem Decimal.not_mem (decimal : Decimal s n) {c : Char} (foreign : c.isDigit = false) : c ∉ s := by
  intro there
  rw [decimal.digits c there] at foreign
  cases foreign

theorem natural_plus_iff : Natural ('+' :: s) n ↔ Decimal s n := by
  constructor
  · rintro ⟨digits, decimal, rfl | plus⟩
    · exact absurd List.mem_cons_self (decimal.not_mem rfl)
    · cases plus
      exact decimal
  · exact fun decimal => ⟨s, decimal, .inr rfl⟩

theorem natural_iff_decimal (unsigned : ∀ rest, s ≠ '+' :: rest) : Natural s n ↔ Decimal s n := by
  constructor
  · rintro ⟨digits, decimal, rfl | plus⟩
    · exact decimal
    · exact absurd plus (unsigned digits)
  · exact fun decimal => ⟨s, decimal, .inl rfl⟩

theorem unsigned?_eq_some_iff {bound : Nat} :
    unsigned? bound s = some n ↔ Natural s n ∧ n < bound := by
  unfold unsigned?
  rw [Option.filter_eq_some_iff, decide_eq_true_iff]
  refine and_congr_left fun _ => ?_
  split
  case h_1 rest => rw [value?_ten_eq_some_iff, natural_plus_iff]
  case h_2 plain => rw [value?_ten_eq_some_iff, natural_iff_decimal plain]

theorem whole_minus_iff {z : Int} : Whole ('-' :: s) z ↔ ∃ n : Nat, Decimal s n ∧ z = -n := by
  constructor
  · rintro (⟨n, ⟨digits, decimal, rfl | plus⟩, -⟩ | ⟨digits, n, decimal, minus, value⟩)
    · exact absurd List.mem_cons_self (decimal.not_mem rfl)
    · cases plus
    · cases minus
      exact ⟨n, decimal, value⟩
  · rintro ⟨n, decimal, value⟩
    exact .inr ⟨s, n, decimal, rfl, value⟩

theorem whole_iff_natural (plain : ∀ rest, s ≠ '-' :: rest) {z : Int} :
    Whole s z ↔ ∃ n : Nat, Natural s n ∧ z = n :=
  or_iff_left fun ⟨digits, _, _, minus, _⟩ => plain digits minus

theorem signed?_eq_some_iff {bound : Nat} (positive : 0 < bound) {z : Int} :
    signed? bound s = some z ↔ Whole s z ∧ -bound ≤ z ∧ z < bound := by
  unfold signed?
  simp only [Option.bind_eq_bind, Option.pure_def]
  split
  case h_1 rest =>
    simp only [whole_minus_iff, Option.map_eq_some_iff, Option.bind_eq_some_iff, Option.some_inj,
      Option.filter_eq_some_iff, value?_ten_eq_some_iff, decide_eq_true_iff]
    constructor
    · rintro ⟨_, ⟨n, ⟨decimal, small⟩, rfl⟩, rfl⟩
      exact ⟨⟨n, decimal, rfl⟩, by omega, by omega⟩
    · rintro ⟨⟨n, decimal, rfl⟩, low, -⟩
      exact ⟨_, ⟨n, ⟨decimal, by omega⟩, rfl⟩, rfl⟩
  case h_2 plain =>
    simp only [whole_iff_natural plain, Option.map_eq_some_iff, Option.bind_eq_some_iff,
      Option.some_inj, unsigned?_eq_some_iff]
    constructor
    · rintro ⟨_, ⟨n, ⟨natural, small⟩, rfl⟩, rfl⟩
      exact ⟨⟨n, natural, rfl⟩, by omega, by omega⟩
    · rintro ⟨⟨n, natural, rfl⟩, -, high⟩
      exact ⟨_, ⟨n, ⟨natural, by omega⟩, rfl⟩, rfl⟩

end Signs

theorem natural_toString (n : Nat) : Natural (toString n).toList n :=
  ⟨_, decimal_toDigits n, .inl Nat.toList_repr⟩

theorem whole_toString (z : Int) : Whole (toString z).toList z := by
  cases z with
  | ofNat n => exact .inl ⟨n, natural_toString n, rfl⟩
  | negSucc n =>
    have text : (toString (Int.negSucc n)).toList = '-' :: Nat.toDigits 10 (n + 1) := by
      rw [Int.toString_eq_repr, Int.repr, String.toList_append, Nat.toList_repr]
      rfl
    exact .inr ⟨_, n + 1, decimal_toDigits (n + 1), text, rfl⟩

theorem Decimal.not_isBlank {s : List Char} {n : Nat} (decimal : Decimal s n) :
    ∀ c ∈ s, Text.isBlank c = false := by
  intro c there
  refine Bool.eq_false_iff.2 fun blank => ?_
  exact decimal.not_mem (Text.eq_false_of_isBlank Char.isDigit (by decide) blank) there

theorem Whole.trimmed_eq {s : List Char} {z : Int} (whole : Whole s z) : Text.trimmed s = s := by
  refine Text.trimmed_eq_self (Text.trimmed_of_filled ?_)
  rcases whole with ⟨n, ⟨digits, decimal, rfl | rfl⟩, -⟩ | ⟨digits, n, decimal, rfl, -⟩
  · exact decimal.not_isBlank
  · exact List.forall_mem_cons.2 ⟨rfl, decimal.not_isBlank⟩
  · exact List.forall_mem_cons.2 ⟨rfl, decimal.not_isBlank⟩

theorem Natural.whole {s : List Char} {n : Nat} (natural : Natural s n) : Whole s n :=
  .inl ⟨n, natural, rfl⟩

end Numeral

namespace NumberText

open Numeral

def IsNatural (t : NumberText) (n : Nat) : Prop := Natural (Text.trim t.raw).toList n

def IsWhole (t : NumberText) (z : Int) : Prop := Whole (Text.trim t.raw).toList z

variable {t : NumberText}

theorem bits?_eq_some_iff {width n : Nat} :
    t.bits? width = some n ↔ t.IsNatural n ∧ n < Nat.pow 2 width := by
  have bound : 1 <<< width = Nat.pow 2 width := Nat.one_shiftLeft width
  rw [bits?, unsigned?_eq_some_iff, bound, ← Text.toList_trim]
  rfl

theorem signed64?_eq_some_iff {z : Int} :
    t.signed64? = some z ↔
      t.IsWhole z ∧ -9223372036854775808 ≤ z ∧ z ≤ 9223372036854775807 := by
  have bound : ((1 <<< 63 : Nat) : Int) = 9223372036854775808 := rfl
  rw [signed64?, signed?_eq_some_iff (by decide), bound, ← Text.toList_trim]
  exact and_congr_right fun _ => and_congr_right fun _ => by omega

theorem positive?_eq_some_iff {n : Nat} :
    t.positive? = some n ↔ t.IsNatural n ∧ 1 ≤ n ∧ n < Nat.pow 2 32 := by
  rw [positive?, Option.filter_eq_some_iff, bits?_eq_some_iff, decide_eq_true_iff]
  exact ⟨fun ⟨⟨natural, small⟩, positive⟩ => ⟨natural, positive, small⟩,
    fun ⟨natural, positive, small⟩ => ⟨⟨natural, small⟩, positive⟩⟩

theorem port?_eq_some_iff {p : Nat} :
    t.port? = some p ↔ t.IsNatural p ∧ 1 ≤ p ∧ p ≤ 65535 := by
  rw [port?, Option.filter_eq_some_iff, bits?_eq_some_iff, decide_eq_true_iff]
  exact ⟨fun ⟨⟨natural, small⟩, positive⟩ => ⟨natural, positive, Nat.le_of_lt_succ small⟩,
    fun ⟨natural, positive, small⟩ => ⟨⟨natural, Nat.lt_succ_of_le small⟩, positive⟩⟩

theorem isBlank_eq_false_iff : t.isBlank = false ↔ Text.trim t.raw ≠ "" := by
  rw [isBlank, Text.blank, List.isEmpty_eq_false_iff, ← Text.toList_trim, ne_eq,
    String.toList_eq_nil_iff]

theorem isMalformed_iff {width : Nat} :
    t.isMalformed width = true ↔
      Text.trim t.raw ≠ "" ∧ ∀ n, t.IsNatural n → Nat.pow 2 width ≤ n := by
  rw [isMalformed, Bool.and_eq_true, Bool.not_eq_true', isBlank_eq_false_iff, Option.isNone_iff_eq_none,
    Option.eq_none_iff_forall_ne_some]
  simp only [ne_eq, bits?_eq_some_iff, not_and, Nat.not_lt]

theorem isNatural_toString (n : Nat) : IsNatural ⟨toString n⟩ n := by
  rw [IsNatural, Text.toList_trim, (natural_toString n).whole.trimmed_eq]
  exact natural_toString n

theorem isWhole_toString (z : Int) : IsWhole ⟨toString z⟩ z := by
  rw [IsWhole, Text.toList_trim, (whole_toString z).trimmed_eq]
  exact whole_toString z

def readings : List (NumberText → Option Nat) := [bits? 16, bits? 32, port?, positive?]

theorem reads_back {read : NumberText → Option Nat} (reading : read ∈ readings) {n : Nat}
    (given : read t = some n) : read ⟨toString n⟩ = some n := by
  simp only [readings, List.mem_cons, List.not_mem_nil, or_false] at reading
  rcases reading with rfl | rfl | rfl | rfl
  · exact bits?_eq_some_iff.2 ⟨isNatural_toString n, (bits?_eq_some_iff.1 given).2⟩
  · exact bits?_eq_some_iff.2 ⟨isNatural_toString n, (bits?_eq_some_iff.1 given).2⟩
  · exact port?_eq_some_iff.2 ⟨isNatural_toString n, (port?_eq_some_iff.1 given).2⟩
  · exact positive?_eq_some_iff.2 ⟨isNatural_toString n, (positive?_eq_some_iff.1 given).2⟩

theorem port?_iff_positive? {p : Nat} : t.port? = some p ↔ t.positive? = some p ∧ p ≤ 65535 := by
  rw [port?_eq_some_iff, positive?_eq_some_iff]
  constructor
  · rintro ⟨natural, low, high⟩
    exact ⟨⟨natural, low, Nat.lt_of_le_of_lt high (by decide)⟩, high⟩
  · rintro ⟨⟨natural, low, -⟩, high⟩
    exact ⟨natural, low, high⟩

theorem unread64_iff : t.isBlank = false ∧ t.signed64? = none ↔
    Text.trim t.raw ≠ "" ∧
      ∀ z, t.IsWhole z → z < -9223372036854775808 ∨ 9223372036854775807 < z := by
  rw [isBlank_eq_false_iff, Option.eq_none_iff_forall_ne_some]
  refine and_congr_right fun _ => forall_congr' fun z => ?_
  rw [ne_eq, signed64?_eq_some_iff, not_and]
  exact forall_congr' fun _ => by omega

/-- Each reading of a numeric field gives the value that its text has without the blanks around it: with
so many bits a natural number below the power of two, with 64 bits and a sign a whole number, and as a
port one from 1 to 65535, which is what a count of at least one is up to 65535.  A field is malformed if
something is given that has no such value in range.  And what is rendered of a value is its decimal text,
which is read as this value again. -/
theorem readings_exact (t : NumberText) :
    (∀ width n, t.bits? width = some n ↔ t.IsNatural n ∧ n < Nat.pow 2 width) ∧
      (∀ z, t.signed64? = some z ↔
        t.IsWhole z ∧ -9223372036854775808 ≤ z ∧ z ≤ 9223372036854775807) ∧
      (∀ p, t.port? = some p ↔ t.IsNatural p ∧ 1 ≤ p ∧ p ≤ 65535) ∧
      (∀ p, t.port? = some p ↔ t.positive? = some p ∧ p ≤ 65535) ∧
      (∀ width, t.isMalformed width = true ↔
        Text.trim t.raw ≠ "" ∧ ∀ n, t.IsNatural n → Nat.pow 2 width ≤ n) ∧
      (t.isBlank = false ∧ t.signed64? = none ↔ Text.trim t.raw ≠ "" ∧
        ∀ z, t.IsWhole z → z < -9223372036854775808 ∨ 9223372036854775807 < z) ∧
      (∀ read ∈ readings, ∀ n, read t = some n → read ⟨toString n⟩ = some n ∧
        ∀ name, Caddyfile.optional name ((read t).map toString) =
          [{ name, args := [toString n] }]) ∧
      (∀ p, t.port? = some p → (∀ d : Domain, d.port = t → d.effectivePort = toString p) ∧
        ∀ host, Caddyfile.upstreamAddress host t = host ++ ":" ++ toString p) ∧
      (∀ z, t.signed64? = some z → signed64? ⟨toString z⟩ = some z) := by
  refine ⟨fun _ _ => bits?_eq_some_iff, fun _ => signed64?_eq_some_iff, fun _ => port?_eq_some_iff,
    fun _ => port?_iff_positive?, fun _ => isMalformed_iff, unread64_iff, fun read reading n given => ?_,
    fun p given => ?_, fun z given => ?_⟩
  · refine ⟨reads_back reading given, fun name => ?_⟩
    rw [given]
    rfl
  · refine ⟨fun d same => ?_, fun host => ?_⟩
    · rw [Domain.effectivePort, same, given]
    · rw [Caddyfile.upstreamAddress, given]
  · exact signed64?_eq_some_iff.2 ⟨isWhole_toString z, (signed64?_eq_some_iff.1 given).2⟩

def lastPort : NumberText := ⟨"\t+0065535\u00a0"⟩

def leastSigned : NumberText := ⟨"-9223372036854775808"⟩

theorem readings_exact_lastPort :
    lastPort.port? = some 65535 ∧ lastPort.IsNatural 65535 ∧ lastPort.positive? = some 65535 ∧
      port? ⟨"65535"⟩ = some 65535 ∧
      Caddyfile.upstreamAddress "one" lastPort = "one:65535" ∧
      leastSigned.signed64? = some (-9223372036854775808) ∧
      leastSigned.IsWhole (-9223372036854775808) ∧ leastSigned.isMalformed 32 = true := by
  obtain ⟨-, -, port, positive, -, -, back, rendered, -⟩ := readings_exact lastPort
  obtain ⟨-, signed, -, -, -, -, -, -, -⟩ := readings_exact leastSigned
  have given : lastPort.port? = some 65535 := by decide
  have least : leastSigned.signed64? = some (-9223372036854775808) := by decide
  have listed : port? ∈ readings := by simp [readings]
  refine ⟨given, ((port _).1 given).1, ((positive _).1 given).1, (back _ listed _ given).1,
    (rendered _ given).2 "one", least, ((signed _).1 least).1, by decide⟩

end NumberText

end ProxyConfig
