import ProxyConfig.Lint.Checks
import ProxyConfig.Proofs.Text.NumberReadings

/-!
Ranges of addresses.  A range is an address, a slash, and the length of the part that its addresses have
in common.  The length is read as a number, so that a plus sign and zeros may stand in front of it.  Main
statement: this is all that is accepted besides addresses and plain ranges (`plain_ranges_accepted_iff`).
-/

namespace ProxyConfig

namespace Numeral

variable {s : List Char} {n : Nat}

theorem toNat_of_isDigit {c : Char} (digit : c.isDigit = true) :
    '0'.toNat ≤ c.toNat ∧ c.toNat - '0'.toNat < 10 := by
  have range : c.isDigit = ('0' ≤ c && c ≤ '9') := rfl
  rw [range, Bool.and_eq_true] at digit
  have low : '0'.toNat ≤ c.toNat := of_decide_eq_true digit.1
  have high : c.toNat ≤ '9'.toNat := of_decide_eq_true digit.2
  exact ⟨low, Nat.sub_lt_right_of_lt_add low (Nat.lt_succ_of_le high)⟩

theorem toDigits_of_isDigit {c : Char} (digit : c.isDigit = true) :
    Nat.toDigits 10 (c.toNat - '0'.toNat) = [c] := by
  obtain ⟨low, small⟩ := toNat_of_isDigit digit
  rw [Nat.toDigits_of_lt_base small, List.singleton_inj]
  apply Char.toNat_inj.1
  rw [Nat.toNat_digitChar_of_lt_ten small]
  exact Nat.add_sub_of_le low

theorem toDigits_append {acc : Nat} (positive : 0 < acc) (digits : ∀ c ∈ s, c.isDigit = true) :
    Nat.toDigits 10 acc ++ s = Nat.toDigits 10 (Nat.ofDigitChars 10 s acc) := by
  induction s generalizing acc with
  | nil => rw [List.append_nil, Nat.ofDigitChars_nil]
  | cons c s ih =>
    obtain ⟨digit, digits⟩ := List.forall_mem_cons.1 digits
    have more := Nat.toDigits_append_toDigits (b := 10) (n := acc) (by decide) positive
      (toNat_of_isDigit digit).2
    calc Nat.toDigits 10 acc ++ c :: s
        = Nat.toDigits 10 acc ++ Nat.toDigits 10 (c.toNat - '0'.toNat) ++ s := by
          rw [toDigits_of_isDigit digit, List.append_assoc, List.singleton_append]
      _ = Nat.toDigits 10 (10 * acc + (c.toNat - '0'.toNat)) ++ s := by rw [more]
      _ = Nat.toDigits 10 (Nat.ofDigitChars 10 (c :: s) acc) := by
          rw [Nat.ofDigitChars_cons]
          exact ih (by omega) digits

theorem Decimal.eq_zeros_append (decimal : Decimal s n) :
    ∃ zeros, s = List.replicate zeros '0' ++ Nat.toDigits 10 n := by
  obtain ⟨some, digits, rfl⟩ := decimal
  induction s with
  | nil => exact absurd rfl some
  | cons c s ih =>
    obtain ⟨digit, behind⟩ := List.forall_mem_cons.1 digits
    rw [Nat.ofDigitChars_cons, Nat.mul_zero, Nat.zero_add]
    by_cases zero : c = '0'
    · subst zero
      cases s with
      | nil => exact ⟨0, rfl⟩
      | cons d s =>
        obtain ⟨zeros, text⟩ := ih nofun behind
        exact ⟨zeros + 1, congrArg ('0' :: ·) text⟩
    · have positive : 0 < c.toNat - '0'.toNat := by
        have low := (toNat_of_isDigit digit).1
        have other : c.toNat ≠ '0'.toNat := fun same => zero (Char.toNat_inj.1 same)
        omega
      refine ⟨0, ?_⟩
      rw [← toDigits_append positive behind, toDigits_of_isDigit digit]
      rfl

theorem Decimal.zeros_append (decimal : Decimal s n) (zeros : Nat) :
    Decimal (List.replicate zeros '0' ++ s) n := by
  induction zeros with
  | zero => exact decimal
  | succ zeros ih =>
    exact ⟨nofun, List.forall_mem_cons.2 ⟨rfl, ih.digits⟩, ih.value⟩

end Numeral

namespace Address

/-- The length of a range's common part as it is plainly written: one to three digits, none of them a
zero in front of others, of a number up to that of the bits. -/
structure PlainLength (bits : Nat) (s : List Char) : Prop where
  short : s.length ≤ 3
  unpadded : s.head? = some '0' → s = ['0']
  value : ∃ n, Numeral.Decimal s n ∧ n ≤ bits

/-- What changes no number that it stands in front of: a plus sign, zeros, or both in this order. -/
def Front (front : List Char) : Prop :=
  ∃ zeros, front = List.replicate zeros '0' ∨ front = '+' :: List.replicate zeros '0'

def RangeWith (front s : List Char) : Prop :=
  ∃ address family length, s = address ++ '/' :: (front ++ length) ∧
    family? address = some family ∧ PlainLength family.bits length

theorem bits_le (family : Family) : family.bits ≤ 128 := by
  cases family <;> decide

theorem plainLength_toDigits {bits n : Nat} (inside : n ≤ bits) (small : bits ≤ 128) :
    PlainLength bits (Nat.toDigits 10 n) where
  short := (Nat.length_toDigits_le_iff (by decide) (by decide)).2 (by omega)
  unpadded := by
    have all : ∀ n < 129, (Nat.toDigits 10 n).head? = some '0' → Nat.toDigits 10 n = ['0'] := by
      decide +kernel
    exact all n (by omega)
  value := ⟨n, Numeral.decimal_toDigits n, inside⟩

theorem exists_natural_iff {bits : Nat} (small : bits ≤ 128) {s : List Char} :
    (∃ n, Numeral.Natural s n ∧ n ≤ bits) ↔
      ∃ front length, s = front ++ length ∧ Front front ∧ PlainLength bits length := by
  constructor
  · rintro ⟨n, ⟨digits, decimal, signed⟩, inside⟩
    obtain ⟨zeros, text⟩ := decimal.eq_zeros_append
    have plain := plainLength_toDigits inside small
    rcases signed with rfl | rfl
    · exact ⟨_, _, text, ⟨zeros, .inl rfl⟩, plain⟩
    · exact ⟨_, _, congrArg ('+' :: ·) text, ⟨zeros, .inr rfl⟩, plain⟩
  · rintro ⟨_, length, rfl, ⟨zeros, rfl | rfl⟩, ⟨-, -, n, decimal, inside⟩⟩
    · exact ⟨n, ⟨_, decimal.zeros_append zeros, .inl rfl⟩, inside⟩
    · exact ⟨n, ⟨_, decimal.zeros_append zeros, .inr rfl⟩, inside⟩

theorem slash_not_mem {s : List Char} {family : Family} (read : family? s = some family) : '/' ∉ s :=
  not_mem_of_family? (by decide) read

theorem isAddressOrRange_append {address length : List Char} {family : Family}
    (read : family? address = some family) :
    isAddressOrRange (address ++ '/' :: length) = true ↔
      ∃ n, Numeral.Natural length n ∧ n ≤ family.bits := by
  have bits := bits_le family
  rw [isAddressOrRange, Text.cutFirst_append (slash_not_mem read)]
  dsimp only
  rw [read]
  constructor
  · intro accepted
    split at accepted
    case h_1 n same given =>
      cases same
      exact ⟨n, (Numeral.unsigned?_eq_some_iff.1 given).1, of_decide_eq_true accepted⟩
    case h_2 => cases accepted
  · rintro ⟨n, natural, inside⟩
    have given : Numeral.unsigned? 256 length = some n :=
      Numeral.unsigned?_eq_some_iff.2 ⟨natural, by omega⟩
    rw [given]
    exact decide_eq_true inside

theorem isAddressOrRange_of_family? {s : List Char} {family : Family}
    (read : family? s = some family) : isAddressOrRange s = true := by
  cases cut : Text.cutFirst '/' s with
  | none => rw [isAddressOrRange, cut, read, Option.isSome_some]
  | some parts =>
    have text := (Text.cutFirst_eq_some cut).1
    have there : '/' ∈ s := by
      rw [text]
      exact List.mem_append_right _ List.mem_cons_self
    exact absurd there (slash_not_mem read)

theorem isAddressOrRange_iff {s : List Char} :
    isAddressOrRange s = true ↔
      (family? s).isSome = true ∨ ∃ front, Front front ∧ RangeWith front s := by
  constructor
  · intro accepted
    cases cut : Text.cutFirst '/' s with
    | none =>
      rw [isAddressOrRange, cut] at accepted
      exact .inl accepted
    | some parts =>
      obtain ⟨address, behind⟩ := parts
      obtain ⟨rfl, -⟩ := Text.cutFirst_eq_some cut
      cases read : family? address with
      | none =>
        rw [isAddressOrRange, cut] at accepted
        simp [read] at accepted
      | some family =>
        have number := (isAddressOrRange_append read).1 accepted
        obtain ⟨front, length, rfl, possible, plain⟩ := (exists_natural_iff (bits_le family)).1 number
        exact .inr ⟨front, possible, address, family, length, rfl, read, plain⟩
  · rintro (address | ⟨front, possible, address, family, length, rfl, read, plain⟩)
    · obtain ⟨family, read⟩ := Option.isSome_iff_exists.1 address
      exact isAddressOrRange_of_family? read
    · rw [isAddressOrRange_append read, exists_natural_iff (bits_le family)]
      exact ⟨front, length, rfl, possible, plain⟩

section Fronted

variable {front s : List Char} (range : RangeWith front s)
include range

theorem RangeWith.family?_eq_none : family? s = none := by
  obtain ⟨address, _, length, rfl, -, -⟩ := range
  cases read : family? (address ++ '/' :: (front ++ length)) with
  | none => rfl
  | some family =>
    have there : '/' ∈ address ++ '/' :: (front ++ length) :=
      List.mem_append_right _ List.mem_cons_self
    exact absurd there (slash_not_mem read)

theorem RangeWith.front_eq_nil (possible : Front front) (plain : RangeWith [] s) : front = [] := by
  obtain ⟨first, _, length, text, readFirst, ⟨-, -, _, decimal, -⟩⟩ := range
  obtain ⟨second, _, other, again, readSecond, ⟨-, unpadded, _, digits, -⟩⟩ := plain
  have same : front ++ length = other := by
    have cut := Text.cutFirst_append (slash_not_mem readFirst) (front ++ length)
    rw [← text, again, Text.cutFirst_append (slash_not_mem readSecond)] at cut
    cases cut
    rfl
  subst same
  obtain ⟨zeros, rfl | rfl⟩ := possible
  · cases zeros with
    | zero => rfl
    | succ zeros =>
      -- the zero in front would be the whole length
      have none := List.append_eq_nil_iff.1 (List.cons.inj (unpadded rfl)).2
      exact absurd none.2 decimal.some
  · exact absurd List.mem_cons_self (@Numeral.Decimal.not_mem _ _ digits '+' rfl)

theorem RangeWith.not_plain (possible : Front front) (filled : front ≠ []) :
    ¬ ((family? s).isSome = true ∨ RangeWith [] s) := by
  rintro (address | plain)
  · rw [range.family?_eq_none] at address
    cases address
  · exact filled (range.front_eq_nil possible plain)

end Fronted

/-- A text is accepted exactly if it is an address, or a range with a plus sign, zeros or nothing in
front of its length.  So the accepted texts are the addresses and the plain ranges, except for the ranges
with something in front. -/
theorem plain_ranges_accepted_iff (s : List Char) :
    (isAddressOrRange s = true ↔
      (family? s).isSome = true ∨ ∃ front, Front front ∧ RangeWith front s) ∧
    ((isAddressOrRange s = true ↔ (family? s).isSome = true ∨ RangeWith [] s) ↔
      ¬ ∃ front, Front front ∧ front ≠ [] ∧ RangeWith front s) := by
  refine ⟨isAddressOrRange_iff, ?_⟩
  rw [isAddressOrRange_iff]
  constructor
  · rintro claimed ⟨front, possible, filled, range⟩
    exact range.not_plain possible filled (claimed.1 (.inr ⟨front, possible, range⟩))
  · intro unfronted
    refine or_congr_right ⟨?_, fun plain => ⟨[], ⟨0, .inl rfl⟩, plain⟩⟩
    rintro ⟨front, possible, range⟩
    by_cases filled : front = []
    · exact filled ▸ range
    · exact absurd ⟨front, possible, filled, range⟩ unfronted

def office : AccessList where
  id := "office"
  clientIps := ["10.0.0.0/+8", "2001:db8::/0032"]

theorem rangeWith_sign : RangeWith ['+'] "10.0.0.0/+8".toList :=
  ⟨"10.0.0.0".toList, .v4, Nat.toDigits 10 8, by decide, by decide,
    plainLength_toDigits (by decide) (by decide)⟩

theorem rangeWith_zeros : RangeWith ['0', '0'] "2001:db8::/0032".toList :=
  ⟨"2001:db8::".toList, .v6, Nat.toDigits 10 32, by decide, by decide,
    plainLength_toDigits (by decide) (by decide)⟩

theorem office_accepted :
    office.lint = [] ∧
      ∀ text ∈ office.clientIps, isAddressOrRange text.toList = true ∧
        ¬ ((family? text.toList).isSome = true ∨ RangeWith [] text.toList) := by
  have sign := rangeWith_sign.not_plain ⟨0, .inr rfl⟩ nofun
  have zeros := rangeWith_zeros.not_plain ⟨2, .inl rfl⟩ nofun
  refine ⟨by decide +kernel, List.forall_mem_cons.2 ⟨⟨by decide, sign⟩, ?_⟩⟩
  exact List.forall_mem_singleton.2 ⟨by decide, zeros⟩

end Address

end ProxyConfig
