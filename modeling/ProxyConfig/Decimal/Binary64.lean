/-!
Binary floating-point numbers of 64 bits, as far as documents need them: a finite number is a sign
and `mantissa * 2 ^ exponent`.  `nearest` rounds a quotient of natural numbers to the closest
magnitude, a half to the even mantissa; product and quotient of magnitudes round once.
-/

namespace ProxyConfig.Decimal

/-- A finite magnitude: `mantissa < 2 ^ 53` and `-1074 ≤ exponent`. -/
structure Magnitude where
  mantissa : Nat
  exponent : Int
  deriving DecidableEq, Inhabited

inductive Binary64 where
  | finite (negative : Bool) (magnitude : Magnitude)
  | infinite (negative : Bool)
  | nan
  deriving DecidableEq, Inhabited

/-- `num / den` to the nearest natural number, a half to the even one. -/
def roundHalfEven (num den : Nat) : Nat :=
  let q := num / den
  let twice := 2 * (num % den)
  if twice < den then q
  else if den < twice then q + 1
  else if q % 2 = 0 then q else q + 1

/-- The product of a natural number with a power of two that may be negative, as a quotient. -/
def scaled (n : Nat) (power : Int) : Nat × Nat := (n <<< power.toNat, 1 <<< (-power).toNat)

/-- The exponent of the least binary digit that a magnitude close to `num / den` can hold. -/
def lastPlace (num den : Nat) : Int :=
  let estimate : Int := (num.log2 : Int) - den.log2
  let (n, d) := scaled den estimate
  let leading := if num * d < n then estimate - 1 else estimate
  max (leading - 52) (-1074)

namespace Magnitude

def zero : Magnitude := ⟨0, -1074⟩

def isZero (m : Magnitude) : Bool := m.mantissa == 0

/-- The magnitude closest to `num / den`; nothing when it would have to exceed the largest one. -/
def nearest (num den : Nat) : Option Magnitude :=
  if num = 0 then some zero
  else
    let place := lastPlace num den
    let (n, d) := scaled num (-place)
    let mantissa := roundHalfEven n (d * den)
    let m : Magnitude :=
      if mantissa = 1 <<< 53 then ⟨1 <<< 52, place + 1⟩ else ⟨mantissa, place⟩
    if 971 < m.exponent then none else some m

def mul (a b : Magnitude) : Option Magnitude :=
  let (num, den) := scaled (a.mantissa * b.mantissa) (a.exponent + b.exponent)
  nearest num den

def div (a b : Magnitude) : Option Magnitude :=
  let (num, den) := scaled a.mantissa (a.exponent - b.exponent)
  nearest num (den * b.mantissa)

end Magnitude

namespace Binary64

def isZero : Binary64 → Bool
  | finite _ m => m.isZero
  | _ => false

def ofInt (i : Int) : Binary64 :=
  match Magnitude.nearest i.natAbs 1 with
  | some m => finite (i < 0) m
  | none => infinite (i < 0)

/-- The finite number closest to `digits * 10 ^ exponent`, if there is one.  Numbers far outside the
range are told from the count of their binary digits: a bit is at least 0.3 and at most 0.31 decimal
digits. -/
def ofDecimal? (negative : Bool) (digits : Nat) (exponent : Int) : Option Binary64 :=
  if digits = 0 then some (finite negative .zero)
  else
    let bits : Int := digits.log2
    if 400 < exponent + bits * 3 / 10 then none
    else if exponent + bits * 31 / 100 < -402 then some (finite negative .zero)
    else (Magnitude.nearest (digits * Nat.pow 10 exponent.toNat) (Nat.pow 10 (-exponent).toNat)).map
      (finite negative)

end Binary64

end ProxyConfig.Decimal
