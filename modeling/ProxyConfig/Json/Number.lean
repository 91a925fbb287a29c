import ProxyConfig.Draft
import ProxyConfig.Text.Pieces

/-!
Numbers of JSON text.  A whole number from `-2 ^ 63` to `2 ^ 64 - 1` is exact, but for `-0`; any other
number is read in floating point, rounding twice: the leading digits that fit 64 bits are rounded,
and the result is multiplied with or divided by a rounded power of ten.  A number that is beyond all
bounds after that has no value.
-/

namespace ProxyConfig.Json

open Decimal Text

structure NumberParts where
  negative : Bool
  whole : List Nat
  fraction : Option (List Nat)
  exponent : Option Int

/-- Takes digits behind `acc` while the value stays below `2 ^ 64`. -/
def takeDigits (acc : Nat) : List Nat → Nat × List Nat
  | [] => (acc, [])
  | d :: rest => if acc * 10 + d < 1 <<< 64 then takeDigits (acc * 10 + d) rest else (acc, d :: rest)

/-- Divides or multiplies by a power of ten, in steps of `10 ^ 308`. -/
def shift : (steps : Nat) → Magnitude → (exponent : Int) → Option Magnitude
  | 0, _, _ => some .zero
  | steps + 1, m, exponent =>
    if exponent.natAbs ≤ 308 then do
      let power ← Magnitude.nearest (Nat.pow 10 exponent.natAbs) 1
      if 0 ≤ exponent then m.mul power else m.div power
    else if m.isZero then some m
    else if 0 ≤ exponent then none
    else do
      let power ← Magnitude.nearest (Nat.pow 10 308) 1
      shift steps (← m.div power) (exponent + 308)

def NumberParts.float? (p : NumberParts) : Option Binary64 := do
  let (significand, dropped) := takeDigits 0 p.whole
  let fraction := p.fraction.getD []
  let (significand, unused) := takeDigits significand fraction
  let places : Int := (dropped.length : Int) - (fraction.length - unused.length : Nat)
  let start ← Magnitude.nearest significand 1
  let m ← shift 4 start (places + p.exponent.getD 0)
  pure (.finite p.negative m)

def NumberParts.value? (p : NumberParts) : Option Scalar :=
  let whole : Nat := p.whole.foldl (fun n d => n * 10 + d) 0
  match p.fraction, p.exponent, p.negative with
  | none, none, false => if whole < 1 <<< 64 then some (.int whole) else p.float?.map .float
  | none, none, true =>
    if 0 < whole && whole ≤ 1 <<< 63 then some (.int (-whole)) else p.float?.map .float
  | _, _, _ => p.float?.map .float

def digits : List Piece → List Nat × List Piece
  | .char c :: rest =>
    if '0' ≤ c && c ≤ '9' then
      let (ds, rest) := digits rest
      ((c.toNat - '0'.toNat) :: ds, rest)
    else ([], .char c :: rest)
  | input => ([], input)

/-- The fault where a digit has to stand and none does; a text that ends there counts as malformed
in a value that is passed over. -/
def digitFault : List Piece → Fault
  | [] => ⟨.endOfText, .malformed⟩
  | _ :: _ => .malformed

def readExponent (input : List Piece) : Except Fault (Option Int × List Piece) :=
  match input with
  | .char 'e' :: rest | .char 'E' :: rest =>
    let (sign, rest) : Int × List Piece := match rest with
      | .char '+' :: rest => (1, rest)
      | .char '-' :: rest => (-1, rest)
      | _ => (1, rest)
    match digits rest with
    | ([], rest) => .error (digitFault rest)
    | (ds, rest) => .ok (some (sign * (ds.foldl (fun n d => n * 10 + d) 0 : Nat)), rest)
  | _ => .ok (none, input)

def readFraction (input : List Piece) : Except Fault (Option (List Nat) × List Piece) :=
  match input with
  | .char '.' :: rest =>
    match digits rest with
    | ([], rest) => .error (digitFault rest)
    | (ds, rest) => .ok (some ds, rest)
  | _ => .ok (none, input)

/-- The number at the beginning; a zero in front of another digit is a fault. -/
def readNumber (input : List Piece) : Except Fault (NumberParts × List Piece) := do
  let (negative, input) := match input with
    | .char '-' :: rest => (true, rest)
    | _ => (false, input)
  match digits input with
  | ([], rest) => throw (digitFault rest)
  | (0 :: _ :: _, _) => throw .malformed
  | (whole, rest) =>
    let (fraction, rest) ← readFraction rest
    let (exponent, rest) ← readExponent rest
    pure (⟨negative, whole, fraction, exponent⟩, rest)

end ProxyConfig.Json
