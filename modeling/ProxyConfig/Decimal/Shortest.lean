import ProxyConfig.Decimal.Binary64

/-!
The fewest decimal digits that identify a binary number.  A decimal identifies a magnitude when it
lies among the reals that round to it; for one digit, two digits and so on, the two neighbours of the
magnitude on that decimal grid are tried, and the first grid with a hit gives the digits.  Two ways
to lay them out follow: `plain`, always positional, and `scientific`, with an exponent outside the
range of common numbers.
-/

namespace ProxyConfig.Decimal

/-- `digits * 10 ^ exponent`. -/
structure Digits where
  digits : Nat
  exponent : Int
  deriving DecidableEq

/-- Which of two equally close decimals is taken. -/
inductive Tie where
  | up
  | even
  deriving DecidableEq

namespace Magnitude

/-- The interval of the reals that round to a magnitude, on a grid that is four times finer: the
lower end, the magnitude itself and the upper end.  Below a power of two the neighbours are closer. -/
def interval (m : Magnitude) : Nat × Nat × Nat :=
  let v := 4 * m.mantissa
  let below := if m.mantissa = 1 <<< 52 && -1074 < m.exponent then 1 else 2
  (v - below, v, v + 2)

/-- The multiple of `10 ^ k` that is closest to the magnitude, among its two neighbours that identify
it. -/
def onGrid? (tie : Tie) (m : Magnitude) (k : Int) : Option Digits :=
  let (low, v, high) := m.interval
  -- the finer grid's unit is `2 ^ (exponent - 2)`; `unit` and `step` bring both grids to integers
  let unit := Nat.pow 10 (-k).toNat <<< (m.exponent - 2).toNat
  let step := Nat.pow 10 k.toNat <<< (2 - m.exponent).toNat
  let identifies (c : Nat) : Bool :=
    if m.mantissa % 2 = 0 then low * unit ≤ c * step && c * step ≤ high * unit
    else low * unit < c * step && c * step < high * unit
  let down := v * unit / step
  let up := down + 1
  let offDown := v * unit - down * step
  let offUp := up * step - v * unit
  let upIsCloser :=
    offUp < offDown || (offUp = offDown && (tie = .up || down % 2 = 1))
  match identifies down, identifies up with
  | false, false => none
  | true, false => some ⟨down, k⟩
  | false, true => some ⟨up, k⟩
  | true, true => some ⟨if upIsCloser then up else down, k⟩

/-- An exponent of ten that no magnitude's leading digit exceeds; `30103 / 100000` is a little more
than the logarithm of two. -/
def topGrid (m : Magnitude) : Int := ((m.mantissa.log2 : Int) + m.exponent + 1) * 30103 / 100000 + 1

def stripZeros : (fuel : Nat) → Digits → Digits
  | 0, d => d
  | fuel + 1, d =>
    if d.digits % 10 = 0 && d.digits != 0 then stripZeros fuel ⟨d.digits / 10, d.exponent + 1⟩
    else d

/-- The fewest digits that identify the magnitude, closest to it among those; seventeen always
suffice, and the grids start at most four places above the first digit. -/
def shortest (tie : Tie) (m : Magnitude) : Digits :=
  if m.isZero then ⟨0, 0⟩
  else
    let found := (List.range 24).findSome? fun (i : Nat) => m.onGrid? tie (m.topGrid - i)
    stripZeros 24 (found.getD ⟨m.mantissa, m.exponent⟩)

end Magnitude

def Digits.plain (d : Digits) : String :=
  let text := toString d.digits
  if 0 ≤ d.exponent then text ++ "".pushn '0' d.exponent.toNat
  else
    let places := (-d.exponent).toNat
    let cs := text.toList
    if places < cs.length then
      String.ofList (cs.take (cs.length - places)) ++ "." ++
        String.ofList (cs.drop (cs.length - places))
    else "0." ++ "".pushn '0' (places - cs.length) ++ text

/-- Digits with at least one place after the point: positional while the leading digit stands for
`10 ^ (-5)` to `10 ^ 15`, with a signed exponent of two digits or more outside. -/
def Digits.scientific (d : Digits) : String :=
  let text := toString d.digits
  let leading : Int := d.exponent + text.length - 1
  if -5 ≤ leading && leading ≤ 15 then
    if 0 ≤ d.exponent then d.plain ++ ".0" else d.plain
  else
    let mark := if leading < 0 then "e-" else "e+"
    let power := toString leading.natAbs
    let power := if power.length < 2 then "0" ++ power else power
    match text.toList with
    | [] => ""
    | [c] => String.singleton c ++ mark ++ power
    | c :: rest => String.singleton c ++ "." ++ String.ofList rest ++ mark ++ power

namespace Binary64

def signed (negative : Bool) (text : String) : String := if negative then "-" ++ text else text

/-- The number as documents keep it: positional, whole numbers without a point, zero with its sign. -/
def plainText : Binary64 → String
  | finite negative m => signed negative (m.shortest .up).plain
  | infinite negative => signed negative "inf"
  | nan => "NaN"

def scientificText : Binary64 → String
  | finite negative m => signed negative (m.shortest .even).scientific
  | infinite negative => signed negative "inf"
  | nan => "NaN"

end Binary64

end ProxyConfig.Decimal
