/-!
Whole numbers in text: an optional sign and one or more ASCII digits, any number of leading zeros,
no blanks.  `value?` reads digits of a radix, `unsigned?` and `signed?` read a number and refuse one
outside the given range.  Main statement: digits are read from left to right (`extend?_append`).
-/

namespace ProxyConfig.Numeral

def digit? (radix : Nat) (c : Char) : Option Nat :=
  let v :=
    if '0' ≤ c && c ≤ '9' then c.toNat - '0'.toNat
    else if 'a' ≤ c && c ≤ 'z' then c.toNat - 'a'.toNat + 10
    else if 'A' ≤ c && c ≤ 'Z' then c.toNat - 'A'.toNat + 10
    else radix
  if v < radix then some v else none

def extend? (radix : Nat) (acc : Nat) : List Char → Option Nat
  | [] => some acc
  | c :: rest => (digit? radix c).bind fun v => extend? radix (acc * radix + v) rest

def value? (radix : Nat) : List Char → Option Nat
  | [] => none
  | digits => extend? radix 0 digits

def unsigned? (bound : Nat) (s : List Char) : Option Nat :=
  let digits := match s with
    | '+' :: rest => rest
    | _ => s
  (value? 10 digits).filter (· < bound)

/-- A whole number from `-bound` to `bound - 1`, with an optional sign. -/
def signed? (bound : Nat) (s : List Char) : Option Int :=
  match s with
  | '-' :: rest => ((value? 10 rest).filter (· ≤ bound)).map fun n => -(n : Int)
  | _ => (unsigned? bound s).map fun n => (n : Int)

theorem extend?_append (radix acc : Nat) (s t : List Char) :
    extend? radix acc (s ++ t) = (extend? radix acc s).bind fun n => extend? radix n t := by
  induction s generalizing acc with
  | nil => rfl
  | cons c s ih => cases h : digit? radix c <;> simp [extend?, h, ih]

end ProxyConfig.Numeral
