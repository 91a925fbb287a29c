import ProxyConfig.Draft
import ProxyConfig.Numeral
import ProxyConfig.Text.Cut

/-!
What an unquoted scalar of YAML text stands for: nothing, a truth value, a whole number, a number, or
the text that it is.  A whole number may be written in base sixteen, eight or two; digits behind a
leading zero are no number.
-/

namespace ProxyConfig.Yaml

open Decimal

def nullWords : List String := ["~", "null", "Null", "NULL"]

def bool? (s : String) : Option Bool :=
  if ["true", "True", "TRUE"].contains s then some true
  else if ["false", "False", "FALSE"].contains s then some false
  else none

def magnitude? (digits : List Char) : Option Nat :=
  match digits with
  | '0' :: 'x' :: rest => Numeral.value? 16 rest
  | '0' :: 'o' :: rest => Numeral.value? 8 rest
  | '0' :: 'b' :: rest => Numeral.value? 2 rest
  | _ => Numeral.value? 10 digits

def unsigned : List Char → List Char
  | '+' :: rest | '-' :: rest => rest
  | s => s

/-- More than one digit, the first of them a zero: kept as text. -/
def isZeroPadded (s : List Char) : Bool :=
  match unsigned s with
  | '0' :: rest => !rest.isEmpty && rest.all fun c => '0' ≤ c && c ≤ '9'
  | _ => false

/-- The whole number that a scalar is, of at most 128 bits. -/
def int? (s : List Char) : Option Int :=
  if isZeroPadded s then none
  else match s with
    | '-' :: rest => ((magnitude? rest).filter (· ≤ 1 <<< 127)).map fun n => -(n : Int)
    | _ =>
      let digits := match s with
        | '+' :: rest => rest
        | _ => s
      ((magnitude? digits).filter (· < 1 <<< 128)).map fun n => (n : Int)

def digits (s : List Char) : List Char × List Char := s.span fun c => '0' ≤ c && c ≤ '9'

def exponent? : List Char → Option Int
  | [] => some 0
  | e :: rest =>
    if e = 'e' || e = 'E' then
      let (negative, rest) := match rest with
        | '-' :: rest => (true, rest)
        | '+' :: rest => (false, rest)
        | _ => (false, rest)
      (Numeral.value? 10 rest).map fun n => if negative then -(n : Int) else n
    else none

def decimal? (negative : Bool) (s : List Char) : Option Binary64 := do
  let (whole, rest) := digits s
  let (fraction, rest) := match rest with
    | '.' :: rest => digits rest
    | _ => ([], rest)
  let significand ← Numeral.value? 10 (whole ++ fraction)
  let exponent ← exponent? rest
  Binary64.ofDecimal? negative significand (exponent - fraction.length)

def number? (s : List Char) : Option Binary64 :=
  if [".inf", ".Inf", ".INF", "+.inf", "+.Inf", "+.INF"].contains (String.ofList s) then
    some (.infinite false)
  else if ["-.inf", "-.Inf", "-.INF"].contains (String.ofList s) then some (.infinite true)
  else if [".nan", ".NaN", ".NAN"].contains (String.ofList s) then some .nan
  else match s with
    | '-' :: rest => decimal? true rest
    | '+' :: rest => decimal? false rest
    | _ => decimal? false s

def float? (s : List Char) : Option Binary64 := if isZeroPadded s then none else number? s

/-- Whether a whole number is small enough to be kept: 64 bits, with a sign if it is negative. -/
def isKept (i : Int) : Bool := i < (1 <<< 64 : Nat) && -i ≤ (1 <<< 63 : Nat)

def intDraft (i : Int) (plain : Option String) : Draft :=
  .scalar (if isKept i then some (.int i) else none) plain

def plainDraft (s : String) : Draft :=
  if s.isEmpty || nullWords.contains s then .null (some s)
  else match bool? s with
    | some b => .scalar (some (.bool b)) (some s)
    | none =>
      match int? s.toList with
      | some i => intDraft i (some s)
      | none =>
        match float? s.toList with
        | some f => .scalar (some (.float f)) (some s)
        | none => .text s

end ProxyConfig.Yaml
