import ProxyConfig.Numeral
import ProxyConfig.Text.Cut
import ProxyConfig.Text.Pieces

/-!
The fields of a query: `name=value` with `&` between them, a plus sign for a blank, and bytes as two
hexadecimal digits behind a percent sign.
-/

namespace ProxyConfig.Admin.Query

/-- The bytes that a text of a query stands for; a percent sign without two digits is itself. -/
def decodeBytes : List UInt8 → List UInt8
  | 0x25 :: a :: b :: rest =>
    match Numeral.digit? 16 (Char.ofNat a.toNat), Numeral.digit? 16 (Char.ofNat b.toNat) with
    | some high, some low => (high * 16 + low).toUInt8 :: decodeBytes rest
    | _, _ => 0x25 :: decodeBytes (a :: b :: rest)
  | 0x2B :: rest => 0x20 :: decodeBytes rest
  | b :: rest => b :: decodeBytes rest
  | [] => []

def decode (s : List Char) : String :=
  Text.lossy ⟨(decodeBytes (String.ofList s).toUTF8.data.toList).toArray⟩

def fields (query : String) : List (String × String) :=
  ((Text.splitAll (· == '&') query.toList).filter fun part => !part.isEmpty).map fun part =>
    match Text.cutFirst '=' part with
    | some (name, value) => (decode name, decode value)
    | none => (decode part, "")

/-- Why a query does not give the one value that is wanted. -/
inductive Fault where
  | missing (name : String)
  | repeated (name : String)
  deriving DecidableEq

def Fault.message : Fault → String
  | missing name => "missing field `" ++ name ++ "`"
  | repeated name => "duplicate field `" ++ name ++ "`"

def value (query name : String) : Except Fault String :=
  match (fields query).filter (·.1 = name) with
  | [] => .error (.missing name)
  | [(_, v)] => .ok v
  | _ => .error (.repeated name)

end ProxyConfig.Admin.Query
