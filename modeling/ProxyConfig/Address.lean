import ProxyConfig.Numeral
import ProxyConfig.Text.Cut

/-!
Addresses of the internet protocol in text: of version 4 as four decimal octets, of version 6 as eight
groups of hexadecimal digits, of which `::` stands for one or more that are zero and the last two may
be written as an address of version 4; ranges of addresses by the length of their common part; and
the addresses that a server listens on.
-/

namespace ProxyConfig.Address

inductive Family where
  | v4
  | v6
  deriving DecidableEq, Repr

def Family.bits : Family → Nat
  | v4 => 32
  | v6 => 128

/-- One to three digits, no zero in front of others, at most 255. -/
def isOctet (s : List Char) : Bool :=
  s.length ≤ 3 && (s.head? != some '0' || s.length == 1) &&
    match Numeral.value? 10 s with
    | some n => n ≤ 255
    | none => false

def isV4 (s : List Char) : Bool :=
  let parts := Text.splitAll (· == '.') s
  parts.length == 4 && parts.all isOctet

def isGroup (s : List Char) : Bool := s.length ≤ 4 && (Numeral.value? 16 s).isSome

/-- The number of groups that parts stand for, if each is one; the last may be an address of version 4
and stand for two. -/
def countGroups? (endsInV4 : Bool) : List (List Char) → Option Nat
  | [] => some 0
  | [last] =>
    if isGroup last then some 1
    else if endsInV4 && isV4 last then some 2
    else none
  | part :: rest => if isGroup part then (countGroups? endsInV4 rest).map (· + 1) else none

def groups? (endsInV4 : Bool) (s : List Char) : Option Nat :=
  if s.isEmpty then some 0 else countGroups? endsInV4 (Text.splitAll (· == ':') s)

def cutGap : List Char → Option (List Char × List Char)
  | ':' :: ':' :: rest => some ([], rest)
  | c :: rest => (cutGap rest).map fun (before, after) => (c :: before, after)
  | [] => none

def isV6 (s : List Char) : Bool :=
  match cutGap s with
  | none => groups? true s == some 8
  | some (before, after) =>
    match groups? false before, groups? true after with
    | some m, some n => m + n ≤ 7
    | _, _ => false

def family? (s : List Char) : Option Family :=
  if isV4 s then some .v4 else if isV6 s then some .v6 else none

/-- Whether a text is an address, or an address with the length of the part that a range has in
common. -/
def isAddressOrRange (s : List Char) : Bool :=
  match Text.cutFirst '/' s with
  | none => (family? s).isSome
  | some (address, length) =>
    match family? address, Numeral.unsigned? 256 length with
    | some family, some n => n ≤ family.bits
    | _, _ => false

/-- Digits of a number below `bound`, any number of zeros in front. -/
def isCount (bound : Nat) (s : List Char) : Bool :=
  match Numeral.value? 10 s with
  | some n => n < bound
  | none => false

/-- An address of version 6, perhaps with the number of the network it belongs to. -/
def isScopedV6 (s : List Char) : Bool :=
  match Text.cutFirst '%' s with
  | none => isV6 s
  | some (address, scope) => isV6 address && isCount (1 <<< 32) scope

/-- Whether a text is an address with a port, the address in brackets if it has colons itself. -/
def isEndpoint (s : List Char) : Bool :=
  match Text.cutLast ':' s with
  | none => false
  | some (host, port) =>
    isCount (1 <<< 16) port &&
      (isV4 host ||
        match host with
        | '[' :: rest => rest.getLast? == some ']' && isScopedV6 rest.dropLast
        | _ => false)

end ProxyConfig.Address
