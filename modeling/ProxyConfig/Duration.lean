import ProxyConfig.Caddyfile.Argument
import ProxyConfig.Numeral
import ProxyConfig.Text.Pattern

/-!
Spans of time in text.  `ofText?` reads numbers with named units, as in `1h 30min` or `1.5 s`, and
refuses what it cannot count exactly in 64 bits.  `unitSpan` is the pattern of spans as the proxy
itself takes them, and `valid` says what a document's times may be.
-/

namespace ProxyConfig

structure Duration where
  seconds : Nat
  nanos : Nat
  deriving DecidableEq, Repr

namespace Duration

def second : Nat := 1000000000

def units : List (Nat × List String) :=
  [(1, ["nanos", "nsec", "ns"]),
   (1000, ["usec", "us", "µs"]),
   (1000000, ["millis", "msec", "ms"]),
   (second, ["seconds", "second", "secs", "sec", "s"]),
   (60 * second, ["minutes", "minute", "min", "mins", "m"]),
   (3600 * second, ["hours", "hour", "hr", "hrs", "h"]),
   (86400 * second, ["days", "day", "d"]),
   (604800 * second, ["weeks", "week", "wk", "wks", "w"]),
   (2630016 * second, ["months", "month", "M"]),
   (31557600 * second, ["years", "year", "yr", "yrs", "y"])]

def unit? (name : String) : Option Nat := (units.find? (·.2.contains name)).map (·.1)

def fit? (n : Nat) : Option Nat := if n < 1 <<< 64 then some n else none

def extend? (d : Duration) (seconds nanos : Nat) : Option Duration := do
  let nanos ← fit? (d.nanos + nanos)
  let seconds ← fit? (d.seconds + seconds)
  let seconds ← fit? (seconds + nanos / second)
  pure ⟨seconds, nanos % second⟩

/-- A whole number of units: those below a second are counted in nanoseconds. -/
def addWhole? (d : Duration) (unit n : Nat) : Option Duration := do
  if unit < second then d.extend? 0 (← fit? (n * unit))
  else d.extend? (← fit? (n * (unit / second))) 0

/-- A fraction of a unit, given by its digits' value and number: counted in nanoseconds up to the
minute and in seconds above, and only if it comes out even. -/
def addFraction? (d : Duration) (unit numerator digits : Nat) : Option Duration :=
  if unit = 1 then none
  else do
    let inNanos := unit ≤ 60 * second
    let size := if inNanos then unit else unit / second
    let n ← fit? (numerator * size)
    if n % Nat.pow 10 digits ≠ 0 then none
    else if inNanos then d.extend? 0 (n / Nat.pow 10 digits)
    else d.extend? (n / Nat.pow 10 digits) 0

/-- A number as it was written: its whole part, and the value and number of its fraction's digits. -/
structure Amount where
  whole : Nat
  fraction : Option (Nat × Nat)

def add? (d : Duration) (a : Amount) (unitName : List Char) : Option Duration := do
  let unit ← unit? (String.ofList unitName)
  let d ← d.addWhole? unit a.whole
  match a.fraction with
  | none => pure d
  | some (numerator, digits) => d.addFraction? unit numerator digits

/-- Where the reading of a span stands.  The letters of a unit's name are kept in reverse. -/
inductive Stage where
  | start
  | between
  | number (n : Nat)
  | fraction (whole numerator digits : Nat)
  | unit (a : Amount) (name : List Char)

def isLetter (c : Char) : Bool := c.isAlpha || c == 'µ'

def digit? (c : Char) : Option Nat := Numeral.digit? 10 c

def step : Duration × Stage → Char → Option (Duration × Stage)
  | (d, .number n), c =>
    match digit? c with
    | some v => (fit? (n * 10 + v)).map fun n => (d, .number n)
    | none =>
      if Text.isBlank c then some (d, .number n)
      else if isLetter c then some (d, .unit ⟨n, none⟩ [c])
      else if c = '.' then some (d, .fraction n 0 0)
      else none
  | (d, .fraction whole numerator digits), c =>
    match digit? c with
    | some v => if digits < 19 then some (d, .fraction whole (numerator * 10 + v) (digits + 1)) else none
    | none =>
      if Text.isBlank c then some (d, .fraction whole numerator digits)
      else if isLetter c && digits != 0 then some (d, .unit ⟨whole, some (numerator, digits)⟩ [c])
      else none
  | (d, .unit a name), c =>
    match digit? c with
    | some v => (d.add? a name.reverse).map fun d => (d, .number v)
    | none =>
      if Text.isBlank c then (d.add? a name.reverse).map fun d => (d, .between)
      else if isLetter c then some (d, .unit a (c :: name))
      else none
  | (d, stage), c =>
    match digit? c with
    | some v => some (d, .number v)
    | none => if Text.isBlank c then some (d, stage) else none

def finish? : Duration × Stage → Option Duration
  | (d, .between) => some d
  | (d, .unit a name) => d.add? a name.reverse
  | _ => none

def ofText? (s : List Char) : Option Duration :=
  if s = ['0'] then some ⟨0, 0⟩ else (s.foldlM step (⟨0, 0⟩, .start)).bind finish?

open Text (Pattern)

def unitItem : Pattern :=
  .seq (.many1 .digit) <|
    .seq (.optional (.seq (.char '.') (.many1 .digit))) <|
      .anyOf ["ns", "us", "µs", "ms", "s", "m", "h", "d"]

def unitSpan : Pattern := .many1 unitItem

/-- Whether a field may hold the text as a time: nothing, a bare number of seconds, or a span. -/
def valid (s : String) : Bool :=
  let text := Text.trimmed s.toList
  text.all Caddyfile.isAsciiDigit || unitSpan.accepts text || (ofText? text).isSome

end Duration

end ProxyConfig
