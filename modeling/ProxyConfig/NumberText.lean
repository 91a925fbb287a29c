import ProxyConfig.Numeral
import ProxyConfig.Text.Blank

/-!
A numeric field as it was typed.  The text is kept, so that findings can show it and a saved document
holds it untouched; the readings below ignore blanks around it and answer nothing where it is no
number of theirs.
-/

namespace ProxyConfig

structure NumberText where
  raw : String
  deriving DecidableEq, Inhabited

namespace NumberText

def empty : NumberText := ⟨""⟩

def ofNat (n : Nat) : NumberText := ⟨toString n⟩

def isBlank (t : NumberText) : Bool := Text.blank t.raw

def bits? (width : Nat) (t : NumberText) : Option Nat :=
  Numeral.unsigned? (1 <<< width) (Text.trimmed t.raw.toList)

def signed64? (t : NumberText) : Option Int :=
  Numeral.signed? (1 <<< 63) (Text.trimmed t.raw.toList)

/-- A port that can be listened on or connected to: 1 to 65535. -/
def port? (t : NumberText) : Option Nat := (t.bits? 16).filter (0 < ·)

def positive? (t : NumberText) : Option Nat := (t.bits? 32).filter (0 < ·)

def isMalformed (width : Nat) (t : NumberText) : Bool := !t.isBlank && (t.bits? width).isNone

end NumberText

end ProxyConfig
