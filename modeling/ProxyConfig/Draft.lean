import ProxyConfig.Decimal.Shortest

/-!
What a text says before it is known to describe anything: a tree of scalars, lists and mappings that
both notations are read into.  A text that breaks off or is malformed has a draft too, of all that
stands before the fault, so that whoever goes through the draft from left to right meets the first
problem first, whether the fault of the text or a value of the wrong kind.

`pass` goes over a value that nobody wants and meets only faults of the text; `hold` goes over a
value that is kept for later, which has to be readable and not nested too deeply.
-/

namespace ProxyConfig

/-- Why reading has to end. -/
inductive Break where
  | malformed
  | endOfText
  deriving DecidableEq

/-- A fault of the text, as it counts in a value that is wanted and in one that is passed over. -/
structure Fault where
  wanted : Break
  passed : Break
  deriving DecidableEq

namespace Fault

def malformed : Fault := ⟨.malformed, .malformed⟩

def endOfText : Fault := ⟨.endOfText, .endOfText⟩

end Fault

/-- How a list or mapping ends: with its bracket, with a fault where a comma or the bracket had to
stand, or with a fault behind a comma. -/
inductive Finish where
  | closed
  | broken (fault : Fault)
  | brokenAfterComma (fault : Fault)
  deriving DecidableEq

inductive Scalar where
  | bool (b : Bool)
  | int (i : Int)
  | float (f : Decimal.Binary64)
  deriving DecidableEq

/-- The draft of a value.  `plain` is the spelling of an unquoted scalar in a notation where any
such scalar may stand for a text.  A scalar without a value is one that cannot be read: a number
beyond all bounds, or a quoted text that is none.  What is `twofold` is `wanted` where a text, a list or
a record has to stand and `any` where every kind of value may stand; where a value may be missing, it
is refused unless it is `present`. -/
inductive Draft where
  | null (plain : Option String)
  | scalar (value : Option Scalar) (plain : Option String)
  | text (s : String)
  | list (items : List Draft) (finish : Finish)
  | mapping (members : List (Option String × Draft)) (finish : Finish)
  | twofold (present : Bool) (wanted any : Draft)
  | stop (fault : Fault)
  deriving Inhabited

namespace Finish

/-- What meets the end of a list or mapping, in a value that is wanted. -/
def check : Finish → Except Break Unit
  | .closed => .ok ()
  | .broken f | .brokenAfterComma f => .error f.wanted

def checkPassed : Finish → Except Break Unit
  | .closed => .ok ()
  | .broken f | .brokenAfterComma f => .error f.passed

end Finish

namespace Draft

mutual

/-- Passes over a value: only a fault of the text counts. -/
def pass : Draft → Except Break Unit
  | .null _ | .scalar _ _ | .text _ => .ok ()
  | .list items finish => do passItems items; finish.checkPassed
  | .mapping members finish => do passMembers members; finish.checkPassed
  | .twofold _ wanted _ => pass wanted
  | .stop fault => .error fault.passed

def passItems : List Draft → Except Break Unit
  | [] => .ok ()
  | d :: rest => do pass d; passItems rest

def passMembers : List (Option String × Draft) → Except Break Unit
  | [] => .ok ()
  | (_, d) :: rest => do pass d; passMembers rest

end

mutual

/-- Goes over a value that is kept for later: every scalar and key in it has to be readable, and
lists and mappings may be nested `depth` deep. -/
def hold : (depth : Nat) → Draft → Except Break Unit
  | _, .null _ | _, .scalar (some _) _ | _, .text _ => .ok ()
  | _, .scalar none _ => .error .malformed
  | 0, .list _ _ | 0, .mapping _ _ => .error .malformed
  | depth + 1, .list items finish => do holdItems depth items; finish.check
  | depth + 1, .mapping members finish => do holdMembers depth members; finish.check
  | depth, .twofold _ _ any => hold depth any
  | _, .stop fault => .error fault.wanted

def holdItems : (depth : Nat) → List Draft → Except Break Unit
  | _, [] => .ok ()
  | depth, d :: rest => do hold depth d; holdItems depth rest

def holdMembers : (depth : Nat) → List (Option String × Draft) → Except Break Unit
  | _, [] => .ok ()
  | _, (none, _) :: _ => .error .malformed
  | depth, (some _, d) :: rest => do hold depth d; holdMembers depth rest

end

def held : Draft → Draft
  | .null _ => .null none
  | .scalar value _ => .scalar value none
  | .twofold _ _ any => any
  | d => d

/-- What a draft is where a text, a list or a record has to stand. -/
def bare : Draft → Draft
  | .twofold _ wanted _ => wanted
  | d => d

/-- What a draft is where such a value may be missing. -/
def optional : Draft → Draft
  | .twofold true wanted _ => wanted
  | .twofold false _ _ => .scalar none none
  | d => d

end Draft

end ProxyConfig
