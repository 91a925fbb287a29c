import ProxyConfig.Draft

/-!
JSON values as they are written, and their two written forms: `compact`, without blanks, and
`pretty`, one item a line and two spaces a level.  `Value.draft` is what reading either form has to
give.  Main statements: a quoted text holds no control character and no unescaped quote
(`escape_eq_self`), and quoting goes character by character (`escaped_append`).
-/

namespace ProxyConfig.Json

inductive Value where
  | null
  | bool (b : Bool)
  | number (i : Int)
  | text (s : String)
  | list (items : List Value)
  | mapping (members : List (String × Value))
  deriving Inhabited

def hexDigit (n : Nat) : Char := (Nat.toDigits 16 n).headD '0'

def escape (c : Char) : List Char :=
  match c with
  | '"' => ['\\', '"']
  | '\\' => ['\\', '\\']
  | '\x08' => ['\\', 'b']
  | '\x0c' => ['\\', 'f']
  | '\n' => ['\\', 'n']
  | '\r' => ['\\', 'r']
  | '\t' => ['\\', 't']
  | c =>
    if c.toNat < 0x20 then ['\\', 'u', '0', '0', hexDigit (c.toNat / 16), hexDigit (c.toNat % 16)]
    else [c]

def escaped (s : List Char) : List Char := s.flatMap escape

def quoted (s : String) : String := "\"" ++ String.ofList (escaped s.toList) ++ "\""

@[simp] theorem escaped_append (s t : List Char) : escaped (s ++ t) = escaped s ++ escaped t := by
  simp [escaped]

theorem escape_eq_self {c : Char} (h : 0x20 ≤ c.toNat) (hq : c ≠ '"') (hb : c ≠ '\\') :
    escape c = [c] := by
  unfold escape
  split <;> first | contradiction | (exact absurd h (by decide)) | skip
  rw [if_neg (by omega)]

namespace Value

mutual

def draft : Value → Draft
  | null => .null none
  | bool b => .scalar (some (.bool b)) none
  | number i => .scalar (some (.int i)) none
  | text s => .text s
  | list items => .list (drafts items) .closed
  | mapping members => .mapping (memberDrafts members) .closed

def drafts : List Value → List Draft
  | [] => []
  | v :: rest => draft v :: drafts rest

def memberDrafts : List (String × Value) → List (Option String × Draft)
  | [] => []
  | (k, v) :: rest => (some k, draft v) :: memberDrafts rest

end

theorem drafts_eq_map (items : List Value) : drafts items = items.map draft := by
  induction items with
  | nil => rfl
  | cons v items ih => rw [drafts, ih, List.map_cons]

theorem memberDrafts_eq_map (members : List (String × Value)) :
    memberDrafts members = members.map fun m => (some m.1, m.2.draft) := by
  induction members with
  | nil => rfl
  | cons m members ih => rw [memberDrafts, ih, List.map_cons]

theorem held_draft (v : Value) : v.draft.held = v.draft := by
  cases v <;> rfl

mutual

def compact : Value → String
  | null => "null"
  | bool b => if b then "true" else "false"
  | number i => toString i
  | text s => quoted s
  | list [] => "[]"
  | list (v :: rest) => "[" ++ compact v ++ compactItems rest ++ "]"
  | mapping [] => "\x7b\x7d"
  | mapping ((k, v) :: rest) =>
    "\x7b" ++ quoted k ++ ":" ++ compact v ++ compactMembers rest ++ "\x7d"

def compactItems : List Value → String
  | [] => ""
  | v :: rest => "," ++ compact v ++ compactItems rest

def compactMembers : List (String × Value) → String
  | [] => ""
  | (k, v) :: rest => "," ++ quoted k ++ ":" ++ compact v ++ compactMembers rest

end

def newLine (level : Nat) : String := "\n" ++ "".pushn ' ' (2 * level)

mutual

/-- The value with one item a line; `level` is the depth of the line it starts on. -/
def prettyAt (level : Nat) : Value → String
  | null => "null"
  | bool b => if b then "true" else "false"
  | number i => toString i
  | text s => quoted s
  | list [] => "[]"
  | list (v :: rest) =>
    "[" ++ newLine (level + 1) ++ prettyAt (level + 1) v ++ prettyItems (level + 1) rest ++
      newLine level ++ "]"
  | mapping [] => "\x7b\x7d"
  | mapping ((k, v) :: rest) =>
    "\x7b" ++ newLine (level + 1) ++ quoted k ++ ": " ++ prettyAt (level + 1) v ++
      prettyMembers (level + 1) rest ++ newLine level ++ "\x7d"

/-- Each of the items on a line of its own, behind a comma. -/
def prettyItems (level : Nat) : List Value → String
  | [] => ""
  | v :: rest => "," ++ newLine level ++ prettyAt level v ++ prettyItems level rest

def prettyMembers (level : Nat) : List (String × Value) → String
  | [] => ""
  | (k, v) :: rest =>
    "," ++ newLine level ++ quoted k ++ ": " ++ prettyAt level v ++ prettyMembers level rest

end

def pretty (v : Value) : String := prettyAt 0 v

end Value

end ProxyConfig.Json
