import ProxyConfig.Yaml.Scalar
import ProxyConfig.Yaml.Tag

/-!
YAML text as a tree, and the draft that it is.  Anchors are numbered, and what refers to one is drafted
as what stands at the anchor.  A tag makes no difference where a value of a certain kind is wanted;
where any value may stand it says what a scalar is read as, and a value with a tag of the text's own
cannot be read there.
-/

namespace ProxyConfig.Yaml

/-- What stands in front of a value. -/
structure Properties where
  anchor : Option Nat := none
  tag : Option Tag := none

inductive Node where
  | scalar (properties : Properties) (plain : Bool) (text : String)
  | list (properties : Properties) (items : List Node)
  | mapping (properties : Properties) (members : List (Node × Node))
  | reference (anchor : Nat)

/-- A value that cannot be read, though it can be passed over. -/
def unreadable : Draft := .scalar none none

def taggedScalar (tag : Tag) (plain : Bool) (s : String) : Draft :=
  if tag.isOwn then unreadable
  else if tag = .core "bool" then (bool? s).elim unreadable fun b => .scalar (some (.bool b)) none
  else if tag = .core "int" then (int? s.toList).elim unreadable fun i => intDraft i none
  else if tag = .core "float" then
    (number? s.toList).elim unreadable fun f => .scalar (some (.float f)) none
  else if tag = .core "null" then if nullWords.contains s then .null none else unreadable
  else if tag.head? = some 0x21 && plain then (plainDraft s).held
  else .text s

def scalarDraft (tag : Option Tag) (plain : Bool) (s : String) : Draft :=
  match tag with
  | none => if plain then plainDraft s else .text s
  | some tag =>
    let wanted := if plain && s.isEmpty then plainDraft s else .text s
    if plain && tag = .core "null" then
      if nullWords.contains s then .null (some s) else .twofold false wanted unreadable
    else .twofold true wanted (taggedScalar tag plain s)

def collectionDraft (tag : Option Tag) (d : Draft) : Draft :=
  if tag.any Tag.isOwn then .twofold true d.bare unreadable else d

def keyText (key : Draft) : Option String :=
  match key.bare with
  | .text s => some s
  | .null plain => plain
  | .scalar _ plain => plain
  | _ => none

/-- A mapping.  Where any value may stand, every value may be a key, and has to be readable. -/
def mappingDraft (members : List (Draft × Draft)) : Draft :=
  let named := .mapping (members.map fun m => (keyText m.1, m.2)) .closed
  if members.all fun m => (m.1.hold 0).isOk then named
  else .twofold true named
    (.mapping (members.flatMap fun m => [(some "", m.1), (some "", m.2)]) .closed)

namespace Node

mutual

def anchored : Node → List (Nat × Node)
  | scalar ps plain s => (ps.anchor.map fun n => (n, scalar ps plain s)).toList
  | list ps items => (ps.anchor.map fun n => (n, list ps items)).toList ++ anchoredItems items
  | mapping ps members =>
    (ps.anchor.map fun n => (n, mapping ps members)).toList ++ anchoredMembers members
  | reference _ => []

def anchoredItems : List Node → List (Nat × Node)
  | [] => []
  | x :: rest => anchored x ++ anchoredItems rest

def anchoredMembers : List (Node × Node) → List (Nat × Node)
  | [] => []
  | (k, x) :: rest => anchored k ++ anchored x ++ anchoredMembers rest

end

mutual

/-- How many events there are: one for a scalar or a reference, two for the ends of anything else. -/
def events : Node → Nat
  | scalar _ _ _ | reference _ => 1
  | list _ items => eventsOfItems items + 2
  | mapping _ members => eventsOfMembers members + 2

def eventsOfItems : List Node → Nat
  | [] => 0
  | x :: rest => events x + eventsOfItems rest

def eventsOfMembers : List (Node × Node) → Nat
  | [] => 0
  | (k, x) :: rest => events k + events x + eventsOfMembers rest

end

mutual

/-- The draft of a value, given what references are drafted as.  The number of references that have
been met so far is counted along. -/
def draft (follow : Nat → StateM Nat Draft) : Node → StateM Nat Draft
  | scalar ps plain s => pure (scalarDraft ps.tag plain s)
  | list ps items => do pure (collectionDraft ps.tag (.list (← drafts follow items) .closed))
  | mapping ps members => do
    pure (collectionDraft ps.tag (mappingDraft (← memberDrafts follow members)))
  | reference anchor => follow anchor

def drafts (follow : Nat → StateM Nat Draft) : List Node → StateM Nat (List Draft)
  | [] => pure []
  | x :: rest => do
    let d ← draft follow x
    let ds ← drafts follow rest
    pure (d :: ds)

def memberDrafts (follow : Nat → StateM Nat Draft) :
    List (Node × Node) → StateM Nat (List (Draft × Draft))
  | [] => pure []
  | (k, x) :: rest => do
    let key ← draft follow k
    let d ← draft follow x
    let ds ← memberDrafts follow rest
    pure ((key, d) :: ds)

end

/-- The value that a reference is for; of several with the number, the last one. -/
def target? (root : Node) (anchor : Nat) : Option Node :=
  (root.anchored.reverse.find? fun entry => entry.1 = anchor).map (·.2)

/-- Drafts what a reference is for, where references are followed `depth` deep.  The one with the
number `spoilt`, if there is one, is drafted as unreadable. -/
def follow (root : Node) (spoilt : Option Nat) : (depth : Nat) → Nat → StateM Nat Draft
  | 0, _ => pure unreadable
  | depth + 1, anchor => do
    let number ← getModify (· + 1)
    match root.target? anchor with
    | some x => if spoilt = some number then pure unreadable else x.draft (root.follow spoilt depth)
    | none => pure unreadable

/-- The draft of a whole text and how many references it has, those of what is referred to
included.  Between one reference and the next inside of it at least one list or mapping opens. -/
def compose (root : Node) (spoilt : Option Nat) (depth : Nat) : Draft × Nat :=
  (root.draft (root.follow spoilt depth)).run 0

end Node

end ProxyConfig.Yaml
