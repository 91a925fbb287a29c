import ProxyConfig.Document.Fault
import ProxyConfig.Json.Value
import ProxyConfig.NumberText
import ProxyConfig.Text.Blank
import ProxyConfig.Text.Cut

/-!
How the parts of a document are read from a draft and written as JSON.  A `Codec` does both for one
type, a `Field` for one member of a record, and a `Record` is a table of fields.  Reading goes through
a draft from left to right and ends at the first problem.

A record is a mapping, or a list of its fields' values in order where the notation allows it.
Members that no field names are passed over.  Some records have fields that are read in groups after
the rest; such a record keeps every member that it does not read at once until the end, and is never
a list.
-/

namespace ProxyConfig

/-- What a notation allows: how deep values may still be nested, and whether a list of values may
stand for a record. -/
structure Reach where
  depth : Nat
  positional : Bool

def Reach.deeper (r : Reach) : Reach := { r with depth := r.depth - 1 }

abbrev Decoded (α : Type) := Except DocumentFault α

namespace Decoded

def fail (p : Problem) : Decoded α := .error (.here p)

def ofBreak (r : Except Break α) : Decoded α := r.mapError fun b => .here (.broken b)

def within (place : Place) (r : Decoded α) : Decoded α := r.mapError (·.within place)

end Decoded

def Draft.refuse (expected : String) : Draft → Decoded α
  | .null _ => .fail (.wrongType .null expected)
  | .scalar (some s) _ => .fail (.wrongType (.scalar s) expected)
  | .scalar none _ => .fail (.broken .malformed)
  | .text s => .fail (.wrongType (.text s) expected)
  | .list _ _ => .fail (.wrongType .list expected)
  | .mapping _ _ => .fail (.wrongType .mapping expected)
  | .twofold _ _ _ => .fail (.broken .malformed)
  | .stop fault => .fail (.broken fault.wanted)

structure Codec (α : Type) where
  read : Reach → Draft → Decoded α
  write : α → Json.Value

namespace Codec

/-- The text that a draft is; an unquoted scalar is one where the notation says so. -/
def readText (d : Draft) : Decoded String :=
  match d.bare with
  | .text s => .ok s
  | .null (some s) | .scalar _ (some s) => .ok s
  | d => d.refuse "a string"

/-- A text; null is the empty one. -/
def text : Codec String where
  read _ d :=
    match d.optional with
    | .null _ => .ok ""
    | d => readText d
  write := .text

def choice (ofText : String → α) (toText : α → String) : Codec α where
  read reach d := (text.read reach d).map ofText
  write a := .text (toText a)

/-- A scalar of any kind or a text, as loose fields take it; null is none. -/
def readLoose (reach : Reach) : Draft → Decoded (Option (Scalar ⊕ String))
  | .null _ => .ok none
  | .scalar (some s) _ => .ok (some (.inl s))
  | .text s => .ok (some (.inr s))
  | .twofold true _ (.scalar (some s) _) => .ok (some (.inl s))
  | .twofold true _ (.text s) => .ok (some (.inr s))
  | d => do
    .ofBreak (d.hold reach.depth)
    .fail .noScalar

/-- An integer as loose fields take it: exactly if it fits 64 bits with a sign, else rounded. -/
def looseInt (i : Int) : Scalar :=
  if i < (1 <<< 63 : Nat) && -i ≤ (1 <<< 63 : Nat) then .int i else .float (.ofInt i)

def scalarText : Scalar → String
  | .bool b => if b then "true" else "false"
  | .int i =>
    match looseInt i with
    | .float f => f.plainText
    | _ => toString i
  | .float f => f.plainText

def looseText : Codec String where
  read reach d := (readLoose reach d).map fun
    | none => ""
    | some (.inl s) => scalarText s
    | some (.inr s) => s
  write := .text

def number : Codec NumberText where
  read reach d := (looseText.read reach d).map NumberText.mk
  write t := .text t.raw

/-- Words that switch a flag off; any other text but a blank one switches it on. -/
def isOff (s : String) : Bool :=
  let word := Text.trim s
  word = "" || word = "0" || Text.sameLetters word "false" || Text.sameLetters word "no" ||
    Text.sameLetters word "off"

def flag : Codec Bool where
  read reach d := (readLoose reach d).map fun
    | none => false
    | some (.inl (.bool b)) => b
    | some (.inl (.int i)) => i != 0
    | some (.inl (.float f)) => !f.isZero
    | some (.inr s) => !isOff s
  write := .bool

/-- Reads the items of a list, the first with the given index. -/
def readItems (item : Draft → Decoded α) (index : Nat) : List Draft → Decoded (List α)
  | [] => .ok []
  | d :: rest => do
    let a ← Decoded.within (.item index) (item d)
    let as ← readItems item (index + 1) rest
    pure (a :: as)

def list (item : Reach → Draft → Decoded α) (write : α → Json.Value) : Codec (List α) where
  read reach d :=
    match d.optional with
    | .null _ => .ok []
    | .list items finish =>
      if reach.depth = 0 then .fail (.broken .malformed)
      else do
        let as ← readItems (item reach.deeper) 0 items
        .ofBreak finish.check
        pure as
    | d => d.refuse "a sequence"
  write as := .list (as.map write)

theorem list_read_list (item : Reach → Draft → Decoded α) (write : α → Json.Value) (reach : Reach)
    (items : List Draft) (finish : Finish) :
    (list item write).read reach (.list items finish) =
      if reach.depth = 0 then .fail (.broken .malformed)
      else (do
        let as ← readItems (item reach.deeper) 0 items
        .ofBreak finish.check
        pure as) := rfl

def texts : Codec (List String) := list (fun _ => readText) .text

end Codec

/-- One member of a record.  Group zero is read where it stands, the others at the end. -/
structure Field (α : Type) where
  name : String
  group : Nat
  read : Reach → Draft → α → Decoded α
  write : α → Json.Value

def field (name : String) (codec : Codec β) (get : α → β) (set : β → α → α) : Field α where
  name := name
  group := 0
  read reach d a := (codec.read reach d).map (set · a)
  write a := codec.write (get a)

def Field.lift (f : Field β) (get : α → β) (set : β → α → α) : Field α where
  name := f.name
  group := f.group
  read reach d a := (f.read reach d (get a)).map (set · a)
  write a := f.write (get a)

def Field.inGroup (f : Field α) (n : Nat) : Field α := { f with group := n }

structure Record (α : Type) where
  /-- The record's name in messages. -/
  name : String
  empty : α
  fields : List (Field α)

namespace Record

variable {α : Type} (r : Record α)

/-- The last group; without groups, a record is read where it stands. -/
def groups : Nat := (r.fields.map Field.group).foldl max 0

/-- How far the reading of a mapping has come: the record so far, the names met, and the members
kept for the end. -/
structure Progress (α : Type) where
  value : α
  seen : List String
  kept : List (String × Draft)

def Progress.put (p : Progress α) (name : String) (value : α) : Progress α :=
  { p with value, seen := name :: p.seen }

def readMembers (reach : Reach) : List (Option String × Draft) → Progress α → Decoded (Progress α)
  | [], p => .ok p
  | (none, _) :: _, _ => .fail (.broken .malformed)
  | (some name, d) :: rest, p =>
    match r.fields.find? (fun f => f.name = name && f.group = 0) with
    | some f =>
      if p.seen.contains name then .fail (.duplicateField name)
      else do
        let value ← Decoded.within (.field name) (f.read reach d p.value)
        readMembers reach rest (p.put name value)
    | none =>
      if r.groups = 0 then do
        .ofBreak d.pass
        readMembers reach rest p
      else do
        .ofBreak (d.hold reach.depth)
        readMembers reach rest { p with kept := p.kept ++ [(name, d.held)] }

def readGroup (reach : Reach) (group : Nat) :
    List (String × Draft) → Progress α → Decoded (Progress α)
  | [], p => .ok p
  | (name, d) :: rest, p =>
    match r.fields.find? (fun f => f.name = name && f.group = group) with
    | some f =>
      if p.seen.contains name then .fail (.duplicateField name)
      else do
        let value ← f.read reach d p.value
        readGroup reach group rest (p.put name value)
    | none => readGroup reach group rest p

def readGroups (reach : Reach) (group : Nat) : (left : Nat) → Progress α → Decoded (Progress α)
  | 0, p => .ok p
  | left + 1, p => do
    readGroups reach (group + 1) left (← readGroup r reach group p.kept p)

/-- Reads values for the fields in order; missing ones keep what the record has. -/
def readInOrder (reach : Reach) (finish : Finish) (index : Nat) :
    List (Field α) → List Draft → α → Decoded α
  | [], [], a =>
    match finish with
    | .closed => .ok a
    | .broken fault => .fail (.broken fault.wanted)
    | .brokenAfterComma _ => .fail (.broken .malformed)
  | [], _ :: _, _ => .fail (.broken .malformed)
  | _ :: _, [], a => do
    .ofBreak finish.check
    pure a
  | f :: fields, d :: rest, a => do
    let a ← Decoded.within (.item index) (f.read reach d a)
    readInOrder reach finish (index + 1) fields rest a

def read (reach : Reach) (d : Draft) : Decoded α :=
  match d.bare with
  | .mapping members finish =>
    if reach.depth = 0 then .fail (.broken .malformed)
    else do
      let p ← r.readMembers reach.deeper members ⟨r.empty, [], []⟩
      .ofBreak finish.check
      let p ← r.readGroups reach.deeper 1 r.groups p
      pure p.value
  | .null (some "") => .ok r.empty
  | .list items finish =>
    if reach.positional && r.groups = 0 then
      if reach.depth = 0 then .fail (.broken .malformed)
      else readInOrder reach.deeper finish 0 r.fields items r.empty
    else d.refuse ("struct " ++ r.name)
  | d => d.refuse ("struct " ++ r.name)

theorem read_list (reach : Reach) (items : List Draft) (finish : Finish) :
    r.read reach (.list items finish) =
      if reach.positional && r.groups = 0 then
        if reach.depth = 0 then .fail (.broken .malformed)
        else readInOrder reach.deeper finish 0 r.fields items r.empty
      else (Draft.list items finish).refuse ("struct " ++ r.name) := rfl

theorem read_mapping (reach : Reach) (members : List (Option String × Draft)) (finish : Finish) :
    r.read reach (.mapping members finish) =
      if reach.depth = 0 then .fail (.broken .malformed)
      else (do
        let p ← r.readMembers reach.deeper members ⟨r.empty, [], []⟩
        .ofBreak finish.check
        let p ← r.readGroups reach.deeper 1 r.groups p
        pure p.value) := rfl

def write (a : α) : Json.Value := .mapping (r.fields.map fun f => (f.name, f.write a))

/-- The record as a field's value, where null is the empty one. -/
def codec : Codec α where
  read reach d :=
    match d.optional with
    | .null _ => .ok r.empty
    | d => r.read reach d
  write := r.write

def listCodec : Codec (List α) := .list r.read r.write

end Record

end ProxyConfig
