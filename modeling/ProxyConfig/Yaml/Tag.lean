import ProxyConfig.Numeral
import ProxyConfig.Text.Pieces
import ProxyConfig.Yaml.Cursor

/-!
Names of anchors, and tags.  A tag is written in full between angle brackets, or as a handle with a
suffix behind it; the handle stands for the beginning of the tag, and directives say for which.  Bytes
of a tag may be written as two hexadecimal digits behind a percent sign.
-/

namespace ProxyConfig.Yaml

/-- The bytes of a tag. -/
abbrev Tag := List UInt8

/-- A tag as it is written: a handle, which is empty for a tag in full, and the suffix. -/
abbrev WrittenTag := String × Tag

namespace Tag

def ofText (s : String) : Tag := s.toUTF8.data.toList

def core (kind : String) : Tag := ofText ("tag:yaml.org,2002:" ++ kind)

/-- The tag that says no more than that a value is no plain scalar. -/
def bang : Tag := ofText "!"

def isOwn (t : Tag) : Bool := t.head? = some 0x21 && (Text.strict ⟨t.toArray⟩).isSome

def isNameChar (c : Char) : Bool := c.isAlphanum || c = '_' || c = '-'

/-- A character that a tag may be written with; some of them only where it is written in full. -/
def isTagChar (full : Bool) (c : Char) : Bool :=
  isNameChar c ||
    [';', '/', '?', ':', '@', '&', '=', '+', '$', '.', '%', '!', '~', '*', '\'', '(', ')'].contains c ||
    (full && [',', '[', ']'].contains c)

def trailing? (b : UInt8) : Option Nat :=
  if b < 0x80 then some 0
  else if b < 0xC0 then none
  else if b < 0xE0 then some 1
  else if b < 0xF0 then some 2
  else if b < 0xF8 then some 3
  else none

/-- The bytes that are written, `left` of which are still to come of one character. -/
def unescape : (left : Nat) → List Char → Option Tag
  | 0, [] => some []
  | left, '%' :: high :: low :: rest => do
    let b := (← Numeral.value? 16 [high, low]).toUInt8
    let left ← match left with
      | 0 => trailing? b
      | left + 1 => if 0x80 ≤ b && b < 0xC0 then some left else none
    pure (b :: (← unescape left rest))
  | 0, c :: rest => do if c = '%' then none else pure (c.toNat.toUInt8 :: (← unescape 0 rest))
  | _ + 1, _ => none

def ofWritten (s : List Char) : Option Tag := (unescape 0 s).map fun t => t.takeWhile (· ≠ 0)

def readHandle (c : Cursor) : Option (String × Cursor) :=
  let (name, behind) := (c.skip 1).takeWhile isNameChar
  if c.rest.head? = some '!' && behind.rest.head? = some '!' then
    some ("!" ++ String.ofList name ++ "!", behind.skip 1)
  else none

def readPart (full : Bool) (c : Cursor) : Option (Tag × Cursor) := do
  let (part, c) := c.takeWhile (isTagChar full)
  if part.isEmpty then none else pure (← ofWritten part, c)

/-- A tag in front of a value.  An exclamation mark alone is a tag in full. -/
def read (inBrackets : Bool) (c : Cursor) : Option (WrittenTag × Cursor) := do
  let (tag, c) ←
    if c.rest.take 2 = ['!', '<'] then do
      let (full, c) ← readPart true (c.skip 2)
      if c.rest.head? = some '>' then pure (("", full), c.skip 1) else none
    else match readHandle c with
      | some (handle, c) => do
        let (part, c) ← readPart false c
        pure ((handle, part), c)
      | none => do
        let (part, c) := (c.skip 1).takeWhile (isTagChar false)
        let part ← ofWritten part
        pure (if part.isEmpty then ("", bang) else ("!", part), c)
  if atWordEnd c.rest || (inBrackets && c.rest.head? = some ',') then pure (tag, c) else none

def readMeaning (c : Cursor) : Option (WrittenTag × Cursor) := do
  let (handle, c) ← match readHandle c with
    | some found => some found
    | none => if c.rest.head? = some '!' then some ("!", c.skip 1) else none
  if !c.rest.head?.any isSpace then none
  else
    let (meaning, c) ← readPart true c.skipSpaces
    if atWordEnd c.rest then pure ((handle, meaning), c) else none

def usual : List WrittenTag := [("!", bang), ("!!", core "")]

def resolve? (meanings : List WrittenTag) (written : WrittenTag) : Option Tag :=
  if written.1.isEmpty then some written.2
  else ((meanings ++ usual).lookup written.1).map (· ++ written.2)

def readName (c : Cursor) : Option (String × Cursor) :=
  let (name, c) := c.takeWhile isNameChar
  let ends := atWordEnd c.rest ||
    c.rest.head?.any ['?', ':', ',', ']', '\x7d', '%', '@', '\x60'].contains
  if !name.isEmpty && ends then some (String.ofList name, c) else none

end Tag

end ProxyConfig.Yaml
