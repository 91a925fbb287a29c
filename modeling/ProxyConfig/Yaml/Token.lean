import ProxyConfig.TextMap
import ProxyConfig.Yaml.ScalarText
import ProxyConfig.Yaml.Tag

/-!
The tokens of YAML text.  Indentation becomes tokens that open and close blocks, and a key that is
only known as one when its colon comes is marked in front of the tokens that were read for it.  Anchors
get numbers, and a reference has the number that its anchor's name had last.
-/

namespace ProxyConfig.Yaml

inductive Token where
  | version
  | meaning (of : WrittenTag)
  | documentStart
  | documentEnd
  | blockList
  | blockMapping
  | blockEnd
  | openList
  | closeList
  | openMapping
  | closeMapping
  | item
  | comma
  | key
  | value
  | anchor (number : Nat)
  | reference (anchor : Nat)
  | tag (written : WrittenTag)
  | scalar (quoted : Bool) (text : String)
  deriving DecidableEq, Repr

/-- Where something begins that may turn out to be a key: the number of tokens before it, and its
place.  Where a key has to stand, as at the indentation of a mapping, it is required to be one. -/
structure KeySpot where
  count : Nat
  line : Nat
  column : Nat
  required : Bool

/-- How far the reading of tokens has come.  `tokens` has the latest first, `indents` the innermost
block first, and `keys` a spot for the innermost bracket first and for what stands outside of all
brackets last.  `anchors` has the numbers of the names so far. -/
structure Lexer where
  cursor : Cursor
  tokens : List Token
  count : Nat
  indents : List Nat
  keys : List (Option KeySpot)
  keyAllowed : Bool
  anchors : TextMap Nat

namespace Lexer

def start (text : List Char) : Lexer where
  cursor := match unified text with
    | '\ufeff' :: rest => ⟨rest, 0, 1⟩
    | rest => ⟨rest, 0, 0⟩
  tokens := []
  count := 0
  indents := []
  keys := [none]
  keyAllowed := true
  anchors := []

def inBrackets (x : Lexer) : Bool := 1 < x.keys.length

def innerIndent (x : Lexer) : Nat :=
  match x.indents with
  | [] => 0
  | indent :: _ => indent + 1

def put (t : Token) (x : Lexer) : Lexer := { x with tokens := t :: x.tokens, count := x.count + 1 }

def putAt (count : Nat) (t : Token) (x : Lexer) : Lexer :=
  let after := x.count - count
  { x with tokens := x.tokens.take after ++ t :: x.tokens.drop after, count := x.count + 1 }

def skip (n : Nat) (x : Lexer) : Lexer := { x with cursor := x.cursor.skip n }

def closeBlocks (column : Option Nat) (x : Lexer) : Lexer :=
  if x.inBrackets then x
  else
    let closed := x.indents.takeWhile fun indent => column.all (· < indent)
    { x with
      indents := x.indents.drop closed.length
      tokens := List.replicate closed.length .blockEnd ++ x.tokens
      count := x.count + closed.length }

/-- Opens a block at `column`, unless one that is indented as much is open, with its token in front
of all but the first `count` ones. -/
def openBlock (column count : Nat) (t : Token) (x : Lexer) : Lexer :=
  if x.inBrackets || column < x.innerIndent then x
  else { x.putAt count t with indents := column :: x.indents }

/-- Forgets the innermost spot for a key; a required one cannot be forgotten. -/
def dropKey (x : Lexer) : Option Lexer :=
  match x.keys with
  | some spot :: outer => if spot.required then none else some { x with keys := none :: outer }
  | _ => some x

/-- Forgets the spots that are too far back: a key stands on one line, at most 1024 characters before
its colon. -/
def dropStaleKeys (x : Lexer) : Option Lexer := do
  let keys ← x.keys.mapM fun
    | none => some none
    | some spot =>
      if spot.line < x.cursor.line || spot.column + 1024 < x.cursor.column then
        if spot.required then none else some none
      else some (some spot)
  pure { x with keys }

/-- Notes that a key may begin here. -/
def saveKey (x : Lexer) : Option Lexer :=
  if !x.keyAllowed then some x
  else do
    let x ← x.dropKey
    let required := !x.inBrackets && x.indents.head? = some x.cursor.column
    let spot : KeySpot := ⟨x.count, x.cursor.line, x.cursor.column, required⟩
    pure { x with keys := some spot :: x.keys.drop 1 }

/-- Passes over blanks, comments and line breaks; a new line may begin with a key. -/
def skipToToken : (fuel : Nat) → Lexer → Lexer
  | 0, x => x
  | fuel + 1, x =>
    match x.cursor.rest with
    | [] => x
    | c :: _ =>
      if c = ' ' || (c = '\t' && (x.inBrackets || !x.keyAllowed)) then
        skipToToken fuel { x with cursor := x.cursor.next }
      else if c = '#' then skipToToken fuel { x with cursor := x.cursor.skipLine }
      else if isBreak c then
        skipToToken fuel
          { x with cursor := x.cursor.next, keyAllowed := x.keyAllowed || !x.inBrackets }
      else x

def leaveBlocks (x : Lexer) : Option Lexer := do
  pure { ← (x.closeBlocks none).dropKey with keyAllowed := false }

def readDigits (c : Cursor) : Option (Nat × Cursor) :=
  let (digits, c) := c.takeWhile fun d => '0' ≤ d && d ≤ '9'
  if 9 < digits.length then none else (Numeral.value? 10 digits).map fun n => (n, c)

def readVersion (c : Cursor) : Option Cursor := do
  let (major, c) ← readDigits c
  if c.rest.head? ≠ some '.' then none
  else
    let (minor, c) ← readDigits (c.skip 1)
    if major = 1 && (minor = 1 || minor = 2) then pure c else none

def readDirective (c : Cursor) : Option (Token × Cursor) := do
  let (name, c) := c.takeWhile Tag.isNameChar
  if !atWordEnd c.rest then none
  else
    let (t, c) ←
      if name = "YAML".toList then (readVersion c.skipSpaces).map fun c => (Token.version, c)
      else if name = "TAG".toList then
        (Tag.readMeaning c.skipSpaces).map fun (of, c) => (Token.meaning of, c)
      else none
    let c := c.skipSpaces
    let c := if c.rest.head? = some '#' then c.skipLine else c
    if atLineEnd c.rest then pure (t, c) else none

def putScalar (quoted : Bool) (text : List Char) (c : Cursor) (keyAllowed : Bool) (x : Lexer) :
    Lexer :=
  { x.put (.scalar quoted (String.ofList text)) with cursor := c, keyAllowed }

/-- Adds a token that stands in front of a value or for one, and may begin a key. -/
def putSign (t : Token) (c : Cursor) (x : Lexer) : Lexer :=
  { x.put t with cursor := c, keyAllowed := false }

/-- Reads the colon behind a key, or the one of a value whose key is missing or stands on lines of
its own. -/
def readColon (x : Lexer) : Option Lexer :=
  match x.keys with
  | some spot :: outer =>
    let x := x.putAt spot.count .key
    let x := { x with keys := none :: outer }
    let x := x.openBlock spot.column spot.count .blockMapping
    some { (x.put .value).skip 1 with keyAllowed := false }
  | _ =>
    if !x.inBrackets && !x.keyAllowed then none
    else
      let x := x.openBlock x.cursor.column x.count .blockMapping
      some { (x.put .value).skip 1 with keyAllowed := !x.inBrackets }

/-- Reads the mark of an item or of a key on lines of its own, which may open a block. -/
def readMark (block t : Token) (x : Lexer) : Option Lexer := do
  if !x.inBrackets && !x.keyAllowed then none
  else
    let x := x.openBlock x.cursor.column x.count block
    let x ← x.dropKey
    pure { (x.put t).skip 1 with keyAllowed := t = .item || !x.inBrackets }

def readOpening (t : Token) (x : Lexer) : Option Lexer := do
  let x ← x.saveKey
  pure { (x.put t).skip 1 with keys := none :: x.keys, keyAllowed := true }

def readClosing (t : Token) (x : Lexer) : Option Lexer := do
  let x ← x.dropKey
  let keys := if x.inBrackets then x.keys.drop 1 else x.keys
  pure { (x.put t).skip 1 with keys, keyAllowed := false }

/-- Characters that no unquoted scalar begins with, but for those that are no indicators where
something follows them. -/
def indicators : List Char :=
  ['-', '?', ':', ',', '[', ']', '\x7b', '\x7d', '#', '&', '*', '!', '|', '>', '\'', '"', '%', '@',
   '\x60']

def beginsPlain (inBrackets : Bool) (c : Char) (rest : List Char) : Bool :=
  (!isSpace c && !indicators.contains c) || (c = '-' && !rest.head?.any isSpace) ||
    (!inBrackets && (c = '?' || c = ':') && !atWordEnd rest)

def readToken (x : Lexer) (c : Char) (rest : List Char) : Option Lexer := do
  let fuel := rest.length + 2
  if x.cursor.column = 0 && c = '%' then
    let x ← x.leaveBlocks
    let (t, cursor) ← readDirective (x.cursor.skip 1)
    pure { x.put t with cursor }
  else if x.cursor.atDocumentMark then
    let x ← x.leaveBlocks
    pure ((x.put (if c = '-' then .documentStart else .documentEnd)).skip 3)
  else if c = '[' then x.readOpening .openList
  else if c = '\x7b' then x.readOpening .openMapping
  else if c = ']' then x.readClosing .closeList
  else if c = '\x7d' then x.readClosing .closeMapping
  else if c = ',' then
    let x ← x.dropKey
    pure { (x.put .comma).skip 1 with keyAllowed := true }
  else if c = '-' && atWordEnd rest then x.readMark .blockList .item
  -- inside brackets nothing else could begin with these two, so they need no blank behind them
  else if c = '?' && (x.inBrackets || atWordEnd rest) then x.readMark .blockMapping .key
  else if c = ':' && (x.inBrackets || atWordEnd rest) then x.readColon
  else if c = '*' then
    let x ← x.saveKey
    let (name, cursor) ← Tag.readName (x.cursor.skip 1)
    pure (x.putSign (.reference (← x.anchors.find? name)) cursor)
  else if c = '&' then
    let x ← x.saveKey
    let (name, cursor) ← Tag.readName (x.cursor.skip 1)
    -- the number is how many names there are, so that it is not a new one where a name comes again
    let number := x.anchors.length
    pure { x.putSign (.anchor number) cursor with anchors := x.anchors.insert name number }
  else if c = '!' then
    let x ← x.saveKey
    let (written, cursor) ← Tag.read x.inBrackets x.cursor
    pure (x.putSign (.tag written) cursor)
  else if (c = '|' || c = '>') && !x.inBrackets then
    let x ← x.dropKey
    let (text, cursor) ← readBlock (c = '>') x.innerIndent x.cursor.next
    -- a block ends at the beginning of a line, where a key may stand
    pure (x.putScalar true text cursor true)
  else if c = '\'' || c = '"' then
    let x ← x.saveKey
    let (text, cursor) ← readQuoted (c = '"') fuel x.cursor.next
    pure (x.putScalar true text cursor false)
  else if beginsPlain x.inBrackets c rest then
    let x ← x.saveKey
    let (text, cursor, crosses) ← readPlain x.inBrackets x.innerIndent fuel x.cursor
    pure (x.putScalar false text cursor crosses)
  else none

def run : (fuel : Nat) → Lexer → Option (List Token)
  | 0, _ => none
  | fuel + 1, x => do
    let x ← (x.skipToToken (x.cursor.rest.length + 1)).dropStaleKeys
    -- a word further to the left ends the blocks that are indented more
    let x := x.closeBlocks (some x.cursor.column)
    match x.cursor.rest with
    | [] => pure (← x.leaveBlocks).tokens.reverse
    | c :: rest => run fuel (← x.readToken c rest)

end Lexer

def tokens? (text : List Char) : Option (List Token) :=
  if text.all isAllowed then Lexer.run (text.length + 1) (.start text) else none

end ProxyConfig.Yaml
