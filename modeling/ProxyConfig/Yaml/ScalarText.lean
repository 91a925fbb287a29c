import ProxyConfig.Numeral
import ProxyConfig.Yaml.Cursor

/-!
The texts of scalars: unquoted ones, which end where an indicator stands, quoted ones, and blocks of
lines that are kept (`|`) or folded (`>`).
-/

namespace ProxyConfig.Yaml

def isBracket (c : Char) : Bool := c = '[' || c = ']' || c = '\x7b' || c = '\x7d'

/-- The word at the beginning of an unquoted scalar, and the number of its characters.  Inside
brackets, commas and brackets end it too, and a colon must not stand in front of them. -/
def plainWord (inBrackets : Bool) : List Char → Option (List Char)
  | [] => some []
  | c :: rest =>
    if isSpace c || isBreak c then some []
    else if inBrackets && c = ':' && rest.head?.any (fun d => d = ',' || d = '?' || isBracket d) then
      none
    else if c = ':' && atWordEnd rest then some []
    else if inBrackets && (c = ',' || isBracket c) then some []
    else (plainWord inBrackets rest).map (c :: ·)

/-- Reads an unquoted scalar: its text, the cursor behind it and the gap that follows, and whether
that gap goes over the line's end. -/
def readPlain (inBrackets : Bool) (indent : Nat) :
    (fuel : Nat) → Cursor → Option (List Char × Cursor × Bool)
  | 0, _ => none
  | fuel + 1, c => do
    let word ← plainWord inBrackets c.rest
    let c := c.skip word.length
    if word.isEmpty || (c.rest.isEmpty || !atWordEnd c.rest) then pure (word, c, false)
    else
      let (g, c) ← c.gap indent
      let stops := (!inBrackets && c.column < indent) || c.atDocumentMark || c.rest.head? = some '#'
      let nextWord ← if stops then pure [] else plainWord inBrackets c.rest
      if nextWord.isEmpty then pure (word, c, g.crossesLine)
      else
        let (text, c, crosses) ← readPlain inBrackets indent fuel c
        pure (word ++ g.text ++ text, c, crosses)

/-- The character that a letter behind a backslash stands for. -/
def escapes : List (Char × Char) :=
  [('0', '\x00'), ('a', '\x07'), ('b', '\x08'), ('t', '\t'), ('\t', '\t'), ('n', '\n'),
   ('v', '\x0b'), ('f', '\x0c'), ('r', '\r'), ('e', '\x1b'), (' ', ' '), ('"', '"'), ('/', '/'),
   ('\\', '\\'), ('N', '\u0085'), ('_', '\u00a0'), ('L', '\u2028'), ('P', '\u2029')]

def escapeWidth? (c : Char) : Option Nat :=
  [('x', 2), ('u', 4), ('U', 8)].lookup c

def charOfHex? (digits : List Char) : Option Char := do
  let n ← Numeral.value? 16 digits
  if h : n.isValidChar then pure (Char.ofNatAux n h) else none

/-- How a word of a quoted scalar ends: at a blank, a line's end or the closing quote, or with a
backslash at the line's end. -/
inductive QuotedWord where
  | word (text : List Char) (used : Nat)
  | joined (text : List Char) (used : Nat)

def QuotedWord.push (c : Char) (used : Nat) : QuotedWord → QuotedWord
  | word text n => word (c :: text) (n + used)
  | joined text n => joined (c :: text) (n + used)

def quotedWord (double : Bool) : (fuel : Nat) → List Char → Option QuotedWord
  | 0, _ => none
  | fuel + 1, s =>
    match s with
    | [] => some (.word [] 0)
    | c :: rest =>
      if isSpace c || isBreak c then some (.word [] 0)
      else if double then
        if c = '"' then some (.word [] 0)
        else if c = '\\' then
          match rest with
          | [] => none
          | e :: rest =>
            if isBreak e then some (.joined [] 1)
            else match escapes.lookup e with
              | some d => (quotedWord double fuel rest).map (.push d 2)
              | none => do
                let width ← escapeWidth? e
                let d ← if rest.length < width then none else charOfHex? (rest.take width)
                (← quotedWord double fuel (rest.drop width)).push d (2 + width)
        else (quotedWord double fuel rest).map (.push c 1)
      else if c = '\'' then
        match rest with
        | '\'' :: rest => (quotedWord double fuel rest).map (.push c 2)
        | _ => some (.word [] 0)
      else (quotedWord double fuel rest).map (.push c 1)

def readQuoted (double : Bool) : (fuel : Nat) → Cursor → Option (List Char × Cursor)
  | 0, _ => none
  | fuel + 1, c => do
    if c.atDocumentMark || c.rest.isEmpty then none
    else
      let quote := if double then '"' else '\''
      let (word, c, joined) ← match ← quotedWord double (c.rest.length + 1) c.rest with
        | .word text used => pure (text, c.skip used, false)
        | .joined text used => pure (text, (c.skip used).next, true)
      if c.rest.head? = some quote then pure (word, c.next)
      else
        let (g, c) ← c.gap 0
        let between := if joined then g.breaks else g.text
        let (text, c) ← readQuoted double fuel c
        pure (word ++ between ++ text, c)

inductive Chomping where
  | clip
  | strip
  | keep
  deriving DecidableEq

def blockHeader : List Char → Option (Option Nat × Chomping × Nat)
  | c :: d :: _ =>
    match chomping? c, indentation? c, chomping? d, indentation? d with
    | some k, _, _, some n => if n = 0 then none else some (some n, k, 2)
    | some k, _, _, none => some (none, k, 1)
    | none, some n, some k, _ => if n = 0 then none else some (some n, k, 2)
    | none, some n, none, _ => if n = 0 then none else some (some n, .clip, 1)
    | none, none, _, _ => some (none, .clip, 0)
  | [c] =>
    match chomping? c, indentation? c with
    | some k, _ => some (none, k, 1)
    | none, some n => if n = 0 then none else some (some n, .clip, 1)
    | none, none => some (none, .clip, 0)
  | [] => some (none, .clip, 0)
where
  chomping? (c : Char) : Option Chomping := [('+', .keep), ('-', .strip)].lookup c
  indentation? (c : Char) : Option Nat := Numeral.digit? 10 c

/-- Passes over the indentation and over empty lines: their breaks, the greatest column reached, and
the cursor at the next line's text.  Without an indentation all leading blanks count to it. -/
def blockBreaks (indent : Option Nat) :
    List Char → (line column widest : Nat) → (breaks : List Char) →
      Option (List Char × Nat × Cursor)
  | d :: rest, line, column, widest, breaks =>
    let inside := indent.all (column < ·)
    if inside && d = ' ' then blockBreaks indent rest line (column + 1) widest breaks
    else if inside && d = '\t' then none
    else if isBreak d then
      blockBreaks indent rest (line + 1) 0 (max widest column) (breaks ++ [d])
    else some (breaks, max widest column, ⟨d :: rest, line, column⟩)
  | [], line, column, widest, breaks => some (breaks, max widest column, ⟨[], line, column⟩)

def Cursor.blockBreaks (indent : Option Nat) (c : Cursor) : Option (List Char × Nat × Cursor) :=
  Yaml.blockBreaks indent c.rest c.line c.column 0 []

/-- Reads the lines of a block.  `pending` is the break of the line before, `breaks` are those of the
empty lines behind it, and `indented` says that the line before began with a blank. -/
def blockLines (folded : Bool) (chomping : Chomping) (indent : Nat) :
    (fuel : Nat) → Cursor → (pending breaks : List Char) → (indented : Bool) →
      Option (List Char × Cursor)
  | 0, _, _, _, _ => none
  | fuel + 1, c, pending, breaks, indented =>
    if c.column = indent && !c.rest.isEmpty then do
      let spaced := c.rest.head?.any isSpace
      let between :=
        if folded && pending = ['\n'] && !indented && !spaced then
          if breaks.isEmpty then [' '] else []
        else pending
      let (line, c) := c.takeWhile fun _ => true
      let ended := c.rest.take 1
      let (after, _, c) ← c.next.blockBreaks (some indent)
      let (text, c) ← blockLines folded chomping indent fuel c ended after spaced
      pure (between ++ breaks ++ line ++ text, c)
    else
      let tail := match chomping with
        | .strip => []
        | .clip => pending
        | .keep => pending ++ breaks
      some (tail, c)

/-- Reads a block of lines from behind its indicator; `parent` is the least indentation of what
stands inside the innermost list or mapping. -/
def readBlock (folded : Bool) (parent : Nat) (c : Cursor) : Option (List Char × Cursor) := do
  let (given, chomping, used) ← blockHeader c.rest
  let c := (c.skip used).skipSpaces
  let c := if c.rest.head? = some '#' then c.skipLine else c
  if !atLineEnd c.rest then none
  else
    let given := given.map fun n => if parent = 0 then n else parent - 1 + n
    let (breaks, widest, c) ← c.next.blockBreaks given
    let indent := given.getD (max widest (max parent 1))
    blockLines folded chomping indent (c.rest.length + 1) c [] breaks false

end ProxyConfig.Yaml
