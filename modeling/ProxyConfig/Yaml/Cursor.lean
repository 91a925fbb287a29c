/-!
A place in YAML text: what is left of it, with the line and column where that begins.  Lines end with
a line feed or one of the two separators of Unicode; other line ends are written as line feeds before
reading (`unified`).  A gap is what stands between two words of a scalar, which may go over lines;
lines are folded into one there.
-/

namespace ProxyConfig.Yaml

structure Cursor where
  rest : List Char
  line : Nat
  column : Nat

/-- The text with each line end that is no separator as a line feed. -/
def unified : List Char → List Char
  | '\r' :: '\n' :: rest => '\n' :: unified rest
  | c :: rest => (if c = '\r' || c = '\u0085' then '\n' else c) :: unified rest
  | [] => []

def isAllowed (c : Char) : Bool :=
  c = '\t' || c = '\n' || c = '\r' || c = '\u0085' || (' ' ≤ c && c ≤ '~') ||
    ('\u00a0' ≤ c && c ≤ '\ufffd') || 0x10000 ≤ c.toNat

def isBreak (c : Char) : Bool := c = '\n' || c = '\u2028' || c = '\u2029'

def isSpace (c : Char) : Bool := c = ' ' || c = '\t'

def atWordEnd : List Char → Bool
  | [] => true
  | c :: _ => isSpace c || isBreak c

def atLineEnd : List Char → Bool
  | [] => true
  | c :: _ => isBreak c

namespace Cursor

def next (c : Cursor) : Cursor :=
  match c.rest with
  | [] => c
  | d :: rest => if isBreak d then ⟨rest, c.line + 1, 0⟩ else ⟨rest, c.line, c.column + 1⟩

def skip (c : Cursor) (n : Nat) : Cursor := ⟨c.rest.drop n, c.line, c.column + n⟩

def takeWhile (p : Char → Bool) (c : Cursor) : List Char × Cursor :=
  let taken := c.rest.takeWhile fun d => p d && !isBreak d
  (taken, c.skip taken.length)

def skipSpaces (c : Cursor) : Cursor := (c.takeWhile isSpace).2

def skipLine (c : Cursor) : Cursor := (c.takeWhile fun _ => true).2

def atDocumentMark (c : Cursor) : Bool :=
  c.column == 0 &&
    match c.rest with
    | '-' :: '-' :: '-' :: rest | '.' :: '.' :: '.' :: rest => atWordEnd rest
    | _ => false

end Cursor

/-- What stands between two words: blanks of one line, or line breaks. -/
structure Gap where
  spaces : List Char := []
  breaks : List Char := []

/-- What a gap counts as: of one line break remains a blank, and of several all but the first. -/
def Gap.text (g : Gap) : List Char :=
  match g.breaks with
  | [] => g.spaces
  | ['\n'] => [' ']
  | '\n' :: more => more
  | breaks => breaks

def Gap.crossesLine (g : Gap) : Bool := !g.breaks.isEmpty

/-- Reads a gap.  Behind a line break there may be no tab before column `indent`. -/
def readGap (indent : Nat) : List Char → (line column : Nat) → Gap → Option (Gap × Cursor)
  | d :: rest, line, column, g =>
    if isSpace d then
      if g.crossesLine then
        if d = '\t' && column < indent then none
        else readGap indent rest line (column + 1) g
      else readGap indent rest line (column + 1) { g with spaces := g.spaces ++ [d] }
    else if isBreak d then readGap indent rest (line + 1) 0 { g with breaks := g.breaks ++ [d] }
    else some (g, ⟨d :: rest, line, column⟩)
  | [], line, column, g => some (g, ⟨[], line, column⟩)

def Cursor.gap (indent : Nat) (c : Cursor) : Option (Gap × Cursor) :=
  readGap indent c.rest c.line c.column {}

end ProxyConfig.Yaml
