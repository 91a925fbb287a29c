import ProxyConfig.Json.Number
import ProxyConfig.Numeral

/-!
Reading JSON text into a draft.  The reader never fails: where the text breaks off or is malformed,
the draft ends with the fault, and nothing behind it is read.  `Reading.ofPieces` reads one value and
notes whether anything but blanks follows it.
-/

namespace ProxyConfig.Json

open Text

/-- Without the blanks it begins with; JSON has four of them. -/
def skipBlanks : List Piece → List Piece
  | .char ' ' :: rest | .char '\n' :: rest | .char '\t' :: rest | .char '\r' :: rest =>
    skipBlanks rest
  | input => input

def width : List Piece → Nat
  | [] => 0
  | .char c :: rest => c.utf8Size + width rest
  | .stray :: rest => width rest + 1

def readHex (input : List Piece) : Except Fault (Nat × List Piece) :=
  if width (input.take 4) < 4 then .error .endOfText
  else
    match (charsOf? (input.take 4)).bind (Numeral.value? 16) with
    | some n => .ok (n, input.drop 4)
    | none => .error .malformed

def simpleEscape? : Char → Option Char
  | '"' => some '"'
  | '\\' => some '\\'
  | '/' => some '/'
  | 'b' => some '\x08'
  | 'f' => some '\x0c'
  | 'n' => some '\n'
  | 'r' => some '\r'
  | 't' => some '\t'
  | _ => none

inductive Escaped where
  | char (c : Char)
  | loneSurrogate

/-- What an escape with the code `n` stands for, with the text after it.  A leading surrogate needs
an escape with a trailing one behind it; where that is missing, the second escape is left to be read
on its own. -/
def pairUp (n : Nat) (rest : List Piece) : Except Fault (Escaped × List Piece) :=
  if n < 0xD800 || 0xE000 ≤ n then .ok (.char (Char.ofNat n), rest)
  else if 0xDC00 ≤ n then .ok (.loneSurrogate, rest)
  else match rest with
    | [] | [.char '\\'] => .error .endOfText
    | .char '\\' :: .char 'u' :: more => do
      let (low, more) ← readHex more
      if 0xDC00 ≤ low && low < 0xE000 then
        pure (.char (Char.ofNat (0x10000 + (n - 0xD800) * 0x400 + (low - 0xDC00))), more)
      else pure (.loneSurrogate, rest)
    | _ => .ok (.loneSurrogate, rest)

/-- What is wrong with a quoted text so far: nothing, bytes that are no character, or a lone
surrogate, which is a fault at once where the text is wanted. -/
inductive Flaw where
  | none
  | stray
  | surrogate

def Flaw.blame : Flaw → Fault → Fault
  | .surrogate, f => ⟨.malformed, f.passed⟩
  | _, f => f

/-- The rest of a quoted text behind its opening quote, after `acc` in reverse.  The result has no
text if the text cannot be read, though it ends properly. -/
def readQuoted : (fuel : Nat) → Flaw → (acc : List Char) → List Piece →
    Except Fault (Option String × List Piece)
  | 0, flaw, _, _ | _ + 1, flaw, _, [] => .error (flaw.blame .endOfText)
  | fuel + 1, flaw, acc, p :: rest =>
    match p with
    | .stray =>
      match flaw with
      | .surrogate => readQuoted fuel .surrogate acc rest
      | _ => readQuoted fuel .stray acc rest
    | .char '"' =>
      match flaw with
      | .none => .ok (some (String.ofList acc.reverse), rest)
      | _ => .ok (none, rest)
    | .char '\\' =>
      match rest with
      | [] => .error (flaw.blame .endOfText)
      | .char 'u' :: rest =>
        match (readHex rest).bind fun (n, rest) => pairUp n rest with
        -- what comes behind a lone surrogate cannot make up for it
        | .error fault => .error (flaw.blame fault)
        | .ok (.char c, rest) => readQuoted fuel flaw (c :: acc) rest
        | .ok (.loneSurrogate, rest) => readQuoted fuel .surrogate acc rest
      | .char c :: rest =>
        match simpleEscape? c with
        | some c => readQuoted fuel flaw (c :: acc) rest
        | none => .error (flaw.blame .malformed)
      | .stray :: _ => .error (flaw.blame .malformed)
    | .char c =>
      if c.toNat < 0x20 then .error (flaw.blame .malformed)
      else readQuoted fuel flaw (c :: acc) rest

def readLiteral : List Char → List Piece → Except Fault (List Piece)
  | [], rest => .ok rest
  | _ :: _, [] => .error .endOfText
  | c :: cs, p :: rest => if p = .char c then readLiteral cs rest else .error .malformed

/-- A draft, and the text behind it unless the draft ends with a fault. -/
abbrev Step (α : Type) := α × Option (List Piece)

def literal (d : Draft) (letters : List Char) (input : List Piece) : Step Draft :=
  match readLiteral letters input with
  | .ok rest => (d, some rest)
  | .error fault => (.stop fault, none)

mutual

/-- The value at the beginning.  `fuel` is at least the number of pieces. -/
def readValue : (fuel : Nat) → List Piece → Step Draft
  | 0, _ => (.stop .endOfText, none)
  | fuel + 1, input =>
    match skipBlanks input with
    | [] => (.stop .endOfText, none)
    | .char 'n' :: rest => literal (.null none) ['u', 'l', 'l'] rest
    | .char 't' :: rest => literal (.scalar (some (.bool true)) none) ['r', 'u', 'e'] rest
    | .char 'f' :: rest => literal (.scalar (some (.bool false)) none) ['a', 'l', 's', 'e'] rest
    | .char '"' :: rest =>
      match readQuoted fuel .none [] rest with
      | .ok (some s, rest) => (.text s, some rest)
      | .ok (none, rest) => (.scalar none none, some rest)
      | .error fault => (.stop fault, none)
    | .char '[' :: rest =>
      match skipBlanks rest with
      | .char ']' :: rest => (.list [] .closed, some rest)
      -- the list has begun, so the end of the text is a fault inside of it
      | [] => (.list [] (.broken .endOfText), none)
      | rest =>
        let ((items, finish), rest) := readItems fuel rest
        (.list items finish, rest)
    | .char '\x7b' :: rest =>
      match skipBlanks rest with
      | .char '\x7d' :: rest => (.mapping [] .closed, some rest)
      | rest =>
        let ((members, finish), rest) := readMembers fuel rest
        (.mapping members finish, rest)
    | .char c :: rest =>
      if c = '-' || ('0' ≤ c && c ≤ '9') then
        match readNumber (.char c :: rest) with
        | .ok (parts, rest) => (.scalar parts.value? none, some rest)
        | .error fault => (.stop fault, none)
      else (.stop .malformed, none)
    | .stray :: _ => (.stop .malformed, none)

def readItems : (fuel : Nat) → List Piece → Step (List Draft × Finish)
  | 0, _ => (([], .broken .endOfText), none)
  | fuel + 1, input =>
    match readValue fuel input with
    | (d, none) => (([d], .broken .malformed), none)
    | (d, some rest) =>
      match skipBlanks rest with
      | .char ']' :: rest => (([d], .closed), some rest)
      | .char ',' :: rest =>
        match skipBlanks rest with
        | [] => (([d], .brokenAfterComma .endOfText), none)
        | .char ']' :: _ => (([d], .brokenAfterComma .malformed), none)
        | rest =>
          let ((items, finish), rest) := readItems fuel rest
          ((d :: items, finish), rest)
      | [] => (([d], .broken .endOfText), none)
      | _ => (([d], .broken .malformed), none)

def readMembers : (fuel : Nat) → List Piece → Step (List (Option String × Draft) × Finish)
  | 0, _ => (([], .broken .endOfText), none)
  | fuel + 1, input =>
    match skipBlanks input with
    | [] => (([], .broken .endOfText), none)
    | .char '"' :: rest =>
      match readQuoted fuel .none [] rest with
      | .error fault => (([], .broken fault), none)
      | .ok (key, rest) =>
        match skipBlanks rest with
        | [] => (([(key, .stop .endOfText)], .broken .malformed), none)
        | .char ':' :: rest =>
          match readValue fuel rest with
          | (d, none) => (([(key, d)], .broken .malformed), none)
          | (d, some rest) =>
            match skipBlanks rest with
            | .char '\x7d' :: rest => (([(key, d)], .closed), some rest)
            | .char ',' :: rest =>
              let ((members, finish), rest) := readMembers fuel rest
              (((key, d) :: members, finish), rest)
            | [] => (([(key, d)], .broken .endOfText), none)
            | _ => (([(key, d)], .broken .malformed), none)
        | _ => (([(key, .stop .malformed)], .broken .malformed), none)
    | _ => (([], .broken .malformed), none)

end

structure Reading where
  draft : Draft
  ends : Bool

def Reading.ofPieces (input : List Piece) : Reading :=
  match readValue (input.length + 1) input with
  | (d, none) => ⟨d, true⟩
  | (d, some rest) => ⟨d, (skipBlanks rest).isEmpty⟩

end ProxyConfig.Json
