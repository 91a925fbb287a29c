/-!
Bytes read as UTF-8, one piece after the other: a character, or a stray run of bytes that belongs
to none.  A stray run is the longest beginning of a character that the next byte breaks off, or one
byte that begins nothing.  Reading a file wants no stray run (`strict`), showing output replaces
each by one U+FFFD (`lossy`), and the JSON reader forgives them in what it skips.
-/

namespace ProxyConfig.Text

inductive Piece where
  | char (c : Char)
  | stray
  deriving DecidableEq

/-- What is known of a character once some of its bytes are read: the range of the next byte, the
number of bytes after that one, and the bits so far. -/
structure Lead where
  low : UInt8
  high : UInt8
  more : Nat
  bits : Nat

/-- The well-formed sequences of two bytes and more; surrogates, overlong forms and what lies
beyond U+10FFFF are ruled out by the range of the second byte. -/
def Lead.of? (b : UInt8) : Option Lead :=
  if b < 0xC2 then none
  else if b < 0xE0 then some ⟨0x80, 0xBF, 0, b.toNat - 0xC0⟩
  else if b == 0xE0 then some ⟨0xA0, 0xBF, 1, 0⟩
  else if b == 0xED then some ⟨0x80, 0x9F, 1, 0xD⟩
  else if b < 0xF0 then some ⟨0x80, 0xBF, 1, b.toNat - 0xE0⟩
  else if b == 0xF0 then some ⟨0x90, 0xBF, 2, 0⟩
  else if b < 0xF4 then some ⟨0x80, 0xBF, 2, b.toNat - 0xF0⟩
  else if b == 0xF4 then some ⟨0x80, 0x8F, 2, 4⟩
  else none

/-- How far the reading of a byte sequence has come: the pieces read so far, the last one first,
and what is known of the character that is being read. -/
structure Progress where
  done : List Piece
  inside : Option Lead

def begin (done : List Piece) (b : UInt8) : Progress :=
  if b < 0x80 then ⟨.char (Char.ofNat b.toNat) :: done, none⟩
  else match Lead.of? b with
    | none => ⟨.stray :: done, none⟩
    | some lead => ⟨done, some lead⟩

def Progress.next (p : Progress) (b : UInt8) : Progress :=
  match p.inside with
  | none => begin p.done b
  | some lead =>
    if lead.low ≤ b && b ≤ lead.high then
      let bits := lead.bits * 64 + (b.toNat - 0x80)
      match lead.more with
      | 0 => ⟨.char (Char.ofNat bits) :: p.done, none⟩
      | more + 1 => ⟨p.done, some ⟨0x80, 0xBF, more, bits⟩⟩
    else begin (.stray :: p.done) b

def Progress.finish (p : Progress) : List Piece :=
  match p.inside with
  | none => p.done.reverse
  | some _ => (.stray :: p.done).reverse

def pieces (bytes : ByteArray) : List Piece :=
  (bytes.data.toList.foldl Progress.next ⟨[], none⟩).finish

def piecesOf (s : String) : List Piece := s.toList.map .char

def charsOf? (ps : List Piece) : Option (List Char) :=
  ps.mapM fun
    | .char c => some c
    | .stray => none

def strict (bytes : ByteArray) : Option String := (charsOf? (pieces bytes)).map String.ofList

/-- The text that the bytes spell, with one U+FFFD for each stray run. -/
def lossy (bytes : ByteArray) : String :=
  String.ofList <| (pieces bytes).map fun
    | .char c => c
    | .stray => '\uFFFD'

@[simp] theorem piecesOf_append (s t : String) : piecesOf (s ++ t) = piecesOf s ++ piecesOf t := by
  simp [piecesOf]

@[simp] theorem charsOf?_piecesOf (s : String) : charsOf? (piecesOf s) = some s.toList := by
  simp only [charsOf?, piecesOf]
  generalize s.toList = l
  induction l with
  | nil => rfl
  | cons c l ih => simp [List.mapM_cons, ih]

end ProxyConfig.Text
