import ProxyConfig.Text.Cut
import ProxyConfig.Text.Pieces

/-!
The parts of a form that is sent as `multipart/form-data`.  Parts are read one after the other, so
that a fault behind the part that is wanted does not matter.
-/

namespace ProxyConfig.Admin.Multipart

abbrev Bytes := List UInt8

def crlf : Bytes := [13, 10]

def bytesOf (s : String) : Bytes := s.toUTF8.data.toList

def after? : (t s : Bytes) → Option Bytes
  | [], s => some s
  | _ :: _, [] => none
  | a :: t, b :: s => if a = b then after? t s else none

/-- What stands before and after the first `t`, with `before` in front of it in reverse. -/
def cutAt (t : Bytes) (before : Bytes) : Bytes → Option (Bytes × Bytes)
  | [] => (after? t []).map fun rest => (before.reverse, rest)
  | b :: rest =>
    match after? t (b :: rest) with
    | some rest => some (before.reverse, rest)
    | none => cutAt t (b :: before) rest

def isSpace (b : UInt8) : Bool := b = 0x20 || b = 9

def isBlank (b : UInt8) : Bool := isSpace b || b = 10 || b = 12 || b = 13

def isNameByte (b : UInt8) : Bool :=
  let c := Char.ofNat b.toNat
  b < 0x80 && (c.isAlphanum || "!#$%&'*+-.^_|~".toList.contains c || c = '\x60')

def isValueByte (b : UInt8) : Bool := b = 9 || (0x20 ≤ b && b != 0x7F)

def headerLimit : Nat := 32

def afterLine? : Bytes → Option Bytes
  | 13 :: 10 :: rest => some rest
  | 10 :: rest => some rest
  | _ => none

def lowered (name : Bytes) : String :=
  String.ofList (name.map fun b => (Char.ofNat b.toNat).toLower)

def headers? : (left : Nat) → Bytes → Option (List (String × Bytes))
  | left, s =>
    match afterLine? s with
    | some _ => some []
    | none =>
      match left with
      | 0 => none
      | left + 1 => do
        let (name, rest) := s.span isNameByte
        match name, rest with
        | _ :: _, 0x3A :: rest =>
          let (value, rest) := (rest.dropWhile isSpace).span isValueByte
          let value := (value.reverse.dropWhile isSpace).reverse
          pure ((lowered name, value) :: (← headers? left (← afterLine? rest)))
        | _, _ => none

/-- The value between quotes at the beginning; a quote in it stands behind a backslash. -/
def quotedValue? : Bytes → Option Bytes
  | 0x5C :: 0x22 :: rest => (quotedValue? rest).map (0x22 :: ·)
  | 0x22 :: _ => some []
  | b :: rest => (quotedValue? rest).map (b :: ·)
  | [] => none

def assigned? (s : Bytes) : Option Bytes :=
  match s.dropWhile isBlank with
  | 0x3D :: rest =>
    match rest.dropWhile isBlank with
    | 0x22 :: rest => quotedValue? rest
    | rest => some (rest.takeWhile fun b => !(isBlank b || b = 0x3B))
  | _ => none

/-- The value of an attribute of a header: its name stands at the beginning or behind a blank or
semicolon. -/
def attribute? (name : Bytes) : (fuel : Nat) → Bytes → Option Bytes
  | 0, _ => none
  | fuel + 1, header => do
    let (before, rest) ← cutAt name [] header
    if before.getLast?.all fun b => isBlank b || b = 0x3B then
      (assigned? rest).orElse fun _ => attribute? name fuel rest
    else attribute? name fuel rest

/-- What a part says about itself; `rest` begins with its content. -/
structure Part where
  name : Option String
  fileName : Option String
  rest : Bytes

def textOf? (bytes : Bytes) : Option String := Text.strict ⟨bytes.toArray⟩

def divider (boundary : String) : Bytes := bytesOf ("--" ++ boundary)

def start? (boundary : String) (body : Bytes) : Option Bytes :=
  (cutAt (divider boundary) [] body).map (·.2)

/-- Reads a part's headers from behind a divider, or the end of the form; no answer where the form is
broken. -/
def part? (s : Bytes) : Option (Option Part) :=
  match s with
  | 0x2D :: 0x2D :: _ => some none
  | _ => do
    if s.length < 2 then none
    else
      let rest ← after? crlf (s.dropWhile isSpace)
      let (head, rest) ← cutAt (crlf ++ crlf) [] rest
      let headers ← headers? headerLimit (head ++ crlf ++ crlf)
      let disposition := (headers.reverse.lookup "content-disposition").getD []
      let said (name : String) : Option String :=
        (attribute? (bytesOf name) (disposition.length + 1) disposition).bind textOf?
      pure (some ⟨said "name", said "filename", rest⟩)

/-- A part's content and what follows the divider behind it, if the content ends. -/
def content? (boundary : String) (p : Part) : Option (Bytes × Bytes) :=
  cutAt (crlf ++ divider boundary) [] p.rest

structure Upload where
  name : String
  content : ByteArray

inductive Fault where
  | brokenForm
  | brokenFile
  | noFile
  deriving DecidableEq

/-- Goes over the parts behind a divider to the first one with the given name, which has to be a
file. -/
def findFile (boundary name : String) : (fuel : Nat) → Bytes → Except Fault Upload
  | 0, _ => .error .brokenForm
  | fuel + 1, s =>
    match part? s with
    | none => .error .brokenForm
    | some none => .error .noFile
    | some (some p) =>
      if p.name = some name then
        match p.fileName, content? boundary p with
        | none, _ => .error .noFile
        | some _, none => .error .brokenFile
        | some fileName, some (content, _) => .ok ⟨fileName, ⟨content.toArray⟩⟩
      else
        match content? boundary p with
        | some (_, rest) => findFile boundary name fuel rest
        | none => .error .brokenForm

def file (boundary name : String) (body : ByteArray) : Except Fault Upload :=
  match start? boundary body.data.toList with
  | some rest => findFile boundary name (rest.length + 1) rest
  | none => .error .brokenForm

end ProxyConfig.Admin.Multipart
