import ProxyConfig.Text.Cut

/-!
Media types, as in `multipart/form-data; boundary=x`: two names and parameters.  Names are compared
without regard to case.
-/

namespace ProxyConfig.Admin

/-- A media type with the parameters' values as they were written. -/
structure MediaType where
  kind : String
  subtype : String
  suffix : Option String
  parameters : List (String × String)
  deriving DecidableEq

namespace MediaType

def isTokenChar (c : Char) : Bool :=
  c.isAlphanum || "!#$%&'*+-.^_|~".toList.contains c || c = '\x60'

def lowered (s : List Char) : String := String.ofList (s.map Char.toLower)

/-- The value between quotes at the beginning; its first character may be any, and there is no way to
write a quote behind it. -/
def quotedValue? : List Char → Option (List Char × List Char)
  | [] => none
  | c :: rest =>
    let (inner, rest) := rest.span (· != '"')
    match rest with
    | _ :: rest =>
      if (c :: inner).all fun d => ' ' ≤ d && d != '\x7f' then some (c :: inner, rest) else none
    | [] => none

/-- Reads parameters up to the end, from behind the separator in front of them. -/
def parameters? : (fuel : Nat) → List Char → Option (List (String × String))
  | 0, _ => none
  | fuel + 1, s => do
    let s := s.dropWhile (· = ' ')
    if s.isEmpty then pure []
    else
      let (name, rest) := s.span isTokenChar
      match name, rest with
      | _ :: _, '=' :: '"' :: rest =>
        let (value, rest) ← quotedValue? rest
        match rest.dropWhile (· = ' ') with
        | [] => pure [(lowered name, String.ofList value)]
        | ';' :: rest => pure ((lowered name, String.ofList value) :: (← parameters? fuel rest))
        | _ => none
      | _ :: _, '=' :: rest =>
        let (value, rest) := rest.span isTokenChar
        match rest with
        | [] => pure [(lowered name, String.ofList value)]
        | ';' :: rest =>
          if value.isEmpty then none
          else pure ((lowered name, String.ofList value) :: (← parameters? fuel rest))
        | _ => none
      | _, _ => none

def ofText? (s : String) : Option MediaType := do
  let (kind, rest) := s.toList.span isTokenChar
  match kind, rest with
  | _ :: _, '/' :: rest =>
    let (name, rest) := rest.span isTokenChar
    let (subtype, suffix) := match name with
      | c :: more =>
        match Text.cutLast '+' more with
        | some (before, after) => (c :: before, some (lowered after))
        | none => (name, none)
      | [] => (name, none)
    let parameters ← match rest with
      | [] => pure []
      | c :: rest =>
        if (c = ';' || c = ' ') && !name.isEmpty then parameters? (rest.length + 1) rest else none
    pure ⟨lowered kind, lowered subtype, suffix, parameters⟩
  | _, _ => none

def isJson (m : MediaType) : Bool :=
  m.kind = "application" && (m.subtype = "json" || m.suffix = some "json")

def boundary? (m : MediaType) : Option String :=
  if m.kind = "multipart" && m.subtype = "form-data" then m.parameters.lookup "boundary" else none

end MediaType

end ProxyConfig.Admin
