import ProxyConfig.NumberText

/-!
Arguments of directives as they come out of a document's texts: texts that say something, times,
quoted texts, and addresses of upstreams.  Main statements: what a text says is the text
without the blanks around it, a time is absent only when the text is blank, and quoting leaves a text
that is one token as it is.
-/

namespace ProxyConfig.Caddyfile

/-- What a text says without the blanks around it, if it says anything. -/
def present? (s : String) : Option String :=
  let t := Text.trim s
  if t.isEmpty then none else some t

def isAsciiDigit (c : Char) : Bool := '0' ≤ c && c ≤ '9'

/-- A time as an argument; a bare whole number counts seconds. -/
def duration? (s : String) : Option String :=
  (present? s).map fun t => if t.toList.all isAsciiDigit then t ++ "s" else t

def needsQuotes (s : List Char) : Bool := s.isEmpty || s.any fun c => Text.isBlank c || c == '"'

def quotedChar : Char → List Char
  | '\\' => ['\\', '\\']
  | '"' => ['\\', '"']
  | c => [c]

/-- A text as one argument: between quotes where it has to be. -/
def quoteArg (s : String) : String :=
  if needsQuotes s.toList then
    String.ofList ('"' :: s.toList.flatMap quotedChar ++ ['"'])
  else s

/-- The address of an upstream: host and port, or the host alone where no usable port is given. -/
def upstreamAddress (host : String) (port : NumberText) : String :=
  match port.port? with
  | some p => host ++ ":" ++ toString p
  | none => host

def upstreamList (hosts : List String) (port : NumberText) : List String :=
  (hosts.filterMap present?).map fun host => upstreamAddress host port

theorem present?_eq_some_iff {s t : String} :
    present? s = some t ↔ Text.trim s ≠ "" ∧ Text.trim s = t := by
  simp [present?]

theorem duration?_eq_none_iff (s : String) : duration? s = none ↔ present? s = none := by
  simp [duration?]

theorem quoteArg_eq_self {s : String} (h : needsQuotes s.toList = false) : quoteArg s = s := by
  simp [quoteArg, h]

end ProxyConfig.Caddyfile
