import ProxyConfig.Text.Cut

/-!
Reading the arguments of a command: options by name or by letter, with or without a value, at most one
argument that is no option, and subcommands.  Arguments are read from left to right, and the first
that is wrong ends the reading, as does one that asks for help or for the version.
-/

namespace ProxyConfig.CommandLine

inductive Stop where
  | misuse
  | help
  | version
  deriving DecidableEq, Repr

structure OptionSpec where
  name : String
  letter : Option Char := none
  accepts : Option (String → Bool) := none

/-- What the arguments of a command may be.  `lone` says what the argument that is no option may be,
if there may be one. -/
structure Spec where
  options : List OptionSpec
  lone : Option (String → Bool) := none
  subcommands : List String := []
  hasVersion : Bool := false

structure Arguments where
  values : List (String × String) := []
  lone : Option String := none

namespace Arguments

def has (a : Arguments) (name : String) : Bool := a.values.any (·.1 = name)

def value? (a : Arguments) (name : String) : Option String := a.values.lookup name

def add (a : Arguments) (o : OptionSpec) (value : String) : Except Stop Arguments :=
  if a.has o.name || !o.accepts.all (· value) then .error .misuse
  else .ok { a with values := a.values ++ [(o.name, value)] }

end Arguments

/-- Whether an argument is a value and no option; a lone hyphen is. -/
def isValue (s : String) : Bool := s = "-" || !s.startsWith "-"

def takeOption (o : OptionSpec) (given : Option String) (rest : List String) (a : Arguments) :
    Except Stop (Arguments × List String) :=
  match o.accepts, given, rest with
  | none, none, _ => do pure (← a.add o "", rest)
  | none, some _, _ => .error .misuse
  | some _, some value, _ => do pure (← a.add o value, rest)
  | some _, none, value :: rest =>
    if isValue value then do pure (← a.add o value, rest) else .error .misuse
  | some _, none, [] => .error .misuse

def takeNamed (spec : Spec) (s : List Char) (rest : List String) (a : Arguments) :
    Except Stop (Arguments × List String) :=
  let (name, value) := match Text.cutFirst '=' s with
    | some (name, value) => (String.ofList name, some (String.ofList value))
    | none => (String.ofList s, none)
  match spec.options.find? (·.name = name) with
  | some o => takeOption o value rest a
  | none =>
    if name = "help" && value.isNone then .error .help
    else if name = "version" && value.isNone && spec.hasVersion then .error .version
    else .error .misuse

/-- Reads options that are given by their letters; behind a letter that takes a value stands the
value. -/
def takeLetters (spec : Spec) : List Char → List String → Arguments →
    Except Stop (Arguments × List String)
  | [], rest, a => .ok (a, rest)
  | c :: more, rest, a =>
    match spec.options.find? (·.letter = some c) with
    | some o =>
      if o.accepts.isNone then do takeLetters spec more rest (← a.add o "")
      else
        let value := match more with
          | [] => none
          | '=' :: value => some (String.ofList value)
          | value => some (String.ofList value)
        takeOption o value rest a
    | none =>
      if c = 'h' then .error .help
      else if c = 'V' && spec.hasVersion then .error .version
      else .error .misuse

def takeLone (spec : Spec) (s : String) (a : Arguments) : Except Stop Arguments :=
  match spec.lone, a.lone with
  | some accepts, none => if accepts s then .ok { a with lone := some s } else .error .misuse
  | _, _ => .error .misuse

/-- Reads arguments up to the end or to a subcommand, whose own arguments are given back.  Behind two
hyphens there are no options. -/
def readArguments (spec : Spec) (optionsEnded : Bool) :
    (fuel : Nat) → List String → Arguments →
      Except Stop (Arguments × Option (String × List String))
  | 0, _, _ => .error .misuse
  | _ + 1, [], a => .ok (a, none)
  | fuel + 1, s :: rest, a =>
    if optionsEnded then do readArguments spec true fuel rest (← takeLone spec s a)
    else if spec.subcommands.contains s then .ok (a, some (s, rest))
    else if s = "--" then readArguments spec true fuel rest a
    else if isValue s then do readArguments spec false fuel rest (← takeLone spec s a)
    else do
      let (a, rest) ← match s.toList with
        | '-' :: '-' :: name => takeNamed spec name rest a
        | _ :: letters => takeLetters spec letters rest a
        | [] => .error .misuse
      readArguments spec false fuel rest a

def Spec.read (spec : Spec) (args : List String) :
    Except Stop (Arguments × Option (String × List String)) :=
  readArguments spec false (args.length + 1) args {}

end ProxyConfig.CommandLine
