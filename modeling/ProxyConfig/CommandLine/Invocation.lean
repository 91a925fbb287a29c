import ProxyConfig.Address
import ProxyConfig.CommandLine.Options
import ProxyConfig.Duration
import ProxyConfig.Proxy.Command

/-!
What the program is asked to do: one of five commands with its options.
-/

namespace ProxyConfig.CommandLine

structure ProxyOptions where
  program : String
  timeout : Duration
  deriving DecidableEq

inductive Task where
  /-- Compile a document, into a file or to the output. -/
  | compile (config : String) (output : Option String)
  /-- Show the findings about a document; when strict, any of them is a failure. -/
  | check (config : String) (strict : Bool)
  /-- Compile a document into a file, again whenever it changes. -/
  | watch (config output : String)
  /-- Serve the administration interface. -/
  | serve (listen dataDir : String) (proxy : ProxyOptions)
  /-- Run one command of the proxy. -/
  | control (command : Proxy.Command) (caddyfile : String) (proxy : ProxyOptions)
  deriving DecidableEq

structure Invocation where
  certsDir : Option String
  task : Task
  deriving DecidableEq

def isPath (s : String) : Bool := s ≠ ""

def isDuration (s : String) : Bool := (Duration.ofText? s.toList).isSome

def sharedOptions : List OptionSpec :=
  [{ name := "log-format", accepts := some fun s => s = "json" || s = "pretty" },
   { name := "certs-dir", accepts := some fun _ => true }]

def configOption : OptionSpec := { name := "config", letter := some 'c', accepts := some isPath }

def outputOption : OptionSpec := { name := "output", letter := some 'o', accepts := some isPath }

def proxyOptions : List OptionSpec :=
  [{ name := "caddy-bin", accepts := some isPath },
   { name := "caddy-timeout", accepts := some isDuration }]

def compileSpec : Spec := { options := sharedOptions ++ [configOption, outputOption] }

def checkSpec : Spec := { options := sharedOptions ++ [configOption, { name := "strict" }] }

def serveSpec : Spec where
  options := sharedOptions ++
    [{ name := "listen", accepts := some fun s => Address.isEndpoint s.toList },
     { name := "data-dir", accepts := some isPath }] ++ proxyOptions

def controlSpec : Spec where
  options := sharedOptions ++ [{ name := "caddyfile", accepts := some isPath }] ++ proxyOptions
  lone := some fun s => (Proxy.Command.ofText? s).isSome

def spec : Spec where
  options := sharedOptions
  subcommands := ["compile", "check", "watch", "serve", "caddy", "help"]
  hasVersion := true

def required (a : Arguments) (name : String) : Except Stop String :=
  match a.value? name with
  | some s => .ok s
  | none => .error .misuse

def ProxyOptions.of (a : Arguments) : ProxyOptions where
  program := (a.value? "caddy-bin").getD "caddy"
  timeout := ((a.value? "caddy-timeout").bind fun s => Duration.ofText? s.toList).getD ⟨30, 0⟩

def readTask (name : String) (args : List String) : Except Stop (Arguments × Task) := do
  match name with
  | "compile" =>
    let (a, _) ← compileSpec.read args
    pure (a, .compile (← required a "config") (a.value? "output"))
  | "check" =>
    let (a, _) ← checkSpec.read args
    pure (a, .check (← required a "config") (a.has "strict"))
  | "watch" =>
    let (a, _) ← compileSpec.read args
    pure (a, .watch (← required a "config") (← required a "output"))
  | "serve" =>
    let (a, _) ← serveSpec.read args
    pure (a, .serve ((a.value? "listen").getD "127.0.0.1:8090") ((a.value? "data-dir").getD ".") (.of a))
  | "caddy" =>
    let (a, _) ← controlSpec.read args
    match a.lone.bind Proxy.Command.ofText? with
    | some c => pure (a, .control c ((a.value? "caddyfile").getD "Caddyfile") (.of a))
    | none => throw .misuse
  | _ =>
    match args with
    | [] => throw .help
    | [name] => throw (if spec.subcommands.contains name then .help else .misuse)
    | _ => throw .misuse

/-- Reads the program's arguments; a shared option of the subcommand counts before one in front of
it. -/
def Invocation.ofArguments (args : List String) : Except Stop Invocation := do
  match ← spec.read args with
  | (_, none) => throw .misuse
  | (outer, some (name, rest)) =>
    let (inner, task) ← readTask name rest
    pure ⟨(inner.value? "certs-dir").or (outer.value? "certs-dir"), task⟩

end ProxyConfig.CommandLine
