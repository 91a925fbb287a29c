import ProxyConfig.Caddyfile.Compile
import ProxyConfig.CommandLine.Invocation
import ProxyConfig.Lint.Checks
import ProxyConfig.Proxy.Program
import ProxyConfig.Store.Basic

/-!
Running the program: what it does with files and the proxy goes through a `Host`, so that it can be
run on a tree of files as well as on a machine.  The result is what is written to the output, and the
exit code: 0 for success, 1 for a failure, 2 for arguments that make no sense.
-/

namespace ProxyConfig.CommandLine

structure Host (m : Type → Type) where
  read : String → m (Option ByteArray)
  /-- Whether the file could be written. -/
  write : String → ByteArray → m Bool
  start : (program : String) → (args : List String) → (timeout : Duration) → m Proxy.Response

structure Exit where
  code : Nat
  output : String := ""
  deriving DecidableEq

def Exit.success : Exit := ⟨0, ""⟩

def Exit.failure : Exit := ⟨1, ""⟩

def versionText : String := "caddygen 0.1.0\n"

def usageText : String :=
  "Usage: caddygen [OPTIONS] <compile|check|watch|serve|caddy> [ARGUMENTS]\n"

def Stop.exit : Stop → Exit
  | misuse => ⟨2, ""⟩
  | help => ⟨0, usageText⟩
  | version => ⟨0, versionText⟩

section

variable {m : Type → Type} [Monad m] (host : Host m)

def loadDocument (path : String) : m (Option Document) := do
  let content ← host.read path
  pure do (Document.ofText (.ofPath path) (← Text.strict (← content))).toOption

def compileInto (certsDir config output : String) : m Exit := do
  match ← loadDocument host config with
  | none => pure .failure
  | some doc =>
    let written ← host.write output (Caddyfile.compile certsDir doc).text.toUTF8
    pure (if written then .success else .failure)

def runControl (command : Proxy.Command) (caddyfile : String) (options : ProxyOptions) : m Exit := do
  let args := command.args caddyfile
  let response ← match Proxy.startFault? args with
    | some fault => pure (.notStarted fault)
    | none => host.start options.program args options.timeout
  match response.outcome command options.timeout.seconds with
  | .ok output => pure ⟨if output.succeeded then 0 else 1, output.output⟩
  | .error _ => pure .failure

/-- Does what is asked.  Following later changes of a watched document and listening for requests are
left to whoever embeds the library: a watch ends behind the first compilation, and to serve fails for
want of a listener. -/
def Invocation.run (x : Invocation) : m Exit := do
  let certsDir := x.certsDir.getD Certificate.usualDirectory
  match x.task with
  | .compile config none =>
    match ← loadDocument host config with
    | none => pure .failure
    | some doc => pure ⟨0, (Caddyfile.compile certsDir doc).text⟩
  | .compile config (some output) => compileInto host certsDir config output
  | .check config strict =>
    match ← loadDocument host config with
    | none => pure .failure
    | some doc =>
      let findings := doc.lint
      pure ⟨if strict && !findings.isEmpty then 1 else 0,
        String.join (findings.map fun f => f.message ++ "\n")⟩
  | .watch config output => compileInto host certsDir config output
  | .serve _ _ _ => pure .failure
  | .control command caddyfile options => runControl host command caddyfile options

def run (args : List String) : m Exit :=
  match Invocation.ofArguments args with
  | .ok x => x.run host
  | .error stop => pure stop.exit

end

end ProxyConfig.CommandLine
