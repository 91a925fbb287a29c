import ProxyConfig.Json.Value
import ProxyConfig.Proxy.Command
import ProxyConfig.Text.Pieces

/-!
Running the proxy's program for a command: what the program did, and what is told about it.  A
program is any function from arguments to a response.  Main statement: a run counts as successful
exactly when the program ended with exit code zero.
-/

namespace ProxyConfig.Proxy

/-- How a program ended. -/
inductive Ending where
  | exit (code : Nat)
  | signal (number : Nat)
  deriving DecidableEq, Repr

def signalNames : List String :=
  ["SIGHUP", "SIGINT", "SIGQUIT", "SIGILL", "SIGTRAP", "SIGABRT", "SIGBUS", "SIGFPE", "SIGKILL",
   "SIGUSR1", "SIGSEGV", "SIGUSR2", "SIGPIPE", "SIGALRM", "SIGTERM", "SIGSTKFLT", "SIGCHLD",
   "SIGCONT", "SIGSTOP", "SIGTSTP", "SIGTTIN", "SIGTTOU", "SIGURG", "SIGXCPU", "SIGXFSZ",
   "SIGVTALRM", "SIGPROF", "SIGWINCH", "SIGIO", "SIGPWR", "SIGSYS"]

namespace Ending

def succeeded (e : Ending) : Bool := e = .exit 0

def text : Ending → String
  | exit code => "exit status: " ++ toString code
  | signal n =>
    let name := match n with
      | 0 => none
      | n + 1 => signalNames[n]?
    "signal: " ++ toString n ++ match name with
      | some name => " (" ++ name ++ ")"
      | none => ""

end Ending

inductive StartFault where
  | noSuchProgram
  | zeroInArgument
  deriving DecidableEq, Repr

def StartFault.message : StartFault → String
  | noSuchProgram => "No such file or directory (os error 2)"
  | zeroInArgument => "nul byte found in provided data"

/-- What comes of starting a program. -/
inductive Response where
  | finished (stdout stderr : ByteArray) (ending : Ending)
  | tooSlow
  | notStarted (fault : StartFault)

abbrev Program := (args : List String) → Response

/-- What is told about a command that was run; there is no error when it succeeded. -/
structure Output where
  output : String
  error : String := ""
  deriving DecidableEq

namespace Output

def succeeded (o : Output) : Bool := o.error = ""

def toJson (o : Output) : Json.Value :=
  .mapping <| ("output", .text o.output) ::
    if o.error = "" then [] else [("error", .text o.error)]

end Output

inductive ControlError where
  | notStarted (fault : StartFault)
  | timeout (command : Command) (seconds : Nat)
  | unknownCommand (name : String)
  deriving DecidableEq, Repr

def ControlError.message : ControlError → String
  | notStarted fault => "Failed to run proxy command: " ++ fault.message
  | timeout command seconds =>
    "Proxy command '" ++ command.toText ++ "' timed out after " ++ toString seconds ++ "s"
  | unknownCommand name => "Unknown proxy command: " ++ name

def commandNamed (name : String) : Except ControlError Command :=
  match Command.ofText? name with
  | some c => .ok c
  | none => .error (.unknownCommand name)

structure Runner where
  program : Program
  caddyfile : String := "Caddyfile"
  timeoutSeconds : Nat := 30

/-- What keeps a program from being started with some arguments: none may hold a zero character. -/
def startFault? (args : List String) : Option StartFault :=
  if args.any ('\x00' ∈ ·.toList) then some .zeroInArgument else none

/-- What is told about a command: what the program wrote, to its output first and to its error output
then. -/
def Response.outcome (c : Command) (timeoutSeconds : Nat) : Response → Except ControlError Output
  | .notStarted fault => .error (.notStarted fault)
  | .tooSlow => .error (.timeout c timeoutSeconds)
  | .finished stdout stderr ending =>
    .ok ⟨Text.lossy stdout ++ Text.lossy stderr, if ending.succeeded then "" else ending.text⟩

def Runner.respond (r : Runner) (c : Command) : Response :=
  let args := c.args r.caddyfile
  match startFault? args with
  | some fault => .notStarted fault
  | none => r.program args

def Runner.run (r : Runner) (c : Command) : Except ControlError Output :=
  (r.respond c).outcome c r.timeoutSeconds

def isSuccess : Except ControlError Output → Bool
  | .ok o => o.succeeded
  | .error _ => false

theorem Ending.text_ne_empty (e : Ending) : e.text ≠ "" := by
  intro h
  have hl := congrArg String.length h
  cases e <;> simp [Ending.text, String.length_append] at hl

theorem ControlError.message_ne_empty (e : ControlError) : e.message ≠ "" := by
  -- each message begins or ends with words of its own
  intro h
  cases e with
  | notStarted fault => exact absurd (String.append_eq_empty_iff.1 h).1 (by decide)
  | timeout c seconds => exact absurd (String.append_eq_empty_iff.1 h).2 (by decide)
  | unknownCommand name => exact absurd (String.append_eq_empty_iff.1 h).1 (by decide)

theorem isSuccess_outcome (c : Command) (seconds : Nat) (r : Response) :
    isSuccess (r.outcome c seconds) = true ↔
      ∃ stdout stderr, r = .finished stdout stderr (.exit 0) := by
  cases r with
  | finished stdout stderr ending =>
    by_cases h : ending = .exit 0
    · simp [Response.outcome, isSuccess, Output.succeeded, Ending.succeeded, h]
    · simp [Response.outcome, isSuccess, Output.succeeded, Ending.succeeded, h, ending.text_ne_empty]
  | _ => simp [Response.outcome, isSuccess]

end ProxyConfig.Proxy
