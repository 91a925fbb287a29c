/-!
What the proxy's program can be told to do, and the arguments that tell it.  Main statement: a
command's name reads back.
-/

namespace ProxyConfig.Proxy

inductive Command where
  | validate
  | start
  | stop
  | reload
  deriving DecidableEq, Repr, Inhabited

namespace Command

def toText : Command → String
  | validate => "validate"
  | start => "start"
  | stop => "stop"
  | reload => "reload"

def ofText? (s : String) : Option Command :=
  [validate, start, stop, reload].find? fun c => c.toText = s

/-- Whether the command is told where the configuration is. -/
def takesConfig : Command → Bool
  | stop => false
  | _ => true

/-- The arguments of the program, for a configuration at the given path. -/
def args (caddyfile : String) (c : Command) : List String :=
  c.toText :: if c.takesConfig then ["--config", caddyfile] else []

@[simp] theorem ofText?_toText (c : Command) : ofText? c.toText = some c := by
  cases c <;> rfl

end Command

end ProxyConfig.Proxy
