import ProxyConfig.CommandLine.Run

/-!
The program.  No process is started from here: each command of the proxy is answered as if its
program could not be found.
-/

namespace ProxyConfig

def machine : CommandLine.Host IO where
  read path := do
    match ← (IO.FS.readBinFile path).toBaseIO with
    | .ok content => pure (some content)
    | .error _ => pure none
  write path content := do
    match ← (IO.FS.writeBinFile path content).toBaseIO with
    | .ok _ => pure true
    | .error _ => pure false
  start _ _ _ := pure (.notStarted .noSuchProgram)

end ProxyConfig

def main (args : List String) : IO UInt32 := do
  let exit ← ProxyConfig.CommandLine.run ProxyConfig.machine args
  (← IO.getStdout).putStr exit.output
  pure exit.code.toUInt32
