import ProxyConfig.Path

/-!
Where the files of a data directory are.
-/

namespace ProxyConfig.Store

structure Paths where
  document : String
  caddyfile : String
  certsDir : String
  deriving DecidableEq

def Paths.of (directory : String) : Paths where
  document := Path.join directory "config.json"
  caddyfile := Path.join directory "Caddyfile"
  certsDir := Path.join directory "certs"

end ProxyConfig.Store
