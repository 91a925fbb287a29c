import ProxyConfig.Text.Cut

/-!
Names and places of certificate files: where the file of a certificate directory is referred to, what
the key beside a certificate is called, and which names a stored file may have.
-/

namespace ProxyConfig.Certificate

def usualDirectory : String := "./certs"

def directoryText (directory : String) : List Char :=
  let slashed := directory.toList.map fun c => if c = '\\' then '/' else c
  (slashed.reverse.dropWhile (· == '/')).reverse

def path (directory file : String) : String :=
  match directoryText directory with
  | [] => file
  | dir => String.ofList dir ++ "/" ++ file

/-- The key file that belongs to a certificate file: what follows the last point is replaced, unless
nothing stands in front of that point. -/
def keyFile (file : String) : String :=
  match Text.cutLast '.' file.toList with
  | some (stem@(_ :: _), _) => String.ofList stem ++ ".key"
  | _ => file ++ ".key"

def hasTwoPoints : List Char → Bool
  | '.' :: '.' :: _ => true
  | _ :: rest => hasTwoPoints rest
  | [] => false

/-- Whether a stored file may have the name: one that cannot lead out of its directory. -/
def validName (name : String) : Bool :=
  name != "" && name != "." && !hasTwoPoints name.toList &&
    name.toList.all fun c => c != '/' && c != '\\' && c != '\x00'

end ProxyConfig.Certificate
