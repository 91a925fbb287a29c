import ProxyConfig.Json.Value
import ProxyConfig.Text.Cut

/-!
Requests to the administration interface and its replies.
-/

namespace ProxyConfig.Admin

structure Request where
  method : String
  /-- The path, with the query if there is one. -/
  target : String
  headers : List (String × String) := []
  body : ByteArray := .empty

namespace Request

/-- The target as far as the server sees it: a fragment is cut off. -/
def targetText (r : Request) : List Char := r.target.toList.takeWhile (· != '#')

def path (r : Request) : String := String.ofList (r.targetText.takeWhile (· != '?'))

def query (r : Request) : String :=
  String.ofList ((r.targetText.dropWhile (· != '?')).drop 1)

def isPlain (value : String) : Bool :=
  value.toList.all fun c => c = '\t' || (' ' ≤ c && c ≤ '~')

def header? (r : Request) (name : String) : Option String :=
  ((r.headers.find? fun h => Text.sameLetters h.1 name).map (·.2)).filter isPlain

end Request

structure Response where
  status : Nat
  contentType : Option String
  body : String
  deriving DecidableEq

namespace Response

def empty (status : Nat) : Response := ⟨status, none, ""⟩

def text (status : Nat) (body : String) : Response :=
  ⟨status, some "text/plain; charset=utf-8", body⟩

def json (v : Json.Value) : Response := ⟨200, some "application/json", v.compact⟩

def badRequest (message : String) : Response := text 400 message

def failure (message : String) : Response := text 500 message

end Response

end ProxyConfig.Admin
