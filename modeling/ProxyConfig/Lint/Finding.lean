import ProxyConfig.Text.Cut

/-!
What is worth telling about a document: findings, where they are, and their wording.
-/

namespace ProxyConfig

/-- The collections of a document, in the order in which they are gone over. -/
inductive Collection where
  | domains
  | subdomains
  | handlers
  | accessLists
  | credentials
  | headers
  | rawRoutes
  deriving DecidableEq, Repr

def Collection.text : Collection → String
  | domains => "domains"
  | subdomains => "subdomains"
  | handlers => "handlers"
  | accessLists => "accessLists"
  | credentials => "basicAuths"
  | headers => "headers"
  | rawRoutes => "layer4"

inductive Owner where
  | general
  | domain (id : String)
  | subdomain (id : String)
  | handler (id : String)
  | accessList (id : String)
  | rawRoute (id : String)
  deriving DecidableEq, Repr

def Owner.text : Owner → String
  | general => "general"
  | domain id => "domain '" ++ id ++ "'"
  | subdomain id => "subdomain '" ++ id ++ "'"
  | handler id => "handler '" ++ id ++ "'"
  | accessList id => "access list '" ++ id ++ "'"
  | rawRoute id => "layer4 route '" ++ id ++ "'"

inductive Target where
  | domain
  | subdomain
  | accessList
  | credential
  | header
  deriving DecidableEq, Repr

def Target.text : Target → String
  | domain => "domain"
  | subdomain => "subdomain"
  | accessList => "access list"
  | credential => "credential"
  | header => "header"

inductive FieldProblem where
  | emptyFragment
  | notACount (text : String)
  | noUpstream
  | unusedTargets (count : Nat)
  | unknownVersion (text : String)
  deriving DecidableEq, Repr

def FieldProblem.message : FieldProblem → String
  | emptyFragment => "Subdomain name cannot be empty"
  | notACount text => "'" ++ text ++ "' is not a non-negative integer"
  | noUpstream => "Proxy handlers need at least one upstream"
  | unusedTargets count => "Redirects use only the first of " ++ toString count ++ " targets"
  | unknownVersion text => "'" ++ text ++ "' is not one of v1, v2"

structure Spot where
  owner : Owner
  name : String
  deriving DecidableEq, Repr

def Spot.text (s : Spot) : String := s.owner.text ++ " " ++ s.name

inductive Finding where
  | duplicateId (collection : Collection) (id : String)
  | danglingReference (owner : Owner) (target : Target) (id : String)
  | unattachedHandler (id : String)
  | invalidPort (spot : Spot) (value : String)
  | invalidDuration (spot : Spot) (value : String)
  | invalidAddress (spot : Spot) (value : String)
  | invalidHost (spot : Spot) (value : String)
  | invalidField (spot : Spot) (problem : FieldProblem)
  deriving DecidableEq, Repr

namespace Finding

def message : Finding → String
  | duplicateId collection id =>
    "Duplicate id '" ++ id ++ "' in " ++ collection.text ++ "; the last entry wins"
  | danglingReference owner target id =>
    owner.text ++ " references unknown " ++ target.text ++ " '" ++ id ++ "'"
  | unattachedHandler id =>
    "Handler '" ++ id ++ "' is attached to neither a domain nor a subdomain"
  | invalidPort spot value =>
    "Invalid port in " ++ spot.text ++ ": '" ++ value ++ "' (expected 1-65535)"
  | invalidDuration spot value => "Invalid duration in " ++ spot.text ++ ": '" ++ value ++ "'"
  | invalidAddress spot value =>
    "Invalid IP address or CIDR in " ++ spot.text ++ ": '" ++ value ++ "'"
  | invalidHost spot value => "Invalid host name in " ++ spot.text ++ ": '" ++ value ++ "'"
  | invalidField spot problem => "Invalid field '" ++ spot.text ++ "': " ++ problem.message

def numbered (fs : List Finding) : String :=
  String.join <| fs.mapIdx fun i f => "  " ++ toString (i + 1) ++ ". " ++ f.message ++ "\n"

def summary? (fs : List Finding) : Option String :=
  if fs.isEmpty then none
  else some <| "Configuration validation failed: Found " ++ toString fs.length ++
    " validation error(s):\n" ++ numbered fs

end Finding

end ProxyConfig
