import ProxyConfig.Document.Choice
import ProxyConfig.NumberText

/-!
What a reverse proxy is asked to serve: general settings, the domains with their subdomains, the
handlers bound to them, the access lists, credentials and header rules these refer to by id, and raw
routes below HTTP.  Numbers and times are kept as they were typed.
-/

namespace ProxyConfig

structure General where
  enabled : Bool := false
  rawEnabled : Bool := false
  httpPort : NumberText := .empty
  httpsPort : NumberText := .empty
  logLevel : String := ""
  autoHttps : String := ""
  email : String := ""
  httpVersions : String := ""
  readBodyTimeout : String := ""
  readHeaderTimeout : String := ""
  writeTimeout : String := ""
  idleTimeout : String := ""
  logCredentials : Bool := false
  deriving DecidableEq, Inhabited

structure Domain where
  id : String := ""
  enabled : Bool := false
  host : String := ""
  port : NumberText := .empty
  tlsDisabled : Bool := false
  customCert : String := ""
  accessLog : Bool := false
  accessLists : List String := []
  credentials : List String := []
  clientAuthMode : String := ""
  clientAuthPool : String := ""
  description : String := ""
  deriving DecidableEq, Inhabited

structure Subdomain where
  id : String := ""
  enabled : Bool := false
  domainId : String := ""
  fragment : String := ""
  accessLists : List String := []
  credentials : List String := []
  description : String := ""
  deriving DecidableEq, Inhabited

/-- Addresses that are shut out when `invert` is set, or that alone are let in. -/
structure AccessList where
  id : String := ""
  name : String := ""
  clientIps : List String := []
  invert : Bool := false
  matcher : IpMatcher := .remoteIp
  responseCode : NumberText := .empty
  responseMessage : String := ""
  description : String := ""
  deriving DecidableEq, Inhabited

structure Credential where
  id : String := ""
  username : String := ""
  password : String := ""
  description : String := ""
  deriving DecidableEq, Inhabited

/-- A change to one header field; an empty value deletes the field. -/
structure HeaderRule where
  id : String := ""
  direction : HeaderDirection := .up
  fieldName : String := ""
  value : String := ""
  replace : Bool := false
  description : String := ""
  deriving DecidableEq, Inhabited

structure LoadBalancing where
  policy : String := ""
  retries : NumberText := .empty
  tryDuration : String := ""
  tryInterval : String := ""
  deriving DecidableEq, Inhabited

/-- Checks that the proxy runs against upstreams.  Only address, port and times are rendered; the
thresholds and expectations are kept with the document. -/
structure HealthCheck where
  uri : String := ""
  port : NumberText := .empty
  interval : String := ""
  timeout : String := ""
  passes : NumberText := .empty
  fails : NumberText := .empty
  expectedStatus : String := ""
  expectedBody : String := ""
  followRedirects : Bool := false
  deriving DecidableEq, Inhabited

/-- Health of upstreams as judged from the traffic. -/
structure PassiveHealth where
  failDuration : String := ""
  maxFails : NumberText := .empty
  unhealthyStatus : String := ""
  unhealthyLatency : String := ""
  unhealthyRequestCount : NumberText := .empty
  deriving DecidableEq, Inhabited

/-- What happens to the requests of a path.  A handler is bound to a subdomain if it names one, else
to the domain it names. -/
structure Handler where
  id : String := ""
  enabled : Bool := false
  domainId : String := ""
  subdomainId : String := ""
  pathMatch : PathMatch := .keep
  path : String := ""
  accessLists : List String := []
  credentials : List String := []
  headers : List String := []
  action : Action := .proxy
  upstreams : List String := []
  upstreamPort : NumberText := .empty
  tls : Bool := false
  tlsInsecure : Bool := false
  tlsServerName : String := ""
  tlsTrustedCas : String := ""
  httpVersions : String := ""
  keepalive : String := ""
  ntlm : Bool := false
  redirectStatus : NumberText := .empty
  balancing : LoadBalancing := {}
  health : HealthCheck := {}
  passiveHealth : PassiveHealth := {}
  description : String := ""
  deriving DecidableEq, Inhabited

structure RawRoute where
  id : String := ""
  enabled : Bool := false
  sequence : String := ""
  kind : String := ""
  protocol : Protocol := .tcp
  matchDomains : List String := []
  fromPort : NumberText := .empty
  matcher : String := ""
  upstreams : List String := []
  upstreamPort : NumberText := .empty
  terminateTls : Bool := false
  proxyProtocol : String := ""
  policy : String := ""
  failDuration : String := ""
  maxFails : NumberText := .empty
  upstreamTls : UpstreamTls := .off
  description : String := ""
  deriving DecidableEq, Inhabited

structure Document where
  general : General := {}
  domains : List Domain := []
  subdomains : List Subdomain := []
  handlers : List Handler := []
  accessLists : List AccessList := []
  credentials : List Credential := []
  headers : List HeaderRule := []
  rawRoutes : List RawRoute := []
  deriving DecidableEq, Inhabited

namespace Document

def initial : Document :=
  { general := { httpPort := .ofNat 80, httpsPort := .ofNat 443 } }

end Document

namespace Domain

def serving (id host : String) : Domain := { id, enabled := true, host }

end Domain

namespace Subdomain

def serving (id domainId fragment : String) : Subdomain :=
  { id, enabled := true, domainId, fragment }

end Subdomain

namespace Handler

def proxying (id domainId : String) (upstreams : List String) (port : NumberText) : Handler :=
  { id, enabled := true, domainId, upstreams, upstreamPort := port }

def redirecting (id domainId target : String) : Handler :=
  { id, enabled := true, domainId, action := .redirect, upstreams := [target] }

end Handler

namespace RawRoute

def forwarding (id : String) (fromPort : NumberText) (upstreams : List String)
    (port : NumberText) : RawRoute :=
  { id, enabled := true, fromPort, upstreams, upstreamPort := port }

end RawRoute

end ProxyConfig
