import ProxyConfig.Caddyfile.Argument
import ProxyConfig.Caddyfile.Directive
import ProxyConfig.Lookup
import ProxyConfig.Site

/-!
The block of a site: TLS, access log, access control, basic authentication, then the handlers that
are bound to it.  References that lead nowhere, lists without an address and handlers without an
upstream leave out what they ask for and nothing else.
-/

namespace ProxyConfig.Caddyfile

/-- What the names of matchers begin with, in a site's block and in a handler's. -/
def siteMatchers : String := "@al_"

def handlerMatchers : String := "@al_h_"

/-- How a request is turned away: by an answer if the list has a status for it, else without one. -/
def rejection (list : AccessList) : Directive :=
  match (list.responseCode.bits? 16).filter (0 < ·) with
  | none => { name := "abort" }
  | some code =>
    let message := ((present? list.responseMessage).map quoteArg).toList
    { name := "respond", args := message ++ [toString code] }

def addresses (list : AccessList) : List String := list.clientIps.filterMap present?

/-- The rule of one list: a named matcher, and what happens to the requests that it holds for, or
that it does not hold for if the list lets in. -/
def accessRule (names : String) (list : AccessList) : List Directive :=
  match addresses list with
  | [] => []
  | ips =>
    let matcher := names ++ list.id
    let reject := rejection list
    [{ name := matcher, block := some [{ name := list.matcher.toText, args := ips }] },
      if list.invert then reject.arg matcher else (reject.arg "not").arg matcher]

def accessControl (doc : Document) (names : String) (ids : List String) : List Directive :=
  (ids.filterMap doc.accessList?).flatMap (accessRule names)

def credentialBlock (c : Credential) : Directive :=
  { name := "basicauth", block := some [{ name := c.username, args := [c.password] }] }

def basicAuth (doc : Document) (ids : List String) : List Directive :=
  (ids.filterMap doc.credential?).map credentialBlock

def headerChange (name : String) (rule : HeaderRule) : Directive :=
  let fieldName := Text.trim rule.fieldName
  if rule.value.isEmpty then { name, args := ["-" ++ fieldName] }
  else { name, args := [fieldName, quoteArg rule.value] }

def optional (name : String) (a : Option String) : List Directive :=
  a.toList.map fun a => { name, args := [a] }

def optionalWords (name : String) (s : String) : List Directive :=
  (present? s).toList.map fun t => { name, args := Text.words t }

def bare (name : String) (wanted : Bool) : List Directive := if wanted then [{ name }] else []

def transport (certsDir : String) (h : Handler) : List Directive :=
  let verification := bare "tls" h.tls ++ bare "tls_insecure_skip_verify" (h.tls && h.tlsInsecure)
  if h.ntlm then
    [{ name := "transport", args := ["http_ntlm"], block := some verification }]
  else
    let names := if h.tls then
        optional "tls_server_name" (present? h.tlsServerName) ++
          optional "tls_trusted_ca_certs" ((present? h.tlsTrustedCas).map (Certificate.path certsDir))
      else []
    let options := verification ++ names ++ optionalWords "versions" h.httpVersions ++
      optional "keepalive" (present? h.keepalive)
    if options.isEmpty then []
    else [{ name := "transport", args := ["http"], block := some options }]

def balancing (b : LoadBalancing) : List Directive :=
  optionalWords "lb_policy" b.policy ++ optional "lb_retries" (b.retries.positive?.map toString) ++
    optional "lb_try_duration" (duration? b.tryDuration) ++
    optional "lb_try_interval" (duration? b.tryInterval)

def healthChecks (h : HealthCheck) : List Directive :=
  optional "health_uri" (present? h.uri) ++ optional "health_port" (h.port.port?.map toString) ++
    optional "health_interval" (duration? h.interval) ++
    optional "health_timeout" (duration? h.timeout)

def passiveHealth (p : PassiveHealth) : List Directive :=
  optional "fail_duration" (duration? p.failDuration) ++
    optional "max_fails" (p.maxFails.positive?.map toString) ++
    optionalWords "unhealthy_status" p.unhealthyStatus ++
    optional "unhealthy_latency" (duration? p.unhealthyLatency) ++
    optional "unhealthy_request_count" (p.unhealthyRequestCount.positive?.map toString)

def reverseProxy (certsDir : String) (h : Handler) (headers : List HeaderRule) : List Directive :=
  match upstreamList h.upstreams h.upstreamPort with
  | [] => []
  | upstreams =>
    [{ name := "reverse_proxy", args := upstreams, block := some (
        headers.map (fun rule => headerChange rule.direction.toText rule) ++
        transport certsDir h ++ balancing h.balancing ++ healthChecks h.health ++
        passiveHealth h.passiveHealth) }]

def redirect (h : Handler) : List Directive :=
  (h.upstreams.findSome? present?).toList.map fun target =>
    { name := "redir", args := target :: ((h.redirectStatus.bits? 16).map toString).toList }

def actionClauses (certsDir : String) (h : Handler) (headers : List HeaderRule) : List Directive :=
  match h.action with
  | .proxy => reverseProxy certsDir h headers
  | .redirect => headers.map (headerChange "header") ++ redirect h
  | .other _ => headers.map (headerChange "header")

def handlerBlock (certsDir : String) (doc : Document) (h : Handler) : Directive where
  name := h.pathMatch.toText
  args := ((present? h.path).map fun path =>
    match h.pathMatch with
    | .keep => path
    | .strip => path ++ "/*").toList
  block := some (
    accessControl doc handlerMatchers h.accessLists ++ basicAuth doc h.credentials ++
    actionClauses certsDir h (h.headers.filterMap doc.header?))

def attaches (h : Handler) (site : Site) : Bool :=
  h.enabled &&
    if h.subdomainId.isEmpty then !h.domainId.isEmpty && h.domainId = site.domain.id
    else site.serves h.subdomainId

def clientAuth (certsDir : String) (d : Domain) : Option (List Directive) :=
  (present? d.clientAuthMode).map fun mode =>
    [{ name := "client_auth", block := some ({ name := "mode", args := [mode] } ::
        optional "trusted_ca_cert" ((present? d.clientAuthPool).map (Certificate.path certsDir))) }]

def tlsClause (certsDir : String) (site : Site) : List Directive :=
  let block := clientAuth certsDir site.domain
  match site.tls with
  | .off => []
  | .internal => [{ name := "tls", args := ["internal"], block }]
  | .custom cert key => [{ name := "tls", args := [cert, key], block }]

def siteBlock (certsDir : String) (doc : Document) (site : Site) : Directive where
  name := site.key
  block := some (
    tlsClause certsDir site ++ bare "log" site.domain.accessLog ++
    accessControl doc siteMatchers site.domain.accessLists ++
    basicAuth doc site.domain.credentials ++
    (doc.handlers.filter (attaches · site)).map (handlerBlock certsDir doc))

end ProxyConfig.Caddyfile
