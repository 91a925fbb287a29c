import ProxyConfig.Caddyfile.SiteBlock

/-!
The block of global options: ports, logging, certificates, the servers' limits, and the raw routes.
-/

namespace ProxyConfig.Caddyfile

def serversBlock (g : General) : List Directive :=
  let timeouts :=
    optional "read_body" (duration? g.readBodyTimeout) ++
    optional "read_header" (duration? g.readHeaderTimeout) ++
    optional "write" (duration? g.writeTimeout) ++ optional "idle" (duration? g.idleTimeout)
  let options := optionalWords "protocols" g.httpVersions ++
    bare "log_credentials" g.logCredentials ++
    if timeouts.isEmpty then [] else [{ name := "timeouts", block := some timeouts }]
  if options.isEmpty then [] else [{ name := "servers", block := some options }]

def rawMatch (r : RawRoute) : List Directive :=
  ((present? r.matcher).filter (· != "any")).toList.map fun matcher =>
    { name := "match", block := some [{ name := matcher, args := r.matchDomains.filterMap present? }] }

def rawProxy (r : RawRoute) : List Directive :=
  match upstreamList r.upstreams r.upstreamPort with
  | [] => []
  | upstreams =>
    let version := Text.trim r.proxyProtocol
    [{ name := "proxy", args := upstreams, block := some (
        (if version = "v1" || version = "v2" then
          [{ name := "proxy_protocol", args := [version] }] else []) ++
        optionalWords "lb_policy" r.policy ++
        optional "passive_health_fail_duration" (duration? r.failDuration) ++
        optional "passive_health_max_fails" (r.maxFails.positive?.map toString)) }]

def rawTls (r : RawRoute) : List Directive :=
  bare "tls" r.terminateTls ++
    match r.upstreamTls with
    | .off => []
    | .verify => [{ name := "tls_client" }]
    | .skipVerify => [{ name := "tls_client", block := some [{ name := "insecure_skip_verify" }] }]

def rawRouteBlock (r : RawRoute) : Directive where
  name := ":" ++ (r.fromPort.port?.map toString).getD "443"
  block := some (rawMatch r ++ rawProxy r ++ rawTls r)

def rawRoutesBlock (g : General) (routes : List RawRoute) : List Directive :=
  if g.rawEnabled && !routes.isEmpty then
    [{ name := "layer4", block := some ((routes.filter (·.enabled)).map rawRouteBlock) }]
  else []

def globalOptions (g : General) (routes : List RawRoute) : Directive :=
  .anonymous (
    optional "http_port" (g.httpPort.port?.map toString) ++
    optional "https_port" (g.httpsPort.port?.map toString) ++
    (present? g.logLevel).toList.map (fun level =>
      { name := "log", block := some [{ name := "level", args := [level] }] }) ++
    optional "auto_https" (present? g.autoHttps) ++
    optional "email" (present? g.email) ++
    serversBlock g ++ rawRoutesBlock g routes)

end ProxyConfig.Caddyfile
