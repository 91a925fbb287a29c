import ProxyConfig.Document.Basic
import ProxyConfig.Document.Codec

/-!
The written form of a document: one table for each kind of entity, with the names of its members in
the order in which they are written.  The balancing and health fields of a handler stand beside its
other members and are read after them, group by group.
-/

namespace ProxyConfig

open Codec

namespace General

def layout : Record General where
  name := "GeneralSettings"
  empty := {}
  fields := [
    field "enabled" flag enabled fun v g => { g with enabled := v },
    field "enable_layer4" flag rawEnabled fun v g => { g with rawEnabled := v },
    field "http_port" number httpPort fun v g => { g with httpPort := v },
    field "https_port" number httpsPort fun v g => { g with httpsPort := v },
    field "log_level" text logLevel fun v g => { g with logLevel := v },
    field "auto_https" text autoHttps fun v g => { g with autoHttps := v },
    field "tls_email" text email fun v g => { g with email := v },
    field "http_versions" text httpVersions fun v g => { g with httpVersions := v },
    field "timeout_read_body" looseText readBodyTimeout fun v g => { g with readBodyTimeout := v },
    field "timeout_read_header" looseText readHeaderTimeout
      fun v g => { g with readHeaderTimeout := v },
    field "timeout_write" looseText writeTimeout fun v g => { g with writeTimeout := v },
    field "timeout_idle" looseText idleTimeout fun v g => { g with idleTimeout := v },
    field "log_credentials" flag logCredentials fun v g => { g with logCredentials := v }]

end General

namespace Domain

def layout : Record Domain where
  name := "Domain"
  empty := {}
  fields := [
    field "id" text id fun v d => { d with id := v },
    field "enabled" flag enabled fun v d => { d with enabled := v },
    field "fromDomain" text host fun v d => { d with host := v },
    field "fromPort" number port fun v d => { d with port := v },
    field "disableTls" flag tlsDisabled fun v d => { d with tlsDisabled := v },
    field "customCert" text customCert fun v d => { d with customCert := v },
    field "accessLog" flag accessLog fun v d => { d with accessLog := v },
    field "accesslist" texts accessLists fun v d => { d with accessLists := v },
    field "basicauth" texts credentials fun v d => { d with credentials := v },
    field "client_auth_mode" text clientAuthMode fun v d => { d with clientAuthMode := v },
    field "client_auth_trust_pool" text clientAuthPool fun v d => { d with clientAuthPool := v },
    field "description" text description fun v d => { d with description := v }]

end Domain

namespace Subdomain

def layout : Record Subdomain where
  name := "Subdomain"
  empty := {}
  fields := [
    field "id" text id fun v s => { s with id := v },
    field "enabled" flag enabled fun v s => { s with enabled := v },
    field "reverse" text domainId fun v s => { s with domainId := v },
    field "fromDomain" text fragment fun v s => { s with fragment := v },
    field "accesslist" texts accessLists fun v s => { s with accessLists := v },
    field "basicauth" texts credentials fun v s => { s with credentials := v },
    field "description" text description fun v s => { s with description := v }]

end Subdomain

namespace AccessList

def layout : Record AccessList where
  name := "AccessControlList"
  empty := {}
  fields := [
    field "id" text id fun v a => { a with id := v },
    field "accesslistName" text name fun v a => { a with name := v },
    field "clientIps" texts clientIps fun v a => { a with clientIps := v },
    field "invert" flag invert fun v a => { a with invert := v },
    field "request_matcher" (choice IpMatcher.ofText IpMatcher.toText) matcher
      fun v a => { a with matcher := v },
    field "http_response_code" number responseCode fun v a => { a with responseCode := v },
    field "http_response_message" text responseMessage
      fun v a => { a with responseMessage := v },
    field "description" text description fun v a => { a with description := v }]

end AccessList

namespace Credential

def layout : Record Credential where
  name := "CredentialSet"
  empty := {}
  fields := [
    field "id" text id fun v c => { c with id := v },
    field "basicauthuser" text username fun v c => { c with username := v },
    field "basicauthpass" text password fun v c => { c with password := v },
    field "description" text description fun v c => { c with description := v }]

end Credential

namespace HeaderRule

def layout : Record HeaderRule where
  name := "HeaderRule"
  empty := {}
  fields := [
    field "id" text id fun v h => { h with id := v },
    field "headerUpDown" (choice HeaderDirection.ofText HeaderDirection.toText) direction
      fun v h => { h with direction := v },
    field "headerType" text fieldName fun v h => { h with fieldName := v },
    field "headerValue" text value fun v h => { h with value := v },
    field "headerReplace" flag replace fun v h => { h with replace := v },
    field "description" text description fun v h => { h with description := v }]

end HeaderRule

namespace LoadBalancing

/-- The members of a handler that say how requests are shared out. -/
def fields : List (Field LoadBalancing) := [
  field "lb_policy" text policy fun v b => { b with policy := v },
  field "lb_retries" number retries fun v b => { b with retries := v },
  field "lb_try_duration" looseText tryDuration fun v b => { b with tryDuration := v },
  field "lb_try_interval" looseText tryInterval fun v b => { b with tryInterval := v }]

end LoadBalancing

namespace HealthCheck

def fields : List (Field HealthCheck) := [
  field "health_uri" text uri fun v h => { h with uri := v },
  field "health_port" number port fun v h => { h with port := v },
  field "health_interval" looseText interval fun v h => { h with interval := v },
  field "health_timeout" looseText timeout fun v h => { h with timeout := v },
  field "health_passes" number passes fun v h => { h with passes := v },
  field "health_fails" number fails fun v h => { h with fails := v },
  field "health_status" looseText expectedStatus fun v h => { h with expectedStatus := v },
  field "health_body" looseText expectedBody fun v h => { h with expectedBody := v },
  field "health_follow_redirects" flag followRedirects
    fun v h => { h with followRedirects := v }]

end HealthCheck

namespace PassiveHealth

def fields : List (Field PassiveHealth) := [
  field "passive_health_fail_duration" looseText failDuration
    fun v p => { p with failDuration := v },
  field "passive_health_max_fails" number maxFails fun v p => { p with maxFails := v },
  field "passive_health_unhealthy_status" looseText unhealthyStatus
    fun v p => { p with unhealthyStatus := v },
  field "passive_health_unhealthy_latency" looseText unhealthyLatency
    fun v p => { p with unhealthyLatency := v },
  field "passive_health_unhealthy_request_count" number unhealthyRequestCount
    fun v p => { p with unhealthyRequestCount := v }]

end PassiveHealth

namespace Handler

def layout : Record Handler where
  name := "RoutingHandler"
  empty := {}
  fields := [
    field "id" text id fun v h => { h with id := v },
    field "enabled" flag enabled fun v h => { h with enabled := v },
    field "reverse" text domainId fun v h => { h with domainId := v },
    field "subdomain" text subdomainId fun v h => { h with subdomainId := v },
    field "handleType" (choice PathMatch.ofText PathMatch.toText) pathMatch
      fun v h => { h with pathMatch := v },
    field "handlePath" text path fun v h => { h with path := v },
    field "accesslist" texts accessLists fun v h => { h with accessLists := v },
    field "basicauth" texts credentials fun v h => { h with credentials := v },
    field "header" texts headers fun v h => { h with headers := v },
    field "handleDirective" (choice Action.ofText Action.toText) action
      fun v h => { h with action := v },
    field "toDomain" texts upstreams fun v h => { h with upstreams := v },
    field "toPort" number upstreamPort fun v h => { h with upstreamPort := v },
    field "httpTls" flag tls fun v h => { h with tls := v },
    field "http_tls_insecure_skip_verify" flag tlsInsecure fun v h => { h with tlsInsecure := v },
    field "http_tls_server_name" text tlsServerName fun v h => { h with tlsServerName := v },
    field "http_tls_trusted_ca_certs" text tlsTrustedCas fun v h => { h with tlsTrustedCas := v },
    field "http_version" looseText httpVersions fun v h => { h with httpVersions := v },
    field "http_keepalive" looseText keepalive fun v h => { h with keepalive := v },
    field "ntlm" flag ntlm fun v h => { h with ntlm := v },
    field "redir_status" number redirectStatus fun v h => { h with redirectStatus := v }] ++
    LoadBalancing.fields.map (fun f =>
      (f.lift balancing fun v h => { h with balancing := v }).inGroup 1) ++
    HealthCheck.fields.map (fun f =>
      (f.lift health fun v h => { h with health := v }).inGroup 2) ++
    PassiveHealth.fields.map (fun f =>
      (f.lift passiveHealth fun v h => { h with passiveHealth := v }).inGroup 3) ++
    [field "description" text description fun v h => { h with description := v }]

end Handler

namespace RawRoute

def layout : Record RawRoute where
  name := "RawRoute"
  empty := {}
  fields := [
    field "id" text id fun v r => { r with id := v },
    field "enabled" flag enabled fun v r => { r with enabled := v },
    field "sequence" text sequence fun v r => { r with sequence := v },
    field "type" text kind fun v r => { r with kind := v },
    field "protocol" (choice Protocol.ofText Protocol.toText) protocol
      fun v r => { r with protocol := v },
    field "fromDomain" texts matchDomains fun v r => { r with matchDomains := v },
    field "fromPort" number fromPort fun v r => { r with fromPort := v },
    field "matchers" text matcher fun v r => { r with matcher := v },
    field "toDomain" texts upstreams fun v r => { r with upstreams := v },
    field "toPort" number upstreamPort fun v r => { r with upstreamPort := v },
    field "terminateTls" flag terminateTls fun v r => { r with terminateTls := v },
    field "proxyProtocol" text proxyProtocol fun v r => { r with proxyProtocol := v },
    field "lb_policy" text policy fun v r => { r with policy := v },
    field "passive_health_fail_duration" looseText failDuration
      fun v r => { r with failDuration := v },
    field "passive_health_max_fails" number maxFails fun v r => { r with maxFails := v },
    field "originate_tls" (choice UpstreamTls.ofText UpstreamTls.toText) upstreamTls
      fun v r => { r with upstreamTls := v },
    field "description" text description fun v r => { r with description := v }]

end RawRoute

namespace Document

def layout : Record Document where
  name := "ConfigDocument"
  empty := {}
  fields := [
    field "general" General.layout.codec general fun v d => { d with general := v },
    field "domains" Domain.layout.listCodec domains fun v d => { d with domains := v },
    field "subdomains" Subdomain.layout.listCodec subdomains fun v d => { d with subdomains := v },
    field "handlers" Handler.layout.listCodec handlers fun v d => { d with handlers := v },
    field "accessLists" AccessList.layout.listCodec accessLists
      fun v d => { d with accessLists := v },
    field "basicAuths" Credential.layout.listCodec credentials
      fun v d => { d with credentials := v },
    field "headers" HeaderRule.layout.listCodec headers fun v d => { d with headers := v },
    field "layer4" RawRoute.layout.listCodec rawRoutes fun v d => { d with rawRoutes := v }]

def toJson (d : Document) : Json.Value := layout.write d

def pretty (d : Document) : String := d.toJson.pretty

end Document

end ProxyConfig
