import ProxyConfig.Text.Blank
import ProxyConfig.Text.Cut

/-!
The fields of a document that choose among a few words.  A choice is read from any text, blanks
around it ignored, and an unknown word is the usual choice; only an action keeps the unknown word.
Main statement for each: what is written reads back.
-/

namespace ProxyConfig

inductive IpMatcher where
  | remoteIp
  | clientIp
  deriving DecidableEq, Inhabited

namespace IpMatcher

def toText : IpMatcher → String
  | remoteIp => "remote_ip"
  | clientIp => "client_ip"

def ofText (s : String) : IpMatcher :=
  if Text.trim s = "client_ip" then clientIp else remoteIp

end IpMatcher

inductive HeaderDirection where
  | up
  | down
  deriving DecidableEq, Inhabited

namespace HeaderDirection

def toText : HeaderDirection → String
  | up => "header_up"
  | down => "header_down"

def ofText (s : String) : HeaderDirection :=
  if Text.trim s = "header_down" then down else up

end HeaderDirection

inductive PathMatch where
  | keep
  | strip
  deriving DecidableEq, Inhabited

namespace PathMatch

/-- The word is also the name of the handler's block. -/
def toText : PathMatch → String
  | keep => "handle"
  | strip => "handle_path"

def ofText (s : String) : PathMatch :=
  if Text.trim s = "handle_path" then strip else keep

end PathMatch

inductive Action where
  | proxy
  | redirect
  | other (name : String)
  deriving DecidableEq, Inhabited

namespace Action

def toText : Action → String
  | proxy => "reverse_proxy"
  | redirect => "redir"
  | other name => name

def ofText (s : String) : Action :=
  let name := Text.trim s
  if name = "" || name = "reverse_proxy" then proxy
  else if name = "redir" || name = "redirect" then redirect
  else other name

end Action

inductive Protocol where
  | tcp
  | udp
  deriving DecidableEq, Inhabited

namespace Protocol

def toText : Protocol → String
  | tcp => "tcp"
  | udp => "udp"

def ofText (s : String) : Protocol :=
  if Text.sameLetters (Text.trim s) "udp" then udp else tcp

end Protocol

inductive UpstreamTls where
  | off
  | verify
  | skipVerify
  deriving DecidableEq, Inhabited

namespace UpstreamTls

def toText : UpstreamTls → String
  | off => ""
  | verify => "tls"
  | skipVerify => "tls_insecure_skip_verify"

def ofText (s : String) : UpstreamTls :=
  let name := Text.trim s
  if name = "tls" then verify
  else if name = "tls_insecure_skip_verify" then skipVerify
  else off

end UpstreamTls

@[simp] theorem IpMatcher.ofText_toText (m : IpMatcher) : ofText m.toText = m := by
  cases m <;> rfl

@[simp] theorem HeaderDirection.ofText_toText (d : HeaderDirection) : ofText d.toText = d := by
  cases d <;> rfl

@[simp] theorem PathMatch.ofText_toText (p : PathMatch) : ofText p.toText = p := by
  cases p <;> rfl

@[simp] theorem Protocol.ofText_toText (p : Protocol) : ofText p.toText = p := by
  cases p <;> rfl

@[simp] theorem UpstreamTls.ofText_toText (t : UpstreamTls) : ofText t.toText = t := by
  cases t <;> rfl

end ProxyConfig
