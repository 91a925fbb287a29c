import ProxyConfig.Address
import ProxyConfig.Site
import ProxyConfig.Text.Pattern

/-!
Which hosts a domain may have: a name of labels, with a scheme or a star in front if need be, or an
address of version 6 in brackets.
-/

namespace ProxyConfig.Host

open Text (Pattern)

def letterOrDigit : Pattern := .one [('a', 'z'), ('A', 'Z'), ('0', '9')]

def letterDigitOrHyphen : Pattern := .one [('a', 'z'), ('A', 'Z'), ('0', '9'), ('-', '-')]

def label : Pattern :=
  .seq letterOrDigit (.optional (.seq (.upTo 61 letterDigitOrHyphen) letterOrDigit))

def name : Pattern :=
  .seq (.optional (.anyOf ["https://", "http://"])) <|
    .seq (.optional (.literal ['*', '.'])) <|
      .seq label (.star (.seq (.char '.') label))

/-- What stands between brackets, if nothing stands outside them. -/
def bracketed? : List Char → Option (List Char)
  | '[' :: rest => if rest.getLast? = some ']' then some rest.dropLast else none
  | _ => none

def lengthLimit : Nat := 253

def valid (host : String) : Bool :=
  let text := Text.trimmed host.toList
  !text.isEmpty && (String.ofList text).utf8ByteSize ≤ lengthLimit &&
    match bracketed? (Domain.splitScheme text).2 with
    | some inner => Address.isV6 inner
    | none => name.accepts text

end ProxyConfig.Host
