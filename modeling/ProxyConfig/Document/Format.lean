import ProxyConfig.Document.Layout
import ProxyConfig.Json.Decode
import ProxyConfig.Path
import ProxyConfig.Yaml.Decode

/-!
The two notations that documents are kept in, and reading a document from either.
-/

namespace ProxyConfig

inductive DocumentFormat where
  | json
  | yaml
  deriving DecidableEq, Repr

namespace DocumentFormat

def ofPath (path : String) : DocumentFormat :=
  match Path.ending? path with
  | some ending =>
    if Text.sameLetters ending "yaml" || Text.sameLetters ending "yml" then yaml else json
  | none => json

end DocumentFormat

namespace Document

def ofJson (input : List Text.Piece) : Decoded Document := Json.decode layout.read input

def ofYaml (text : String) : Decoded Document := Yaml.decode layout.read text.toList

def ofText (format : DocumentFormat) (text : String) : Decoded Document :=
  match format with
  | .json => ofJson (Text.piecesOf text)
  | .yaml => ofYaml text

end Document

end ProxyConfig
