import ProxyConfig.Document.Codec
import ProxyConfig.Json.Reader

/-!
Reading a record from JSON text: values may be nested 127 deep, a list may stand for a record, and
nothing but blanks may follow the value.
-/

namespace ProxyConfig.Json

def reach : Reach := ⟨127, true⟩

def decode (read : Reach → Draft → Decoded α) (input : List Text.Piece) : Decoded α := do
  let reading := Reading.ofPieces input
  let a ← read reach reading.draft
  if reading.ends then pure a else .fail (.broken .malformed)

end ProxyConfig.Json
