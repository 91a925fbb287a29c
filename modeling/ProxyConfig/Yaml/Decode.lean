import ProxyConfig.Document.Codec
import ProxyConfig.Yaml.Reader

/-!
Reading a record from YAML text: values may be nested 128 deep, and only a mapping stands for a
record.  References may be followed a hundred times as often as the text has events, counting those in
values that are wanted.
-/

namespace ProxyConfig.Yaml

def reach : Reach := ⟨128, false⟩

/-- Whether references are followed too often.  One of them is followed if nothing can be read without
it, for in a value that is passed over it makes no difference. -/
def tires (read : Reach → Draft → Decoded α) (root : Node) : Bool :=
  let limit := 100 * root.events
  let met := (root.compose none reach.depth).2
  limit < met &&
    limit < (List.range met).countP fun number =>
      !(read reach (root.compose (some number) reach.depth).1).isOk

def decode (read : Reach → Draft → Decoded α) (text : List Char) : Decoded α :=
  match tree? text with
  | some root =>
    if tires read root then .fail (.broken .malformed)
    else read reach (root.compose none reach.depth).1
  | none => .fail (.broken .malformed)

end ProxyConfig.Yaml
