import ProxyConfig.Yaml.Node
import ProxyConfig.Yaml.Token

/-!
Trees from the tokens of YAML text.  A text holds one document, behind directives that say what the
handles of its tags stand for; where nothing is written, nothing is meant, which is a scalar without
characters.
-/

namespace ProxyConfig.Yaml

/-- What is meant where nothing is written. -/
def blank (properties : Properties) : Node := .scalar properties true ""

/-- Reads the anchor and the tag of a value, in either order. -/
def readProperties (meanings : List WrittenTag) : List Token → Option (Properties × List Token)
  | .anchor n :: .tag written :: rest | .tag written :: .anchor n :: rest =>
    (Tag.resolve? meanings written).map fun tag => (⟨some n, some tag⟩, rest)
  | .anchor n :: rest => some (⟨some n, none⟩, rest)
  | .tag written :: rest => (Tag.resolve? meanings written).map fun tag => (⟨none, some tag⟩, rest)
  | ts => some ({}, ts)

/-- The properties of a scalar that is written out, where an exclamation mark alone is no tag. -/
def Properties.ofScalar (p : Properties) : Properties :=
  if p.tag = some .bang then { p with tag := none } else p

/-- Whether a value is left out, since one of the tokens that may follow it comes next. -/
def isLeftOut (followers : List Token) (ts : List Token) : Bool :=
  match ts with
  | [] => true
  | t :: _ => followers.contains t

section Values

variable (meanings : List WrittenTag)

mutual

/-- Reads a value.  Inside brackets there are no blocks; behind a key, items may stand without
indentation. -/
def readNode (block behindKey : Bool) :
    (fuel : Nat) → List Token → Option (Node × List Token)
  | 0, _ => none
  | _ + 1, .reference anchor :: rest => some (.reference anchor, rest)
  | fuel + 1, ts => do
    let (ps, ts) ← readProperties meanings ts
    -- behind an anchor or a tag a value may be left out
    let missing := if ps.anchor.isSome || ps.tag.isSome then some (blank ps, ts) else none
    match ts with
    | .scalar quoted s :: rest => pure (.scalar ps.ofScalar (!quoted) s, rest)
    | .openList :: rest =>
      let (items, rest) ← readBracketed true fuel rest
      pure (.list ps items, rest)
    | .openMapping :: rest =>
      let (members, rest) ← readBracketedMembers true fuel rest
      pure (.mapping ps members, rest)
    | .blockList :: rest =>
      if block then
        let (items, rest) ← readItems fuel rest
        pure (.list ps items, rest)
      else missing
    | .blockMapping :: rest =>
      if block then
        let (members, rest) ← readMembers fuel rest
        pure (.mapping ps members, rest)
      else missing
    | .item :: _ =>
      if behindKey then
        let (items, rest) ← readLooseItems fuel ts
        pure (.list ps items, rest)
      else missing
    | _ => missing

def readItems : (fuel : Nat) → List Token → Option (List Node × List Token)
  | 0, _ => none
  | fuel + 1, ts => do
    match ts with
    | .item :: rest =>
      let (x, rest) ← if isLeftOut [.item, .blockEnd] rest then pure (blank {}, rest)
        else readNode true false fuel rest
      let (items, rest) ← readItems fuel rest
      pure (x :: items, rest)
    | .blockEnd :: rest => pure ([], rest)
    | _ => none

def readLooseItems : (fuel : Nat) → List Token → Option (List Node × List Token)
  | 0, _ => none
  | fuel + 1, ts => do
    match ts with
    | .item :: rest =>
      let (x, rest) ←
        if isLeftOut [.item, .key, .value, .blockEnd] rest then pure (blank {}, rest)
        else readNode true false fuel rest
      let (items, rest) ← readLooseItems fuel rest
      pure (x :: items, rest)
    -- no token closes these items: the mapping they stand in goes on
    | _ => pure ([], ts)

def readMembers :
    (fuel : Nat) → List Token → Option (List (Node × Node) × List Token)
  | 0, _ => none
  | fuel + 1, ts => do
    let followers := [.key, .value, .blockEnd]
    match ts with
    | .key :: rest =>
      let (k, rest) ← if isLeftOut followers rest then pure (blank {}, rest)
        else readNode true true fuel rest
      let (x, rest) ← match rest with
        | .value :: rest =>
          if isLeftOut followers rest then pure (blank {}, rest) else readNode true true fuel rest
        | _ => pure (blank {}, rest)
      let (members, rest) ← readMembers fuel rest
      pure ((k, x) :: members, rest)
    | .blockEnd :: rest => pure ([], rest)
    | _ => none

/-- Reads what stands between square brackets up to the closing one; a member that stands there is a
mapping of its own. -/
def readBracketed (first : Bool) : (fuel : Nat) → List Token → Option (List Node × List Token)
  | 0, _ => none
  | fuel + 1, ts => do
    match ts with
    | .closeList :: rest => pure ([], rest)
    | _ =>
      let ts ← match first, ts with
        | true, ts => pure ts
        | false, .comma :: rest => pure rest
        | false, _ => none
      match ts with
      | .closeList :: rest => pure ([], rest)
      | .key :: rest =>
        let (k, rest) ← if isLeftOut [.value, .comma, .closeList] rest then pure (blank {}, rest)
          else readNode false false fuel rest
        let (x, rest) ← match rest with
          | .value :: rest =>
            if isLeftOut [.comma, .closeList] rest then pure (blank {}, rest)
            else readNode false false fuel rest
          | _ => pure (blank {}, rest)
        let (items, rest) ← readBracketed false fuel rest
        pure (.mapping {} [(k, x)] :: items, rest)
      | _ =>
        let (x, rest) ← readNode false false fuel ts
        let (items, rest) ← readBracketed false fuel rest
        pure (x :: items, rest)

def readBracketedMembers (first : Bool) :
    (fuel : Nat) → List Token → Option (List (Node × Node) × List Token)
  | 0, _ => none
  | fuel + 1, ts => do
    match ts with
    | .closeMapping :: rest => pure ([], rest)
    | _ =>
      let ts ← match first, ts with
        | true, ts => pure ts
        | false, .comma :: rest => pure rest
        | false, _ => none
      match ts with
      | .closeMapping :: rest => pure ([], rest)
      | .key :: rest =>
        let (k, rest) ←
          if isLeftOut [.value, .comma, .closeMapping] rest then pure (blank {}, rest)
          else readNode false false fuel rest
        let (x, rest) ← match rest with
          | .value :: rest =>
            if isLeftOut [.comma, .closeMapping] rest then pure (blank {}, rest)
            else readNode false false fuel rest
          | _ => pure (blank {}, rest)
        let (members, rest) ← readBracketedMembers false fuel rest
        pure ((k, x) :: members, rest)
      | _ =>
        let (k, rest) ← readNode false false fuel ts
        let (members, rest) ← readBracketedMembers false fuel rest
        pure ((k, blank {}) :: members, rest)

end

end Values

def Token.isDirective : Token → Bool
  | .version | .meaning _ => true
  | _ => false

/-- What handles stand for after the directives, unless one is given twice. -/
def meanings? (directives : List Token) : Option (List WrittenTag) :=
  let meanings := directives.filterMap fun
    | .meaning written => some written
    | _ => none
  if 1 < directives.count .version || !decide (meanings.map Prod.fst).Nodup then none
  else some meanings

def readDocument (ts : List Token) : Option Node := do
  let fuel := 2 * ts.length + 2
  let (directives, begun) := ts.span Token.isDirective
  let meanings ← meanings? directives
  let (x, rest) ← match begun with
    | .documentStart :: rest =>
      if isLeftOut [.documentStart, .documentEnd] rest then pure (blank {}, rest)
      else readNode meanings true false fuel rest
    | [] => if directives.isEmpty then pure (blank {}, []) else none
    | _ => if directives.isEmpty then readNode meanings true false fuel begun else none
  if rest.all (· = .documentEnd) then pure x else none

def tree? (text : List Char) : Option Node := (tokens? text).bind readDocument

end ProxyConfig.Yaml
