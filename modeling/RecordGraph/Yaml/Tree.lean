import RecordGraph.Yaml.Token.Lexer

/-!
Trees of nodes as they are written, from tokens. Each rule returns its part with
the tokens that remain. A node may carry an anchor and a tag, one of each, or
refer to an anchor; where a collection expects a node and none is written, an
empty scalar stands.
-/

namespace RecordGraph.Yaml

structure Properties where
  anchor : Option String
  tag : Option String

inductive Tree where
  | scalar (properties : Properties) (plain : Bool) (text : String)
  | sequence (properties : Properties) (items : List Tree)
  | mapping (properties : Properties) (entries : List (Tree × Tree))
  | reference (name : String)
deriving Inhabited

namespace Tree

def empty : Tree := scalar ⟨none, none⟩ true ""

abbrev Phrase (α : Type) := List Token → Option (α × List Token)

def anchorOf : List Token → Option String × List Token
  | .anchor name :: ts => (some name, ts)
  | ts => (none, ts)

def tagOf : List Token → Option WrittenTag × List Token
  | .tag t :: ts => (some t, ts)
  | ts => (none, ts)

def properties (handles : List (String × String)) (ts : List Token) :
    Option (Properties × List Token) :=
  let (before, ts) := anchorOf ts
  let (tag, ts) := tagOf ts
  let (anchor, ts) := if before.isNone && tag.isSome then anchorOf ts else (before, ts)
  match tag with
  | none => some (⟨anchor, none⟩, ts)
  | some t => (t.text? handles).map fun text => (⟨anchor, some text⟩, ts)

def ofScalar (p : Properties) (plain : Bool) (text : String) : Tree :=
  scalar (if p.tag = some "!" then { p with tag := none } else p) plain text

def isLineStop : Token → Bool
  | .key | .value | .blockEnd => true
  | _ => false

def isBlockEntry : Token → Bool
  | .blockEntry => true
  | _ => false

def isBlockEnd : Token → Bool
  | .blockEnd => true
  | _ => false

def isFlowStop (inMapping : Bool) : Token → Bool
  | .flowEntry => true
  | .flowSequenceEnd => !inMapping
  | .flowMappingEnd => inMapping
  | _ => false

def isValue : Token → Bool
  | .value => true
  | _ => false

def optional (stop : Token → Bool) (node : Phrase Tree) (ts : List Token) :
    Option (Tree × List Token) :=
  if ts.head?.any stop then some (empty, ts) else node ts

def valueNode (stop : Token → Bool) (node : Phrase Tree) : Phrase Tree
  | .value :: ts => optional stop node ts
  | ts => some (empty, ts)

mutual

/-- A node. Lines may hold collections of lines, and items of a sequence may stand at the column
of the key they belong to. -/
def node (handles : List (String × String)) :
    Nat → (lines : Bool) → (underKey : Bool) → Phrase Tree
  | 0, _, _, _ => none
  | _ + 1, _, _, .reference name :: ts => some (reference name, ts)
  | fuel + 1, lines, underKey, ts =>
    (properties handles ts).bind fun (p, ts) =>
      match ts with
      | .scalar plain text :: ts => some (ofScalar p plain text, ts)
      | .flowSequenceStart :: ts =>
        (flowItems handles fuel true ts).map fun (items, ts) => (sequence p items, ts)
      | .flowMappingStart :: ts =>
        (flowEntries handles fuel true ts).map fun (entries, ts) => (mapping p entries, ts)
      | t :: rest =>
        if underKey && isBlockEntry t then
          (keyItems handles fuel ts).map fun (items, ts) => (sequence p items, ts)
        else
          match lines, t with
          | true, .blockSequenceStart =>
            (lineItems handles fuel rest).map fun (items, ts) => (sequence p items, ts)
          | true, .blockMappingStart =>
            (lineEntries handles fuel rest).map fun (entries, ts) => (mapping p entries, ts)
          | _, _ => if p.anchor.isSome || p.tag.isSome then some (scalar p true "", ts) else none
      | [] => if p.anchor.isSome || p.tag.isSome then some (scalar p true "", []) else none

def lineItems (handles : List (String × String)) : Nat → Phrase (List Tree)
  | 0, _ => none
  | _ + 1, .blockEnd :: ts => some ([], ts)
  | fuel + 1, .blockEntry :: ts =>
    (optional (fun t => isBlockEntry t || isBlockEnd t) (node handles fuel true false) ts).bind
      fun (item, ts) => (lineItems handles fuel ts).map fun (items, ts) => (item :: items, ts)
  | _ + 1, _ => none

def keyItems (handles : List (String × String)) : Nat → Phrase (List Tree)
  | 0, _ => none
  | fuel + 1, .blockEntry :: ts =>
    (optional (fun t => isBlockEntry t || isLineStop t) (node handles fuel true false) ts).bind
      fun (item, ts) => (keyItems handles fuel ts).map fun (items, ts) => (item :: items, ts)
  | _ + 1, ts => some ([], ts)

def lineEntries (handles : List (String × String)) : Nat → Phrase (List (Tree × Tree))
  | 0, _ => none
  | _ + 1, .blockEnd :: ts => some ([], ts)
  | fuel + 1, .key :: ts =>
    (optional isLineStop (node handles fuel true true) ts).bind fun (key, ts) =>
    (valueNode isLineStop (node handles fuel true true) ts).bind fun (value, ts) =>
    (lineEntries handles fuel ts).map fun (entries, ts) => ((key, value) :: entries, ts)
  | _ + 1, _ => none

def flowItems (handles : List (String × String)) : Nat → (first : Bool) → Phrase (List Tree)
  | 0, _, _ => none
  | _ + 1, _, .flowSequenceEnd :: ts => some ([], ts)
  | fuel + 1, true, ts =>
    (flowItem handles fuel ts).bind fun (item, ts) =>
    (flowItems handles fuel false ts).map fun (items, ts) => (item :: items, ts)
  | _ + 1, false, .flowEntry :: .flowSequenceEnd :: ts => some ([], ts)
  | fuel + 1, false, .flowEntry :: ts =>
    (flowItem handles fuel ts).bind fun (item, ts) =>
    (flowItems handles fuel false ts).map fun (items, ts) => (item :: items, ts)
  | _ + 1, false, _ => none

/-- An item of a flow sequence; one with a key is a mapping of a single entry. Where the key is
empty the token after its indicator is passed over. -/
def flowItem (handles : List (String × String)) : Nat → Phrase Tree
  | 0, _ => none
  | fuel + 1, .key :: ts =>
    let key := match ts with
      | t :: rest =>
        if isValue t || isFlowStop false t then some (empty, rest)
        else node handles fuel false false ts
      | [] => none
    key.bind fun (key, ts) =>
    (valueNode (isFlowStop false) (node handles fuel false false) ts).map fun (value, ts) =>
      (mapping ⟨none, none⟩ [(key, value)], ts)
  | fuel + 1, ts => node handles fuel false false ts

def flowEntries (handles : List (String × String)) :
    Nat → (first : Bool) → Phrase (List (Tree × Tree))
  | 0, _, _ => none
  | _ + 1, _, .flowMappingEnd :: ts => some ([], ts)
  | fuel + 1, true, ts =>
    (flowPair handles fuel ts).bind fun (entry, ts) =>
    (flowEntries handles fuel false ts).map fun (entries, ts) => (entry :: entries, ts)
  | _ + 1, false, .flowEntry :: .flowMappingEnd :: ts => some ([], ts)
  | fuel + 1, false, .flowEntry :: ts =>
    (flowPair handles fuel ts).bind fun (entry, ts) =>
    (flowEntries handles fuel false ts).map fun (entries, ts) => (entry :: entries, ts)
  | _ + 1, false, _ => none

def flowPair (handles : List (String × String)) : Nat → Phrase (Tree × Tree)
  | 0, _ => none
  | fuel + 1, .key :: ts =>
    let isStop := fun t => isValue t || isFlowStop true t
    (optional isStop (node handles fuel false false) ts).bind fun (key, ts) =>
    (valueNode (isFlowStop true) (node handles fuel false false) ts).map fun (value, ts) =>
      ((key, value), ts)
  | fuel + 1, ts => (node handles fuel false false ts).map fun (key, ts) => ((key, empty), ts)

end

end Tree

end RecordGraph.Yaml
