import RecordGraph.Yaml.Tree

/-!
Nodes. Anchors have numbers instead of names, and a reference holds the number of
the anchor it means: an anchor counts the names known before it, so a name that
is given again may share its number with the next new one.
-/

namespace RecordGraph.Yaml

inductive Node where
  | scalar (tag : Option String) (plain : Bool) (text : String)
  | sequence (tag : Option String) (items : List Node)
  | mapping (tag : Option String) (entries : List (Node × Node))
  | reference (anchor : Nat)
deriving Inhabited

abbrev Anchored := List (Nat × Node)

abbrev AnchorNames := List (String × Nat)

def AnchorNames.give (names : AnchorNames) : Option String → AnchorNames
  | none => names
  | some name => (name, names.length) :: names.filter fun n => n.1 ≠ name

def Anchored.ofNode (names : AnchorNames) (anchor : Option String) (n : Node) : Anchored :=
  if anchor.isSome then [(names.length, n)] else []

/-- Nodes made from trees: with the names known after them and the anchored nodes among them. -/
structure Linked (α : Type) where
  result : α
  names : AnchorNames
  anchored : Anchored

mutual

def Tree.link? (names : AnchorNames) : Tree → Option (Linked Node)
  | .scalar p plain text =>
    let n := Node.scalar p.tag plain text
    some ⟨n, names.give p.anchor, .ofNode names p.anchor n⟩
  | .sequence p items =>
    (linkItems? (names.give p.anchor) items).map fun l =>
      let n := Node.sequence p.tag l.result
      ⟨n, l.names, .ofNode names p.anchor n ++ l.anchored⟩
  | .mapping p entries =>
    (linkEntries? (names.give p.anchor) entries).map fun l =>
      let n := Node.mapping p.tag l.result
      ⟨n, l.names, .ofNode names p.anchor n ++ l.anchored⟩
  | .reference name => (names.lookup name).map fun number => ⟨.reference number, names, []⟩

def linkItems? (names : AnchorNames) : List Tree → Option (Linked (List Node))
  | [] => some ⟨[], names, []⟩
  | tree :: rest =>
    (tree.link? names).bind fun first =>
    (linkItems? first.names rest).map fun more =>
      ⟨first.result :: more.result, more.names, first.anchored ++ more.anchored⟩

def linkEntries? (names : AnchorNames) :
    List (Tree × Tree) → Option (Linked (List (Node × Node)))
  | [] => some ⟨[], names, []⟩
  | (key, value) :: rest =>
    (key.link? names).bind fun k =>
    (value.link? k.names).bind fun v =>
    (linkEntries? v.names rest).map fun more =>
      ⟨(k.result, v.result) :: more.result, more.names, k.anchored ++ v.anchored ++ more.anchored⟩

end

mutual

def Node.parts : Node → Nat
  | .sequence _ items => 2 + itemParts items
  | .mapping _ entries => 2 + entryParts entries
  | _ => 1

def itemParts : List Node → Nat
  | [] => 0
  | n :: rest => n.parts + itemParts rest

def entryParts : List (Node × Node) → Nat
  | [] => 0
  | (key, value) :: rest => key.parts + value.parts + entryParts rest

end

end RecordGraph.Yaml
