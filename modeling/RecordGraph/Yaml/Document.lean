import RecordGraph.Yaml.Node

/-!
Documents. A text holds one; directives and a marker line may come before it, and
marker lines after it. Following the references of a document is bounded by its
size, since a reference may stand for a node that holds further ones.
-/

namespace RecordGraph.Yaml

structure Document where
  root : Node
  /-- Anchored nodes, the last one first. -/
  anchored : Anchored

def directives? (handles : List (String × String)) (versionKnown : Bool) :
    List Token → Option (List (String × String) × List Token)
  | .directive (.version major minor) :: ts =>
    if versionKnown || major ≠ 1 || (minor ≠ 1 && minor ≠ 2) then none
    else directives? handles true ts
  | .directive (.handle name beginning) :: ts =>
    if (handles.lookup name).isSome then none
    else directives? (handles ++ [(name, beginning)]) versionKnown ts
  | ts => some (handles ++ knownHandles, ts)

def isDocumentStop : Token → Bool
  | .directive _ | .documentStart | .documentEnd => true
  | _ => false

def isDocumentEnd : Token → Bool
  | .documentEnd => true
  | _ => false

/-- The tree of the first document; a marker has to follow directives, and may stand alone. -/
def documentTree (ts : List Token) : Option (Tree × List Token) :=
  let fuel := 4 * ts.length + 4
  (directives? [] false ts).bind fun (handles, rest) =>
    let node := Tree.node handles fuel true false
    match rest with
    | .documentStart :: rest =>
      if rest.isEmpty then some (.empty, []) else Tree.optional isDocumentStop node rest
    | rest => if rest.length = ts.length then node rest else none

namespace Document

def read? (text : String) : Option Document :=
  (tokens? text).bind fun ts =>
  (documentTree ts).bind fun (tree, rest) =>
    if rest.all isDocumentEnd then
      (tree.link? []).map fun l => ⟨l.result, l.anchored.reverse⟩
    else none

def references (d : Document) : Nat :=
  100 * d.root.parts

end Document

abbrev Reading := StateT Nat Option

def Document.follow (d : Document) (anchor : Nat) : Reading Node := fun left =>
  if left = 0 then none else (d.anchored.lookup anchor).map fun n => (n, left - 1)

def Document.target (d : Document) : Node → Reading Node
  | .reference anchor => d.follow anchor
  | n => pure n

end RecordGraph.Yaml
