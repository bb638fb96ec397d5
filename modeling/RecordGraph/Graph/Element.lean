import RecordGraph.Graph.Property

/-!
Nodes and edges. A node has a set of labels, in order, and properties that are
never null: setting one to null removes it. An edge has a type and runs from a
source to a target.
-/

namespace RecordGraph

structure Node where
  id : Nat
  labels : List String
  properties : PropertyMap
deriving DecidableEq

structure Edge where
  id : Nat
  source : Nat
  target : Nat
  type : String
deriving DecidableEq

namespace Node

def labelSet (labels : List String) : List String :=
  (Dict.ofList (labels.map fun l => (l, ()))).entries.map (·.1)

def create (id : Nat) (labels : List String) (properties : PropertyMap) : Node :=
  ⟨id, labelSet labels, properties.filter fun v => !v.isNull⟩

def hasLabel (n : Node) (label : String) : Bool :=
  n.labels.contains label

def property? (n : Node) (key : String) : Option PropertyValue :=
  n.properties.get? key

def setProperty (n : Node) (key : String) (value : PropertyValue) : Node :=
  { n with
    properties := if value.isNull then n.properties.erase key else n.properties.insert key value }

/-- Whether every label and every property of a pattern holds on the node. -/
def fits (n : Node) (labels : List String) (properties : PropertyMap) : Bool :=
  labels.all n.hasLabel &&
    properties.entries.all fun e => (n.property? e.1).any (·.agrees e.2)

def name (id : Nat) : String :=
  "n" ++ Number.natText id

end Node

namespace Edge

def links (e : Edge) (source target : Nat) (type : String) : Bool :=
  e.source == source && e.target == target && e.type == type

def connects (e : Edge) (a b : Nat) (type : String) : Bool :=
  e.links a b type || e.links b a type

theorem connects_comm (e : Edge) (a b : Nat) (type : String) :
    e.connects a b type = e.connects b a type :=
  Bool.or_comm _ _

def name (id : Nat) : String :=
  "e" ++ Number.natText id

end Edge

end RecordGraph
