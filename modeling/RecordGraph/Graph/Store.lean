import RecordGraph.Graph.Element

/-!
The graph store: nodes and edges in creation order, and the numbers that the next
ones get. Nothing is ever deleted; only properties of nodes change. An edge can
be made only between nodes that are there.
-/

namespace RecordGraph

structure Store where
  nodes : List Node
  edges : List Edge
  nextNode : Nat
  nextEdge : Nat
deriving DecidableEq

inductive StoreError where
  | nodeNotFound (id : Nat)
  | sourceNotFound (id : Nat)
  | targetNotFound (id : Nat)
deriving DecidableEq

def StoreError.message : StoreError → String
  | nodeNotFound id => "Node " ++ Node.name id ++ " not found"
  | sourceNotFound id => "Invalid edge: source node " ++ Node.name id ++ " does not exist"
  | targetNotFound id => "Invalid edge: target node " ++ Node.name id ++ " does not exist"

namespace Store

def empty : Store := ⟨[], [], 0, 0⟩

instance : Inhabited Store := ⟨empty⟩

def nodeCount (s : Store) : Nat := s.nodes.length
def edgeCount (s : Store) : Nat := s.edges.length

def node? (s : Store) (id : Nat) : Option Node :=
  s.nodes.find? fun n => n.id = id

def edge? (s : Store) (id : Nat) : Option Edge :=
  s.edges.find? fun e => e.id = id

def createNode (s : Store) (labels : List String) (properties : PropertyMap) : Nat × Store :=
  (s.nextNode,
    { s with
      nodes := s.nodes ++ [Node.create s.nextNode labels properties]
      nextNode := s.nextNode + 1 })

def createEdge (s : Store) (source target : Nat) (type : String) :
    Except StoreError (Nat × Store) :=
  if (s.node? source).isNone then .error (.sourceNotFound source)
  else if (s.node? target).isNone then .error (.targetNotFound target)
  else .ok (s.nextEdge,
    { s with
      edges := s.edges ++ [⟨s.nextEdge, source, target, type⟩]
      nextEdge := s.nextEdge + 1 })

def setProperty (s : Store) (id : Nat) (key : String) (value : PropertyValue) :
    Except StoreError Store :=
  if (s.node? id).isNone then .error (.nodeNotFound id)
  else .ok { s with
    nodes := s.nodes.map fun n => if n.id = id then n.setProperty key value else n }

/-- Nodes that carry every label and property of a pattern, in creation order. -/
def findNodes (s : Store) (labels : List String) (properties : PropertyMap) : List Nat :=
  (s.nodes.filter fun n => n.fits labels properties).map (·.id)

/-- The first edge of a type between two nodes; undirected, it may run either way. -/
def findEdge? (s : Store) (source target : Nat) (type : String) (directed : Bool) : Option Nat :=
  (s.edges.find? fun e =>
    if directed then e.links source target type else e.connects source target type).map (·.id)

@[simp] theorem nodeCount_createNode (s : Store) (labels : List String)
    (properties : PropertyMap) :
    (s.createNode labels properties).2.nodeCount = s.nodeCount + 1 := by
  simp [createNode, nodeCount]

end Store

end RecordGraph
