import RecordGraph.Graph.Element

/-!
Sessions against a graph engine. A session runs reads and opens transactions; a
transaction holds the session until it is committed or rolled back, and its
writes become visible only on commit. Every call returns the state after it,
also when it fails.
-/

namespace RecordGraph

structure GraphNode where
  id : String
  labels : List String
  properties : PropertyMap
deriving DecidableEq

def GraphNode.ofNode (n : Node) : GraphNode :=
  ⟨Number.natText n.id, n.labels, n.properties⟩

def GraphNode.property? (n : GraphNode) (key : String) : Option PropertyValue :=
  n.properties.get? key

inductive SessionError where
  | rejected (cause : String)
  | transport (cause : String)
  | closed
deriving DecidableEq

def SessionError.message : SessionError → String
  | rejected cause => "Statement rejected: " ++ cause
  | transport cause => "Transport error: " ++ cause
  | closed => "Session is closed"

class Transaction (τ : Type) where
  run : τ → String → Except SessionError (List GraphNode) × τ

/-- An engine with session states `σ` and open transactions `τ`. -/
class Engine (σ : Type) (τ : outParam Type) where
  /-- Runs a read-only statement outside a transaction. -/
  read : σ → String → Except SessionError (List GraphNode) × σ
  start : σ → Except (SessionError × σ) τ
  commit : τ → Except SessionError Unit × σ
  rollback : τ → Except SessionError Unit × σ

end RecordGraph
