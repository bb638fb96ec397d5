import RecordGraph.Dialect.Execution
import RecordGraph.Session.Basic

/-!
The in-memory engine. A transaction works on a copy of the graph, which replaces
the graph on commit and is forgotten otherwise. A closed session refuses reads
and transactions. A statement run directly on a graph is not undone when it fails.
-/

namespace RecordGraph

structure MemorySession where
  graph : Store
  closed : Bool

structure MemoryTransaction where
  session : MemorySession
  working : Store

namespace MemorySession

def ofGraph (graph : Store) : MemorySession := ⟨graph, false⟩

def close (s : MemorySession) : MemorySession := { s with closed := true }

def rejected (e : ExecutionError) : SessionError := .rejected e.message

/-- The nodes returned by a statement, as the engine shows them. -/
def nodesOf (result : Except ExecutionError (List Node)) : Except SessionError (List GraphNode) :=
  match result with
  | .ok nodes => .ok (nodes.map GraphNode.ofNode)
  | .error e => .error (rejected e)

def execute (graph : Store) (text : String) : Except SessionError (List GraphNode) × Store :=
  let (result, graph) := Dialect.execute text graph
  (nodesOf result, graph)

def read (s : MemorySession) (text : String) : Except SessionError (List GraphNode) × MemorySession :=
  if s.closed then (.error .closed, s) else (nodesOf (Dialect.executeRead text s.graph), s)

def start (s : MemorySession) : Except (SessionError × MemorySession) MemoryTransaction :=
  if s.closed then .error (.closed, s) else .ok ⟨s, s.graph⟩

end MemorySession

namespace MemoryTransaction

def run (t : MemoryTransaction) (text : String) :
    Except SessionError (List GraphNode) × MemoryTransaction :=
  let (result, working) := MemorySession.execute t.working text
  (result, { t with working := working })

def commit (t : MemoryTransaction) : Except SessionError Unit × MemorySession :=
  (.ok (), { t.session with graph := t.working })

def rollback (t : MemoryTransaction) : Except SessionError Unit × MemorySession :=
  (.ok (), t.session)

end MemoryTransaction

instance : Transaction MemoryTransaction where
  run := MemoryTransaction.run

instance : Engine MemorySession MemoryTransaction where
  read := MemorySession.read
  start := MemorySession.start
  commit := MemoryTransaction.commit
  rollback := MemoryTransaction.rollback

end RecordGraph
