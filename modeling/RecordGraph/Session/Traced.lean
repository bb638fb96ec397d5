import RecordGraph.Session.Basic

/-!
A session wrapped so that its calls are noted and can be made to fail. A planned
fault strikes before the wrapped call is made, except that a faulted run has
really run; a transaction whose commit or rollback is faulted is discarded.
-/

namespace RecordGraph

inductive Call where
  | start
  | run (text : String)
  | commit
  | rollback
  | read (text : String)
deriving DecidableEq

structure FaultPlan where
  start : Option SessionError
  read : Option SessionError
  commit : Option SessionError
  rollback : Option SessionError
  /-- Faults of the runs of a transaction, by their number from one. -/
  runs : List (Nat × SessionError)
  /-- The number of the run that succeeds without returning nodes. -/
  emptyRun : Option Nat

def FaultPlan.none : FaultPlan := ⟨.none, .none, .none, .none, [], .none⟩

structure Traced (σ : Type) where
  inner : σ
  plan : FaultPlan
  calls : List Call

structure TracedTransaction (τ : Type) where
  inner : τ
  plan : FaultPlan
  calls : List Call
  runs : Nat

namespace Traced

variable {σ τ : Type} [Engine σ τ]

def read (s : Traced σ) (text : String) : Except SessionError (List GraphNode) × Traced σ :=
  let calls := s.calls ++ [.read text]
  match s.plan.read with
  | some e => (.error e, { s with calls := calls })
  | none =>
    let (result, inner) := Engine.read s.inner text
    (result, { s with inner := inner, calls := calls })

def start (s : Traced σ) : Except (SessionError × Traced σ) (TracedTransaction τ) :=
  let calls := s.calls ++ [.start]
  match s.plan.start with
  | some e => .error (e, { s with calls := calls })
  | none =>
    match Engine.start s.inner with
    | .error (e, inner) => .error (e, { s with inner := inner, calls := calls })
    | .ok inner => .ok ⟨inner, s.plan, calls, 0⟩

end Traced

namespace TracedTransaction

variable {σ τ : Type}

def run [Transaction τ] (t : TracedTransaction τ) (text : String) :
    Except SessionError (List GraphNode) × TracedTransaction τ :=
  let number := t.runs + 1
  let (result, inner) := Transaction.run t.inner text
  let after : TracedTransaction τ := ⟨inner, t.plan, t.calls ++ [.run text], number⟩
  match result with
  | .error e => (.error e, after)
  | .ok nodes =>
    match t.plan.runs.lookup number with
    | some e => (.error e, after)
    | none => (.ok (if t.plan.emptyRun = some number then [] else nodes), after)

/-- Ends a transaction, discarding it when a fault is planned. -/
def finish [Engine σ τ] (t : TracedTransaction τ) (call : Call) (fault : Option SessionError)
    (ending : τ → Except SessionError Unit × σ) : Except SessionError Unit × Traced σ :=
  let calls := t.calls ++ [call]
  match fault with
  | some e => (.error e, ⟨(Engine.rollback t.inner).2, t.plan, calls⟩)
  | none =>
    let (result, inner) := ending t.inner
    (result, ⟨inner, t.plan, calls⟩)

def commit [Engine σ τ] (t : TracedTransaction τ) : Except SessionError Unit × Traced σ :=
  t.finish .commit t.plan.commit Engine.commit

def rollback [Engine σ τ] (t : TracedTransaction τ) : Except SessionError Unit × Traced σ :=
  t.finish .rollback t.plan.rollback Engine.rollback

end TracedTransaction

instance {τ : Type} [Transaction τ] : Transaction (TracedTransaction τ) where
  run := TracedTransaction.run

instance {σ τ : Type} [Engine σ τ] : Engine (Traced σ) (TracedTransaction τ) where
  read := Traced.read
  start := Traced.start
  commit := TracedTransaction.commit
  rollback := TracedTransaction.rollback

end RecordGraph
