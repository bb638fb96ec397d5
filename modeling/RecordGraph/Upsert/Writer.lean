import RecordGraph.Upsert.Basic

/-!
Writing batches of records. A writer upserts records one by one through a session
that it owns and counts what became of them. Under the abort policy a failed
record ends the batch; under the skip policy it is counted and passed over.
-/

namespace RecordGraph

inductive FailurePolicy where
  | abort
  | skip
deriving DecidableEq, Repr, Inhabited

structure WriteSummary where
  created : Nat
  updated : Nat
  skipped : Nat
deriving DecidableEq, Repr

namespace WriteSummary

def zero : WriteSummary := ⟨0, 0, 0⟩

def total (s : WriteSummary) : Nat :=
  s.created + s.updated + s.skipped

def text (s : WriteSummary) : String :=
  Number.natText s.created ++ " created, " ++ Number.natText s.updated ++ " updated, " ++
    Number.natText s.skipped ++ " skipped"

def count (s : WriteSummary) (outcome : UpsertOutcome) : WriteSummary :=
  if outcome.isCreated then { s with created := s.created + 1 }
  else { s with updated := s.updated + 1 }

def countSkipped (s : WriteSummary) : WriteSummary :=
  { s with skipped := s.skipped + 1 }

@[simp] theorem total_count (s : WriteSummary) (outcome : UpsertOutcome) :
    (s.count outcome).total = s.total + 1 := by
  unfold count total
  split <;> simp only <;> omega

@[simp] theorem total_countSkipped (s : WriteSummary) :
    s.countSkipped.total = s.total + 1 := by
  simp only [countSkipped, total]
  omega

end WriteSummary

structure Writer (σ : Type) where
  session : σ
  settings : CompilerSettings
  relations : List Relation
  policy : FailurePolicy
  summary : WriteSummary

namespace Writer

variable {σ τ : Type} [Transaction τ] [Engine σ τ]

def create (session : σ) (settings : CompilerSettings) (relations : List Relation)
    (policy : FailurePolicy) : Writer σ :=
  ⟨session, settings, relations, policy, .zero⟩

def write (w : Writer σ) (record : Record) : Except UpsertError (Option UpsertOutcome) × Writer σ :=
  match w.settings.upsert w.session record w.relations with
  | (.ok outcome, session) =>
    (.ok (some outcome), { w with session := session, summary := w.summary.count outcome })
  | (.error e, session) =>
    match w.policy with
    | .abort => (.error e, { w with session := session })
    | .skip => (.ok none, { w with session := session, summary := w.summary.countSkipped })

/-- Upserts records in order, up to the first error that ends the batch. -/
def writeAll : List Record → Writer σ → Except UpsertError WriteSummary × Writer σ
  | [], w => (.ok w.summary, w)
  | record :: rest, w =>
    match w.write record with
    | (.ok _, w) => writeAll rest w
    | (.error e, w) => (.error e, w)

end Writer

end RecordGraph
