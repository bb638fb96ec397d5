import RecordGraph.Proofs.Scoping
import RecordGraph.Proofs.Statistics
import RecordGraph.Session.Memory

/-!
Rejected statements. A statement runs in place, and nothing is undone when it is rejected. The
first of its clauses that is out of scope changes nothing, nor does any clause after it, so what
is left is what the clauses before it, all of which succeed, have made of the graph.
-/

namespace RecordGraph

open Dialect

namespace Dialect

variable {scope : List String} {rows : List Row} {g : Progress}

instance (scope : List String) (c : Clause) : Decidable (c.Scoped scope) :=
  match c with
  | .matchNode _ => inferInstanceAs (Decidable True)
  | .mergeNode p => inferInstanceAs
      (Decidable (p.var ∉ scope ∧ ∀ e ∈ p.properties.entries, e.2.isNull = false))
  | .mergeRelationship p => inferInstanceAs (Decidable (p.left ∈ scope ∧ p.right ∈ scope))
  | .set a => inferInstanceAs (Decidable (a.var ∈ scope))

def inScope : List String → List Clause → List Clause
  | _, [] => []
  | scope, c :: rest =>
    if c.Scoped scope then c :: inScope (scope ++ c.binds?.toList) rest else []

/-! Clauses out of scope -/

def Outcome.Idle (g : Progress) (o : Outcome (List Row)) : Prop :=
  o.2 = g ∧ ∀ rows, o.1 = .ok rows → rows = []

theorem Outcome.Idle.error (g : Progress) (e : ExecutionError) :
    Outcome.Idle g (.error e, g) :=
  ⟨rfl, nofun⟩

theorem Outcome.Idle.nil (g : Progress) : Outcome.Idle g (.ok [], g) :=
  ⟨rfl, fun _ h => (Except.ok.inj h).symm⟩

theorem Clause.idle_of_nil (c : Clause) (g : Progress) : Outcome.Idle g (c.run [] g) := by
  cases c with
  | matchNode p => exact .nil g
  | mergeNode p =>
    change Outcome.Idle g (mergePattern p [] g)
    unfold mergePattern
    split
    · exact .error g _
    · exact .nil g
  | mergeRelationship p => exact .nil g
  | set a => exact .nil g

theorem bound_of_notMem {row : Row} {s : Store} (h : row.Covers scope s) {var : String}
    (hvar : var ∉ scope) : bound row var = .error (.unbound var) := by
  simp only [bound, h.unbound var hvar]

theorem Clause.idle_of_not_scoped {c : Clause} (hc : ¬c.Scoped scope)
    (h : Ready scope rows g.store) : Outcome.Idle g (c.run rows g) := by
  cases rows with
  | nil => exact c.idle_of_nil g
  | cons row rest =>
    have hrow := h.covers row List.mem_cons_self
    cases c with
    | matchNode p => exact absurd trivial hc
    | mergeNode p =>
      change Outcome.Idle g (mergePattern p (row :: rest) g)
      unfold mergePattern
      split
      · exact .error g _
      · rename_i hnone
        have hnull : ∀ e ∈ p.properties.entries, e.2.isNull = false := by
          simpa using List.find?_eq_none.1 hnone
        have hvar : p.var ∈ scope := by
          by_contra hvar
          exact hc ⟨hvar, hnull⟩
        obtain ⟨id, hid, -⟩ := hrow.reaches _ hvar
        rw [mergeNodeRows, if_pos (by simp [hid])]
        exact .error g _
    | mergeRelationship p =>
      have hfirst : ∃ e, mergeRelationshipRow p row g = (.error e, g) := by
        unfold mergeRelationshipRow
        by_cases hleft : p.left ∈ scope
        · have hright : p.right ∉ scope := fun hright => hc ⟨hleft, hright⟩
          obtain ⟨id, hid, -⟩ := hrow.reaches _ hleft
          exact ⟨_, by rw [bound_eq hid, bound_of_notMem hrow hright]⟩
        · exact ⟨_, by rw [bound_of_notMem hrow hleft]⟩
      obtain ⟨e, hfirst⟩ := hfirst
      rw [Clause.run, eachRow, hfirst]
      exact .error g e
    | set a =>
      rw [Clause.run, eachRow, setRow, bound_of_notMem hrow hc]
      exact .error g _

theorem idle_cons {c : Clause} {rest : List Clause} (h : Outcome.Idle g (c.run rows g))
    (hrest : Outcome.Idle g (runClauses rest [] g)) :
    Outcome.Idle g (runClauses (c :: rest) rows g) := by
  obtain ⟨hsame, hrows⟩ := h
  unfold runClauses
  rcases hresult : c.run rows g with ⟨result, g'⟩
  obtain rfl : g' = g := by rw [hresult] at hsame; exact hsame
  cases result with
  | error e => exact .error g' e
  | ok rows' =>
    obtain rfl := hrows rows' (by rw [hresult])
    exact hrest

theorem idle_runClauses (cs : List Clause) (g : Progress) :
    Outcome.Idle g (runClauses cs [] g) := by
  induction cs with
  | nil => exact .nil g
  | cons c rest ih => exact idle_cons (c.idle_of_nil g) ih

/-- The run lemma: the clauses in scope succeed, and those after them change nothing. -/
theorem run_inScope (cs : List Clause) (h : Ready scope rows g.store) :
    ∃ rows' g', runClauses (inScope scope cs) rows g = (.ok rows', g') ∧
      (runClauses cs rows g).2 = g' := by
  induction cs generalizing scope rows g with
  | nil => exact ⟨rows, g, rfl, rfl⟩
  | cons c rest ih =>
    by_cases hc : c.Scoped scope
    · obtain ⟨rows₁, g₁, hfirst, hready⟩ := hc.run h
      obtain ⟨rows₂, g₂, hrest, hsame⟩ := ih hready
      refine ⟨rows₂, g₂, ?_, ?_⟩
      · simp only [inScope, if_pos hc, runClauses, hfirst, hrest]
      · simp only [runClauses, hfirst, hsame]
    · have hidle := idle_cons (Clause.idle_of_not_scoped hc h) (idle_runClauses rest g)
      exact ⟨rows, g, by rw [inScope, if_neg hc]; rfl, hidle.1⟩

theorem progress_of_matches {cs : List Clause} (h : ∀ c ∈ cs, c.isMatch = true) (rows : List Row)
    (g : Progress) : (runClauses cs rows g).2 = g := by
  induction cs generalizing rows with
  | nil => rfl
  | cons c rest ih =>
    obtain ⟨hc, hrest⟩ := List.forall_mem_cons.1 h
    cases c with
    | matchNode p => exact ih hrest _
    | _ => cases hc

/-- What a text that is rejected leaves of a graph: the graph itself where it is no statement, else
what the clauses before the first that is out of scope have made of it. -/
inductive LeftBy (text : String) (g : Store) : Store → Prop
  | unread {cause : ParseError} (h : parse text = .error cause) : LeftBy text g g
  | stopped {s : Statement} {rows : List Row} {p : Progress} (hparse : parse text = .ok s)
      (hscope : ¬s.Scoped)
      (hrun : runClauses (inScope [] s.clauses) [[]] ⟨g, .zero⟩ = (.ok rows, p)) :
      LeftBy text g p.store

/-- Whether a text does nothing but match before its first clause that is out of scope. -/
def OnlyMatchesFirst (text : String) : Prop :=
  ∀ s, parse text = .ok s → ∀ c ∈ inScope [] s.clauses, c.isMatch = true

theorem LeftBy.eq_of_matches {text : String} {g g' : Store} (h : LeftBy text g g')
    (hmatches : OnlyMatchesFirst text) : g' = g := by
  cases h with
  | unread => rfl
  | @stopped s _ p hparse _ hrun =>
    have hsame := progress_of_matches (hmatches s hparse) [[]] ⟨g, .zero⟩
    rw [hrun] at hsame
    exact congrArg Progress.store hsame

theorem execute_leftBy {text : String} {g : Store} (hg : g.WellFormed) {e : ExecutionError}
    (h : (execute text g).1 = .error e) : LeftBy text g (execute text g).2 := by
  unfold execute at h ⊢
  cases hparse : parse text with
  | error cause => exact .unread hparse
  | ok s =>
    simp only [hparse] at h ⊢
    have hscope : ¬s.Scoped := by
      intro hscoped
      obtain ⟨nodes, hnodes⟩ := hscoped.run hg
      simp [hnodes] at h
    obtain ⟨rows, p, hrun, hsame⟩ := run_inScope s.clauses (g := ⟨g, .zero⟩) (.start hg)
    rw [Statement.run_snd, Statement.after, hsame]
    exact .stopped hparse hscope hrun

end Dialect

theorem MemorySession.execute_leftBy {text : String} {g : Store} (hg : g.WellFormed)
    {e : SessionError} (h : (execute g text).1 = .error e) :
    LeftBy text g (execute g text).2 := by
  unfold execute at h ⊢
  cases hresult : (Dialect.execute text g).1 with
  | error cause => exact Dialect.execute_leftBy hg hresult
  | ok nodes => simp [hresult, nodesOf] at h

namespace MemoryTransaction

def runAll (t : MemoryTransaction) (texts : List String) : MemoryTransaction :=
  texts.foldl (fun t text => (t.run text).2) t

theorem runAll_append (t : MemoryTransaction) (before after : List String) :
    t.runAll (before ++ after) = (t.runAll before).runAll after :=
  List.foldl_append

@[simp] theorem session_runAll (t : MemoryTransaction) (texts : List String) :
    (t.runAll texts).session = t.session := by
  induction texts generalizing t with
  | nil => rfl
  | cons text rest ih => exact ih (t.run text).2

theorem wellFormed_runAll {t : MemoryTransaction} (h : t.working.WellFormed) (texts : List String) :
    (t.runAll texts).working.WellFormed := by
  induction texts generalizing t with
  | nil => exact h
  | cons text rest ih => exact ih (h.steps (steps_execute text t.working))

theorem runAll_skip {t : MemoryTransaction} {before : List String} {text : String}
    (h : ((t.runAll before).run text).2.working = (t.runAll before).working)
    (after : List String) : t.runAll (before ++ text :: after) = t.runAll (before ++ after) := by
  have hsame : ((t.runAll before).run text).2 = t.runAll before :=
    calc ((t.runAll before).run text).2
        = { t.runAll before with working := ((t.runAll before).run text).2.working } := rfl
      _ = t.runAll before := by rw [h]
  rw [runAll_append, runAll_append, runAll, List.foldl_cons, hsame]
  rfl

end MemoryTransaction

/-- A rejected text leaves what its clauses before the first out of scope have made of the graph,
and so nothing new where these only match; in a transaction a commit publishes it all the same. -/
theorem rejected_leaves {session : MemorySession} (hg : session.graph.WellFormed) :
    (∀ text e, (MemorySession.execute session.graph text).1 = .error e →
      LeftBy text session.graph (MemorySession.execute session.graph text).2 ∧
      (OnlyMatchesFirst text →
        (MemorySession.execute session.graph text).2 = session.graph)) ∧
    ∀ t, session.start = .ok t →
      (∀ texts, (t.runAll texts).rollback = (.ok (), session) ∧
        (t.runAll texts).commit =
          (.ok (), { session with graph := (t.runAll texts).working })) ∧
      ∀ before text e, ((t.runAll before).run text).1 = .error e →
        LeftBy text (t.runAll before).working ((t.runAll before).run text).2.working ∧
        (OnlyMatchesFirst text → ∀ after,
          (t.runAll (before ++ text :: after)).commit = (t.runAll (before ++ after)).commit) := by
  refine ⟨fun text e h => ?_, fun t hstart => ?_⟩
  · have hleft := MemorySession.execute_leftBy hg h
    exact ⟨hleft, hleft.eq_of_matches⟩
  · obtain rfl : t = ⟨session, session.graph⟩ := by
      unfold MemorySession.start at hstart
      split at hstart
      · cases hstart
      · exact (Except.ok.inj hstart).symm
    refine ⟨fun texts => ⟨?_, ?_⟩, fun before text e h => ?_⟩
    · rw [MemoryTransaction.rollback, MemoryTransaction.session_runAll]
    · rw [MemoryTransaction.commit, MemoryTransaction.session_runAll]
    · have hleft := MemorySession.execute_leftBy (MemoryTransaction.wellFormed_runAll hg before) h
      refine ⟨hleft, fun hmatches after => ?_⟩
      rw [MemoryTransaction.runAll_skip (hleft.eq_of_matches hmatches)]

namespace Sample

def unreturned : String :=
  "MERGE (m:person \x7buid:'u1'\x7d) RETURN n"

def unset : String :=
  "MATCH (m:person) SET n.uid='u2' RETURN m"

def personStored : Store :=
  (Dialect.execute "MERGE (m:person \x7buid:'u1'\x7d) RETURN m" Store.empty).2

end Sample

theorem rejected_leaves_person : Sample.personStored.WellFormed ∧
    (MemorySession.execute Sample.personStored Sample.unset).1 =
      .error (.rejected "Variable 'n' is not bound") ∧
    (MemorySession.execute Sample.personStored Sample.unset).2 = Sample.personStored ∧
    ∃ t, (MemorySession.ofGraph Sample.personStored).start = .ok t ∧
      ((t.runAll [Sample.unreturned]).run Sample.unset).1 =
        .error (.rejected "Variable 'n' is not bound") ∧
      (t.runAll [Sample.unreturned, Sample.unset, Sample.unreturned]).commit =
        (t.runAll [Sample.unreturned, Sample.unreturned]).commit := by
  have hwell : Sample.personStored.WellFormed :=
    (Store.Reachable.execute .empty _).wellFormed
  have hmatches : OnlyMatchesFirst Sample.unset := by
    have hparse : parse Sample.unset = .ok ⟨[.matchNode ⟨"m", ["person"], Dict.empty⟩,
        .set ⟨"n", "uid", .string "u2"⟩], "m"⟩ := by decide +kernel
    intro s hs
    obtain rfl := Except.ok.inj (hparse.symm.trans hs)
    decide
  have hrejected : (MemorySession.execute Sample.personStored Sample.unset).1 =
      .error (.rejected "Variable 'n' is not bound") := by decide +kernel
  have hsession : (MemorySession.ofGraph Sample.personStored).graph.WellFormed := hwell
  obtain ⟨hdirect, htransaction⟩ := rejected_leaves hsession
  have hlater : ((MemoryTransaction.mk (.ofGraph Sample.personStored) Sample.personStored).runAll
      [Sample.unreturned] |>.run Sample.unset).1 =
        .error (.rejected "Variable 'n' is not bound") := by decide +kernel
  exact ⟨hwell, hrejected, (hdirect _ _ hrejected).2 hmatches, _, rfl, hlater,
    ((htransaction _ rfl).2 [Sample.unreturned] _ _ hlater).2 hmatches [Sample.unreturned]⟩

theorem rejected_keeps_person :
    (MemorySession.execute Store.empty Sample.unreturned).1 =
      .error (.rejected "Variable 'n' is not bound") ∧
    (MemorySession.execute Store.empty Sample.unreturned).2 ≠ Store.empty ∧
    ∃ t, (MemorySession.ofGraph Store.empty).start = .ok t ∧
      (t.run Sample.unreturned).1 = .error (.rejected "Variable 'n' is not bound") ∧
      (t.run Sample.unreturned).2.commit.2.graph ≠ t.commit.2.graph :=
  ⟨by decide +kernel, by decide +kernel, _, rfl, by decide +kernel, by decide +kernel⟩

end RecordGraph
