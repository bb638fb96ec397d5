import RecordGraph.Proofs.Links
import RecordGraph.Proofs.UpsertOnGraph

/-!
Upserts that fail. A transaction runs its statements on a copy of the graph and keeps
its session as it was, so whatever a failed upsert has merged on the way is forgotten.
An upsert of a record with two nodes or more always fails, and tells how many there
are.
-/

namespace RecordGraph

open Dialect

theorem MemoryTransaction.session_run (t : MemoryTransaction) (text : String) :
    (Transaction.run t text).2.session = t.session := rfl

namespace PreparedUpsert

theorem session_writeNode (p : PreparedUpsert) (t : MemoryTransaction) (c : CompiledStatement) :
    (p.writeNode t c).2.session = t.session := by
  have hrun := t.session_run c.text
  unfold writeNode
  rcases hresult : Transaction.run t c.text with ⟨e | _ | ⟨n, more⟩, t'⟩
  all_goals
    rw [hresult] at hrun
    exact hrun

theorem session_write (p : PreparedUpsert) (t : MemoryTransaction) :
    (p.write t).2.session = t.session := by
  have hlookup := t.session_run p.lookup.text
  unfold write
  rcases hfound : Transaction.run t p.lookup.text with ⟨e | nodes, t'⟩
  · rw [hfound] at hlookup
    exact hlookup
  · rw [hfound] at hlookup
    have hwrite : ∀ c, (p.writeNode t' c).2.session = t.session := fun c =>
      (p.session_writeNode t' c).trans hlookup
    rcases hnode : singleNode nodes p.identity.keyField p.identity.keyValue with e | _ | n
    · simpa only [hnode] using hlookup
    · cases hcreate : p.create with
      | error e => simpa only [hnode, hcreate] using hlookup
      | ok create =>
        have hcreated := hwrite create
        rcases hresult : p.writeNode t' create with ⟨e | m, t''⟩ <;>
          simpa only [hnode, hcreate, hresult] using hcreated
    · have hupdated := hwrite p.update
      rcases hresult : p.writeNode t' p.update with ⟨e | m, t''⟩ <;>
        simpa only [hnode, hresult] using hupdated

end PreparedUpsert

namespace Dialect

theorem length_run_lookupStatement (g : Store) (keyField : String) (value : PropertyValue) :
    ∃ nodes, (CompilerSettings.lookupStatement keyField value).run g = (.ok nodes, ⟨g, .zero⟩) ∧
      nodes.length = (g.matching keyField value).length := by
  have hrows : ∀ row ∈ (g.matching keyField value).map
      fun n => [(CompilerSettings.lookupAlias, n.id)],
      Row.Reaches row CompilerSettings.lookupAlias g := by
    intro row hrow
    obtain ⟨n, hn, rfl⟩ := List.mem_map.1 hrow
    refine ⟨n.id, CompilerSettings.node?_cons_self _ _ _, ?_⟩
    rw [Store.node?, List.find?_isSome]
    exact ⟨n, (Store.mem_matching.1 hn).1, decide_eq_true rfl⟩
  obtain ⟨nodes, hnodes, hreached⟩ := returned_of_reaches hrows
  have hlength := hreached.length_eq
  rw [List.length_map] at hlength
  refine ⟨nodes, ?_, hlength.symm⟩
  simp only [Statement.run, CompilerSettings.lookupStatement, runClauses, Clause.run,
    matchRows_keyPattern, hnodes]

end Dialect

namespace CompilerSettings

variable {s : CompilerSettings} {record : Record} {relations : List Relation}

theorem session_of_upsert_error {session : MemorySession} {e : UpsertError}
    (h : (s.upsert session record relations).1 = .error e) :
    (s.upsert session record relations).2 = session := by
  unfold upsert at h ⊢
  cases hprepared : s.prepareUpsert record relations with
  | error cause => rfl
  | ok prepared =>
    by_cases hclosed : session.closed = true
    · simp only [Engine.start, MemorySession.start, hclosed, if_true]
    · simp only [hprepared, Engine.start, MemorySession.start, hclosed, Bool.false_eq_true,
        if_false] at h ⊢
      have hsession := prepared.session_write ⟨session, session.graph⟩
      rcases hresult : prepared.write (⟨session, session.graph⟩ : MemoryTransaction)
        with ⟨cause | outcome, t⟩
      · rw [hresult] at hsession
        exact hsession
      · -- A commit in memory cannot fail, so an outcome stays one.
        simp [hresult, Engine.commit, MemoryTransaction.commit] at h

theorem upsert_of_two_le_length (hs : s.escape = .cypher) {g : Store} {identity : Identity}
    (hidentity : s.identityOf record = .ok identity) {update : CompiledStatement}
    (hupdate : s.compileUpdate record identity = .ok update)
    (hmany : 2 ≤ (g.matching s.keyField (s.keyOf record)).length) :
    s.upsert (⟨g, false⟩ : MemorySession) record relations =
      (.error (.ambiguous s.keyField identity.keyValue.display
        (g.matching s.keyField (s.keyOf record)).length), ⟨g, false⟩) := by
  obtain ⟨lookup, hlookup, hprepared⟩ := prepareUpsert_ok hidentity hupdate relations
  obtain ⟨hfield, -⟩ := Identity.require_eq_ok hidentity
  obtain ⟨nodes, hrun, hlength⟩ :=
    length_run_lookupStatement g s.keyField (s.keyOf record)
  have hparse := parse_compileKeyLookup hs hlookup
  rw [hfield, ← keyOf_eq hidentity] at hparse
  have hfound : Dialect.execute lookup.text g = (.ok nodes, g) := by
    rw [execute_of_parse hparse, hrun]
  rw [upsert_of_lookup hprepared hfound, ← hlength, ← hfield]
  rcases nodes with _ | ⟨n, _ | ⟨m, more⟩⟩
  · simp [← hlength] at hmany
  · simp [← hlength] at hmany
  · rfl

/-- A failed upsert leaves the session and its graph as they were, whatever has failed it; and
two nodes or more with the record's key fail it with their number. -/
theorem upsert_error (s : CompilerSettings) (session : MemorySession) (record : Record)
    (relations : List Relation) :
    (∀ e, (s.upsert session record relations).1 = .error e →
      (s.upsert session record relations).2 = session) ∧
    (s.escape = .cypher → session.closed = false →
      ∀ identity update, s.identityOf record = .ok identity →
        s.compileUpdate record identity = .ok update →
        2 ≤ (session.graph.matching s.keyField (s.keyOf record)).length →
        (s.upsert session record relations).1 =
          .error (.ambiguous s.keyField identity.keyValue.display
            (session.graph.matching s.keyField (s.keyOf record)).length)) := by
  refine ⟨fun e => session_of_upsert_error, ?_⟩
  intro hs hopen identity update hidentity hupdate hmany
  obtain ⟨g, closed⟩ := session
  obtain rfl : closed = false := hopen
  rw [upsert_of_two_le_length hs hidentity hupdate hmany]

end CompilerSettings

namespace Sample

def named (name : String) : Record :=
  ⟨⟨"Person", [("type", .string), ("uid", .string), ("name", .string)]⟩,
    [("type", .string "Person"), ("uid", .string "7"), ("name", .string name)]⟩

def unescaped : CompilerSettings :=
  { CompilerSettings.default with escape := .verbatim }

def breakout : String :=
  "'\x7d) MERGE (m)-[:KNOWS]->(p) MERGE (q \x7bn:'"

def twins : Store :=
  (Dialect.execute "MERGE (a:person \x7buid:'7'\x7d) MERGE (b:captain \x7buid:'7'\x7d) RETURN a"
    Store.empty).2

end Sample

/-- The statement fails after it has merged a node, and the node is forgotten; two nodes with the
key are one error for both. -/
theorem upsert_error_breakout :
    (∃ c, Sample.unescaped.compileCreate (Sample.named Sample.breakout) [] = .ok c ∧
      (Dialect.execute c.text Store.empty).2.nodes.length = 1) ∧
    (Sample.unescaped.upsert (⟨Store.empty, false⟩ : MemorySession)
      (Sample.named Sample.breakout) []).1.toOption = none ∧
    (Sample.unescaped.upsert (⟨Store.empty, false⟩ : MemorySession)
      (Sample.named Sample.breakout) []).2 = ⟨Store.empty, false⟩ ∧
    (CompilerSettings.default.upsert (⟨Sample.twins, false⟩ : MemorySession)
      (Sample.named "Ann") []).1 = .error (.ambiguous "uid" "7" 2) := by
  have hfailed : (Sample.unescaped.upsert (⟨Store.empty, false⟩ : MemorySession)
      (Sample.named Sample.breakout) []).1.toOption = none := by decide +kernel
  have hsession : (Sample.unescaped.upsert (⟨Store.empty, false⟩ : MemorySession)
      (Sample.named Sample.breakout) []).2 = ⟨Store.empty, false⟩ := by
    cases hresult : (Sample.unescaped.upsert (⟨Store.empty, false⟩ : MemorySession)
        (Sample.named Sample.breakout) []).1 with
    | ok outcome => simp [hresult, Except.toOption] at hfailed
    | error e => exact (CompilerSettings.upsert_error _ _ _ _).1 e hresult
  have hmany : (Sample.twins.matching "uid" (.string "7")).length = 2 := by decide +kernel
  have hkey : CompilerSettings.default.keyOf (Sample.named "Ann") = .string "7" := rfl
  have hcount : (Sample.twins.matching CompilerSettings.default.keyField
      (CompilerSettings.default.keyOf (Sample.named "Ann"))).length = 2 := hkey ▸ hmany
  obtain ⟨update, hupdate⟩ : ∃ c, CompilerSettings.default.compileUpdate (Sample.named "Ann")
      ⟨"person", "uid", .string "7"⟩ = .ok c := ⟨_, rfl⟩
  have hambiguous := (CompilerSettings.upsert_error CompilerSettings.default ⟨Sample.twins, false⟩
    (Sample.named "Ann") []).2 rfl rfl ⟨"person", "uid", .string "7"⟩ update rfl hupdate
      (le_of_eq hcount.symm)
  rw [hcount] at hambiguous
  exact ⟨⟨_, rfl, by decide +kernel⟩, hfailed, hsession, hambiguous⟩

end RecordGraph
