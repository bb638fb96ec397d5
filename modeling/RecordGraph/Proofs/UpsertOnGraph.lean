import RecordGraph.Proofs.Agreement
import RecordGraph.Proofs.KeyStatements
import RecordGraph.Proofs.Matching
import RecordGraph.Session.Memory
import RecordGraph.Upsert.Basic

/-!
Upserts on a graph in memory. The nodes that match the record's key decide what is
run: none leads to the create statement, one to the update statement, and more are
ambiguous. The graph changes only when the statement that is run returns a node.
-/

namespace RecordGraph

open Dialect Statement

theorem Dialect.execute_of_parse {text : String} {st : Dialect.Statement}
    (h : Dialect.parse text = .ok st) (g : Store) :
    Dialect.execute text g = ((st.run g).1, (st.run g).2.store) := by
  simp [Dialect.execute, h]

theorem literal_of_isKey {v : FieldValue} (h : Identity.isKey v = true) (escape : Escape) :
    ∃ t, literal escape v = .ok t := by
  cases v <;> simp_all [Identity.isKey, literal]

theorem isBlank_of_isKey {v : FieldValue} (h : Identity.isKey v = true) : v.isBlank = false := by
  cases v <;> simp_all [Identity.isKey, FieldValue.isBlank]

theorem isNull_of_isKey {v : FieldValue} (h : Identity.isKey v = true) : v.isNull = false := by
  cases v <;> simp_all [Identity.isKey, FieldValue.isNull]

namespace CompilerSettings

variable {s : CompilerSettings} {record : Record} {identity : Identity}

theorem compileKeyLookup_of_isKey (s : CompilerSettings) (keyField : String) {v : FieldValue}
    (h : Identity.isKey v = true) : ∃ c, s.compileKeyLookup keyField v = .ok c :=
  (compileKeyLookup_ok_iff keyField v).2
    ⟨isBlank_of_isKey h, (literal_ok_iff s.escape v).1 (literal_of_isKey h s.escape)⟩

theorem compileLookup_ok (h : s.identityOf record = .ok identity) :
    ∃ c, s.compileLookup identity = .ok c := by
  obtain ⟨-, -, -, hkey⟩ := Identity.require_eq_ok h
  exact s.compileKeyLookup_of_isKey identity.keyField hkey

theorem keyOf_eq (h : s.identityOf record = .ok identity) :
    s.keyOf record = identity.keyValue.stored := by
  rw [keyOf, (Identity.require_eq_ok h).2.2.1, Option.getD_some]

theorem isKey_keyOf (h : s.identityOf record = .ok identity) : (s.keyOf record).isKey = true := by
  rw [keyOf_eq h]
  exact isKey_stored (Identity.require_eq_ok h).2.2.2

theorem execute_compileCreate (hs : s.escape = .cypher) (hrecord : record.schema.Distinct)
    {relations : List Relation} {c : CompiledStatement}
    (h : s.compileCreate record relations = .ok c) (g : Store) :
    Dialect.execute c.text g = (((s.createStatement record relations).run g).1,
      ((s.createStatement record relations).run g).2.store) := by
  obtain ⟨d, rfl, hdraft, hnode⟩ := holds_compileCreate hs hrecord h
  exact Dialect.execute_of_parse (hdraft.parse hnode) g

theorem execute_lookup (hs : s.escape = .cypher) {g : Store} (hg : g.WellFormed)
    {keyField : String} {keyValue : FieldValue} {c : CompiledStatement}
    (h : s.compileKeyLookup keyField keyValue = .ok c) :
    Dialect.execute c.text g = (.ok (g.matching keyField keyValue.stored), g) := by
  rw [Dialect.execute_of_parse (parse_compileKeyLookup hs h), Dialect.run_lookupStatement hg]

theorem findByKey_eq (hs : s.escape = .cypher) {g : Store} (hg : g.WellFormed) {keyField : String}
    {keyValue : FieldValue} {c : CompiledStatement}
    (h : s.compileKeyLookup keyField keyValue = .ok c) :
    s.findByKey (⟨g, false⟩ : MemorySession) keyField keyValue =
      (singleNode ((g.matching keyField keyValue.stored).map GraphNode.ofNode) keyField keyValue,
        ⟨g, false⟩) := by
  have hread : Engine.read (⟨g, false⟩ : MemorySession) c.text =
      (.ok ((g.matching keyField keyValue.stored).map GraphNode.ofNode), ⟨g, false⟩) := by
    have honly : (lookupStatement keyField keyValue.stored).isReadOnly = true := rfl
    simp only [Engine.read, MemorySession.read, Dialect.executeRead,
      parse_compileKeyLookup hs h, honly, Dialect.run_lookupStatement hg, MemorySession.nodesOf,
      Bool.false_eq_true, if_true, if_false]
  simp only [findByKey, h, hread]

/-- What a statement that has been run makes of an upsert: its first node, or an error that
leaves the graph as it was. -/
def settle (identity : Identity) (outcome : GraphNode → UpsertOutcome) (g : Store) :
    Except ExecutionError (List Node) × Store → Except UpsertError UpsertOutcome × MemorySession
  | (.error e, _) => (.error (.execution (MemorySession.rejected e)), ⟨g, false⟩)
  | (.ok [], _) =>
    (.error (.creationFailed identity.keyField identity.keyValue.display), ⟨g, false⟩)
  | (.ok (n :: _), g') => (.ok (outcome (GraphNode.ofNode n)), ⟨g', false⟩)

theorem writeNode_eq (p : PreparedUpsert) (g g' : Store) (c : CompiledStatement) :
    p.writeNode (⟨⟨g, false⟩, g'⟩ : MemoryTransaction) c =
      match Dialect.execute c.text g' with
      | (.error e, g'') => (.error (.execution (MemorySession.rejected e)), ⟨⟨g, false⟩, g''⟩)
      | (.ok [], g'') =>
        (.error (.creationFailed p.identity.keyField p.identity.keyValue.display),
          ⟨⟨g, false⟩, g''⟩)
      | (.ok (n :: _), g'') => (.ok (GraphNode.ofNode n), ⟨⟨g, false⟩, g''⟩) := by
  rcases h : Dialect.execute c.text g' with ⟨result, g''⟩
  simp only [PreparedUpsert.writeNode, Transaction.run, MemoryTransaction.run,
    MemorySession.execute, h]
  rcases result with e | _ | ⟨n, more⟩ <;> rfl

theorem prepareUpsert_ok (hidentity : s.identityOf record = .ok identity)
    {update : CompiledStatement} (hupdate : s.compileUpdate record identity = .ok update)
    (relations : List Relation) :
    ∃ lookup, s.compileLookup identity = .ok lookup ∧ s.prepareUpsert record relations =
      .ok ⟨identity, lookup, update, s.compileCreate record relations⟩ := by
  obtain ⟨lookup, hlookup⟩ := compileLookup_ok hidentity
  refine ⟨lookup, hlookup, ?_⟩
  simp only [prepareUpsert, bind_eq_ok, pure_eq_ok]
  exact ⟨identity, hidentity, lookup, hlookup, update, hupdate, rfl⟩

theorem prepareUpsert_eq_ok {relations : List Relation} {p : PreparedUpsert}
    (h : s.prepareUpsert record relations = .ok p) :
    s.identityOf record = .ok p.identity ∧ s.compileUpdate record p.identity = .ok p.update ∧
      p.create = s.compileCreate record relations := by
  simp only [prepareUpsert, bind_eq_ok, pure_eq_ok] at h
  obtain ⟨identity, hidentity, _, -, update, hupdate, rfl⟩ := h
  exact ⟨hidentity, hupdate, rfl⟩

/-- What an upsert comes to once its lookup has returned nodes. -/
def afterLookup (p : PreparedUpsert) (g : Store) :
    List Node → Except UpsertError UpsertOutcome × MemorySession
  | [] =>
    match p.create with
    | .error e => (.error (.compile e), ⟨g, false⟩)
    | .ok c => settle p.identity .created g (Dialect.execute c.text g)
  | [_] => settle p.identity .updated g (Dialect.execute p.update.text g)
  | nodes =>
    (.error (.ambiguous p.identity.keyField p.identity.keyValue.display nodes.length), ⟨g, false⟩)

theorem upsert_of_lookup {relations : List Relation} {p : PreparedUpsert}
    (hprepared : s.prepareUpsert record relations = .ok p) {g : Store} {nodes : List Node}
    (hlookup : Dialect.execute p.lookup.text g = (.ok nodes, g)) :
    s.upsert (⟨g, false⟩ : MemorySession) record relations = afterLookup p g nodes := by
  have hlook : Transaction.run (⟨⟨g, false⟩, g⟩ : MemoryTransaction) p.lookup.text =
      (.ok (nodes.map GraphNode.ofNode), ⟨⟨g, false⟩, g⟩) := by
    simp only [Transaction.run, MemoryTransaction.run, MemorySession.execute, hlookup,
      MemorySession.nodesOf]
  have hstart : (Engine.start (⟨g, false⟩ : MemorySession) :
      Except (SessionError × MemorySession) MemoryTransaction) = .ok ⟨⟨g, false⟩, g⟩ := rfl
  simp only [upsert, hprepared, hstart, PreparedUpsert.write, hlook]
  rcases nodes with _ | ⟨n, _ | ⟨m, more⟩⟩
  · -- Only here does it matter whether the create statement could be compiled.
    rw [afterLookup]
    cases p.create with
    | error e => rfl
    | ok c =>
      simp only [List.map_nil, singleNode, writeNode_eq]
      rcases Dialect.execute c.text g with ⟨e | _ | ⟨n, more⟩, g'⟩ <;> rfl
  · simp only [List.map_cons, List.map_nil, singleNode, writeNode_eq, afterLookup]
    rcases Dialect.execute p.update.text g with ⟨e | _ | ⟨n, more⟩, g'⟩ <;> rfl
  · simp only [List.map_cons, singleNode, List.length_cons, List.length_map]
    rfl

theorem upsert_eq (hs : s.escape = .cypher) {g : Store} (hg : g.WellFormed)
    (hidentity : s.identityOf record = .ok identity) {update : CompiledStatement}
    (hupdate : s.compileUpdate record identity = .ok update) (relations : List Relation) :
    s.upsert (⟨g, false⟩ : MemorySession) record relations =
      match g.matching s.keyField (s.keyOf record) with
      | [] =>
        match s.compileCreate record relations with
        | .error e => (.error (.compile e), ⟨g, false⟩)
        | .ok c => settle identity .created g (Dialect.execute c.text g)
      | [_] => settle identity .updated g (Dialect.execute update.text g)
      | nodes =>
        (.error (.ambiguous identity.keyField identity.keyValue.display nodes.length),
          ⟨g, false⟩) := by
  obtain ⟨lookup, hlookup, hprepared⟩ := prepareUpsert_ok hidentity hupdate relations
  have hrun := execute_lookup hs hg hlookup
  rw [(Identity.require_eq_ok hidentity).1, ← keyOf_eq hidentity] at hrun
  rw [upsert_of_lookup hprepared hrun]
  rcases g.matching s.keyField (s.keyOf record) with _ | ⟨n, _ | ⟨m, more⟩⟩ <;> rfl

end CompilerSettings

end RecordGraph
