import RecordGraph.Proofs.ExistingNode
import RecordGraph.Proofs.MissingNode

/-!
Upserts that succeed. Either no node had the key and the create statement has made one,
or one node had it and has been assigned to. What the outcome shows is the new node or
the assigned one, also where a create statement that merges row by row has made more.
-/

namespace RecordGraph

open Dialect

namespace Dialect

variable {p : NodePattern} {g : Progress}

theorem noNull_of_mergePattern_ok {rows merged : List Row}
    (h : (mergePattern p rows g).1 = .ok merged) :
    ∀ e ∈ p.properties.entries, e.2.isNull = false := by
  unfold mergePattern at h
  split at h
  · simp at h
  · rename_i hnone
    simpa using hnone

theorem subset_nodes_mergeNodeRows (p : NodePattern) (rows : List Row) (g : Progress) :
    g.store.nodes ⊆ (mergeNodeRows p rows g).2.store.nodes := by
  refine rel_mergeNodeRows (R := fun s s' => s.nodes ⊆ s'.nodes) (fun _ => List.Subset.refl _)
    (fun h h' => List.Subset.trans h h') (fun g => ?_) rows g
  rcases nodes_findOrCreate p g with h | h
  · exact h ▸ List.Subset.refl _
  · exact h ▸ List.subset_append_left _ _

/-- The first row of a merge that finds nothing is bound to a node of its own, which stays,
whatever later rows make. -/
theorem mergeNodeRows_cons_ok {row : Row} {rest merged : List Row}
    (hnone : g.store.findNodes p.labels p.properties = [])
    (h : (mergeNodeRows p (row :: rest) g).1 = .ok merged) :
    ∃ more, merged = row.bind p.var g.store.nextNode :: more ∧
      Node.create g.store.nextNode p.labels p.properties ∈
        (mergeNodeRows p (row :: rest) g).2.store.nodes := by
  have hcreate := findOrCreate_of_none hnone
  have hsubset := subset_nodes_mergeNodeRows p rest (findOrCreate p g).2
  unfold mergeNodeRows at h ⊢
  split at h
  · simp at h
  rename_i hunbound
  simp only [hcreate] at h hsubset
  simp only [hunbound, hcreate]
  rcases hrest : mergeNodeRows p rest ⟨(g.store.createNode p.labels p.properties).2,
      { g.stats with nodesCreated := g.stats.nodesCreated + 1 }⟩ with ⟨e | rows, g'⟩
  · simp [hrest] at h
  · simp only [hrest] at h hsubset
    refine ⟨rows, by simpa using (Except.ok.inj h).symm, hsubset ?_⟩
    exact List.mem_append_right _ List.mem_cons_self

theorem rows_relationships {ps : List RelationshipPattern} {rows rows' : List Row}
    (h : (runClauses (ps.map .mergeRelationship) rows g).1 = .ok rows') : rows' = rows := by
  induction ps generalizing g with
  | nil => exact (Except.ok.inj h).symm
  | cons p rest ih =>
    rw [List.map_cons, runClauses, Clause.run_mergeRelationship] at h
    cases hrow : (eachRow (mergeRelationshipRow p) rows g).1 with
    | error e => simp [hrow, Except.map] at h
    | ok u =>
      simp only [hrow, Except.map] at h
      exact ih h

theorem returned_cons_ok {var : String} {store : Store} {row : Row} {rows : List Row} {id : Nat}
    {n : Node} {nodes : List Node} (hrow : row.node? var = some id)
    (h : returned var store (row :: rows) = .ok (n :: nodes)) : store.node? id = some n := by
  rw [returned, bound_eq hrow] at h
  cases hnode : store.node? id with
  | none => simp [bind, Except.bind, hnode] at h
  | some m =>
    cases hrest : returned var store rows with
    | error e => simp [bind, Except.bind, hnode, hrest] at h
    | ok rest =>
      simp only [bind, Except.bind, hnode, hrest, pure_eq_ok, List.cons.injEq] at h
      exact congrArg some h.1

end Dialect

theorem eq_ok_of_toOption {r : Except UpsertError UpsertOutcome × MemorySession}
    {outcome : UpsertOutcome} (h : r.1.toOption = some outcome) : r = (.ok outcome, r.2) := by
  obtain ⟨e | o, session⟩ := r
  · simp [Except.toOption] at h
  · obtain rfl := Option.some.inj h
    rfl

namespace CompilerSettings

variable {s : CompilerSettings} {record : Record} {relations : List Relation} {g : Store}

theorem run_createStatement_eq_ok {nodes : List Node}
    (h : ((s.createStatement record relations).run g).1 = .ok nodes) :
    ∃ rows g', mergePattern (s.createdPattern record) (s.choices g record.related) ⟨g, .zero⟩ =
        (.ok rows, g') ∧
      ((s.createStatement record relations).run g).2.store.nodes = g'.store.nodes ∧
      returned s.nodeAlias ((s.createStatement record relations).run g).2.store rows =
        .ok nodes := by
  rw [Statement.run, runClauses_createStatement, runClauses, Clause.run] at h ⊢
  rcases hmerge : mergePattern (s.createdPattern record) (s.choices g record.related)
    ⟨g, .zero⟩ with ⟨e | rows, g'⟩
  · simp [hmerge] at h
  have hkept := nodes_relationships (s.edgePatterns record relations) rows g'
  simp only [hmerge] at h ⊢
  rcases hrun : runClauses ((s.edgePatterns record relations).map .mergeRelationship) rows g'
    with ⟨e | rows', g''⟩
  · simp [hrun] at h
  · obtain rfl := rows_relationships (congrArg Prod.fst hrun)
    rw [hrun] at hkept
    simp only [hrun] at h ⊢
    exact ⟨rows', g', rfl, hkept, h⟩

theorem run_createStatement_cons (hg : g.WellFormed)
    (hnodes : ∀ x ∈ record.related, x.node ≠ s.nodeAlias)
    (hnone : g.findNodes (s.createdPattern record).labels (s.createdPattern record).properties =
      []) {n : Node} {more : List Node}
    (h : ((s.createStatement record relations).run g).1 = .ok (n :: more)) :
    (∀ e ∈ (s.createdPattern record).properties.entries, e.2.isNull = false) ∧
      s.choices g record.related ≠ [] ∧ n = s.createdNode g record ∧
      n ∈ ((s.createStatement record relations).run g).2.store.nodes := by
  have hwell := hg.steps ((s.createStatement record relations).changes_run g)
  obtain ⟨rows, g', hmerge, hkept, hreturned⟩ := run_createStatement_eq_ok h
  have hnull := noNull_of_mergePattern_ok (congrArg Prod.fst hmerge)
  rw [mergePattern_eq hnull] at hmerge
  have hchoices : s.choices g record.related ≠ [] := by
    intro hnil
    obtain ⟨stats, hrun⟩ := run_createStatement_none hnull hnil relations
    simp [hrun] at h
  obtain ⟨row, rest, hrows⟩ := List.exists_cons_of_ne_nil hchoices
  rw [hrows] at hmerge
  have hrow : row ∈ s.choices g record.related := hrows ▸ List.mem_cons_self
  obtain ⟨more', rfl, hmem⟩ := mergeNodeRows_cons_ok hnone (congrArg Prod.fst hmerge)
  rw [hmerge, ← hkept] at hmem
  have hfirst := returned_cons_ok
    (Row.node?_bind_self (unbound_of_mem_choices hnodes hrow) g.nextNode) hreturned
  -- Ids are unique in the final store, so the node with the first free id is the one made.
  obtain ⟨hn, hid⟩ := hwell.node?_eq_some_iff.1 hfirst
  exact ⟨hnull, hchoices, hwell.eq_of_id hn hmem hid, hn⟩

theorem Creates.key_mem_createdPattern {identity : Identity} {layout : Layout}
    {bound : List Layout.Bound} (h : s.Creates record identity layout bound) (hr : record.Valid)
    (hfields : s.labelField ≠ s.keyField) :
    (s.keyField, s.keyOf record) ∈ (s.createdPattern record).properties.entries :=
  (Dict.mem_entries_ofList (s.nodup_createdEntries hr.distinct)).2
    (h.key_mem_createdEntries hr rfl hfields)

theorem Creates.written_createdPattern {identity : Identity} {layout : Layout}
    {bound : List Layout.Bound} (h : s.Creates record identity layout bound)
    (hrecord : record.schema.Distinct) (hnulls : s.createNulls = .dropNull) :
    ∀ e ∈ (s.createdPattern record).properties.entries, e.2.isNull = false := fun e he =>
  h.written_of_dropNull hnulls e
    ((Dict.mem_entries_ofList (s.nodup_createdEntries hrecord)).1 he)

theorem settle_eq_ok {identity : Identity} {made : GraphNode → UpsertOutcome}
    {r : Except ExecutionError (List Node) × Store} {outcome : UpsertOutcome}
    {session : MemorySession} (h : settle identity made g r = (.ok outcome, session)) :
    ∃ n more, r.1 = .ok (n :: more) ∧ outcome = made (GraphNode.ofNode n) ∧
      session = ⟨r.2, false⟩ := by
  obtain ⟨e | _ | ⟨n, more⟩, g'⟩ := r
  · simp [settle] at h
  · simp [settle] at h
  · obtain ⟨houtcome, rfl⟩ := Prod.mk.inj h
    exact ⟨n, more, rfl, (Except.ok.inj houtcome).symm, rfl⟩

theorem upsert_of_matching_singleton (hs : s.escape = .cypher) (hg : g.WellFormed)
    {identity : Identity} (hidentity : s.identityOf record = .ok identity)
    {update : CompiledStatement} (hupdate : s.compileUpdate record identity = .ok update)
    {n : Node} (hn : g.matching s.keyField (s.keyOf record) = [n]) (relations : List Relation) :
    s.upsert (⟨g, false⟩ : MemorySession) record relations =
      (.ok (.updated (GraphNode.ofNode (n.assign (s.updatedEntries record)))),
        ⟨g.replace (n.assign (s.updatedEntries record)), false⟩) := by
  obtain ⟨stats, hrun⟩ := run_updateStatement record hg hn
  rw [upsert_eq hs hg hidentity hupdate relations, hn]
  simp only [execute_of_parse (parse_compileUpdate hs hidentity hupdate), hrun, settle]

theorem upsert_eq_ok (hs : s.escape = .cypher) (hg : g.WellFormed)
    (hrecord : record.schema.Distinct) {outcome : UpsertOutcome} {session : MemorySession}
    (h : s.upsert (⟨g, false⟩ : MemorySession) record relations = (.ok outcome, session)) :
    (g.matching s.keyField (s.keyOf record) = [] ∧
      ∃ c n more, s.compileCreate record relations = .ok c ∧
        ((s.createStatement record relations).run g).1 = .ok (n :: more) ∧
        outcome = .created (GraphNode.ofNode n) ∧
        session = ⟨((s.createStatement record relations).run g).2.store, false⟩) ∨
    ∃ n, g.matching s.keyField (s.keyOf record) = [n] ∧
      outcome = .updated (GraphNode.ofNode (n.assign (s.updatedEntries record))) ∧
      session = ⟨g.replace (n.assign (s.updatedEntries record)), false⟩ := by
  cases hprepared : s.prepareUpsert record relations with
  | error e => simp [upsert, hprepared] at h
  | ok prepared =>
    obtain ⟨hidentity, hupdate, -⟩ := prepareUpsert_eq_ok hprepared
    rcases hnodes : g.matching s.keyField (s.keyOf record) with _ | ⟨n, _ | ⟨m, more⟩⟩
    · rw [upsert_eq hs hg hidentity hupdate relations, hnodes] at h
      cases hcreate : s.compileCreate record relations with
      | error e => simp [hcreate] at h
      | ok c =>
        simp only [hcreate, execute_compileCreate hs hrecord hcreate] at h
        obtain ⟨n, more, hrun, houtcome, hsession⟩ := settle_eq_ok h
        exact .inl ⟨rfl, c, n, more, rfl, hrun, houtcome, hsession⟩
    · rw [upsert_of_matching_singleton hs hg hidentity hupdate hnodes] at h
      obtain ⟨houtcome, rfl⟩ := Prod.mk.inj h
      exact .inr ⟨n, rfl, (Except.ok.inj houtcome).symm, rfl⟩
    · rw [upsert_eq hs hg hidentity hupdate relations, hnodes] at h
      simp at h

/-- What an upsert that has made a node has done. -/
structure Made (s : CompilerSettings) (g : Store) (record : Record) (relations : List Relation)
    (n : GraphNode) (session : MemorySession) : Prop where
  missing : g.matching s.keyField (s.keyOf record) = []
  compiled : ∃ c, s.compileCreate record relations = .ok c
  written : ∀ e ∈ s.createdEntries record, e.2.isNull = false
  choices : s.choices g record.related ≠ []
  node : n = GraphNode.ofNode (s.createdNode g record)
  session : session = ⟨((s.createStatement record relations).run g).2.store, false⟩
  stays : s.createdNode g record ∈ ((s.createStatement record relations).run g).2.store.nodes

variable {n : GraphNode} {session : MemorySession}

theorem made_of_upsert (hs : s.escape = .cypher) (hfields : s.labelField ≠ s.keyField)
    (hr : record.Valid) (hg : g.WellFormed)
    (h : s.upsert (⟨g, false⟩ : MemorySession) record relations =
      (.ok (.created n), session)) : s.Made g record relations n session := by
  rcases upsert_eq_ok hs hg hr.distinct h with
    ⟨hmissing, c, m, more, hcreate, hrun, hnode, hsession⟩ | ⟨_, -, hupdated, -⟩
  · obtain ⟨identity, layout, bound, hcreates⟩ := creates_of_compileCreate hcreate
    have hkeys := s.nodup_createdEntries hr.distinct
    have hkey := hcreates.key_mem_createdPattern hr hfields
    obtain ⟨hnull, hchoices, rfl, hmem⟩ := run_createStatement_cons hg
      (node_ne_of_validate hcreates.valid) (findNodes_createdPattern hkey hmissing) hrun
    exact ⟨hmissing, ⟨c, hcreate⟩, fun e he => hnull e ((Dict.mem_entries_ofList hkeys).2 he),
      hchoices, UpsertOutcome.created.inj hnode, hsession, hmem⟩
  · exact UpsertOutcome.noConfusion hupdated

theorem Made.mem_matching (h : s.Made g record relations n session)
    (hfields : s.labelField ≠ s.keyField) (hr : record.Valid) :
    s.createdNode g record ∈ ((s.createStatement record relations).run g).2.store.matching
      s.keyField (s.keyOf record) := by
  obtain ⟨c, hcreate⟩ := h.compiled
  obtain ⟨identity, layout, bound, hcreates⟩ := creates_of_compileCreate hcreate
  have hkey := isKey_keyOf hcreates.identified
  refine Store.mem_matching.2 ⟨h.stays, s.keyOf record, ?_, ?_⟩
  · rw [property?_createdNode_iff hr.distinct h.written]
    exact hcreates.key_mem_createdEntries hr rfl hfields
  · exact (PropertyValue.agrees_iff_eq hkey hkey).2 rfl

theorem found_of_upsert (hs : s.escape = .cypher) (hg : g.WellFormed)
    (hrecord : record.schema.Distinct)
    (h : s.upsert (⟨g, false⟩ : MemorySession) record relations =
      (.ok (.updated n), session)) :
    ∃ m, g.matching s.keyField (s.keyOf record) = [m] ∧
      n = GraphNode.ofNode (m.assign (s.updatedEntries record)) := by
  rcases upsert_eq_ok hs hg hrecord h with
    ⟨-, _, _, _, -, -, hcreated, -⟩ | ⟨m, hm, houtcome, -⟩
  · exact UpsertOutcome.noConfusion hcreated
  · exact ⟨m, hm, UpsertOutcome.updated.inj houtcome⟩

end CompilerSettings

end RecordGraph
