import RecordGraph.Proofs.SuccessfulUpsert

/-!
The same upsert again. A node made for a record whose values agree with themselves is the
only one with the record's key, however many rows its create statement has merged. From
then on every upsert of the record updates that node, which keeps its id, labels and key,
and no node or edge is added.
-/

namespace RecordGraph

open Dialect

namespace CompilerSettings

variable {s : CompilerSettings} {record : Record} {relations : List Relation} {g : Store}

structure Keeps (s : CompilerSettings) (record : Record) (id : Nat) (labels : List String)
    (nodeCount : Nat) (edges : List Edge) (g : Store) : Prop where
  wellFormed : g.WellFormed
  found : ∃ n, g.matching s.keyField (s.keyOf record) = [n] ∧ n.id = id ∧ n.labels = labels
  nodes : g.nodeCount = nodeCount
  edges : g.edges = edges

variable {id : Nat} {labels : List String} {nodeCount : Nat} {edges : List Edge}

theorem Keeps.upsert (h : s.Keeps record id labels nodeCount edges g) (hs : s.escape = .cypher)
    {identity : Identity} (hidentity : s.identityOf record = .ok identity)
    {update : CompiledStatement} (hupdate : s.compileUpdate record identity = .ok update)
    (relations : List Relation) :
    ∃ n g', s.upsert (⟨g, false⟩ : MemorySession) record relations =
        (.ok (.updated n), ⟨g', false⟩) ∧
      n.id = Number.natText id ∧ n.labels = labels ∧
      s.Keeps record id labels nodeCount edges g' := by
  obtain ⟨n, hn, rfl, rfl⟩ := h.found
  have hupsert := upsert_of_matching_singleton hs h.wellFormed hidentity hupdate hn relations
  obtain ⟨stats, hrun⟩ := run_updateStatement record h.wellFormed hn
  have hwell := h.wellFormed.steps
    ((s.updateStatement record (s.keyOf record)).changes_run g)
  rw [hrun] at hwell
  have hmem : n ∈ g.nodes := (Store.mem_matching.1 (hn ▸ List.mem_singleton_self n)).1
  have hmatching := h.wellFormed.matching_replace hmem (Node.id_assign n) (key_assign hupdate n)
    (s.keyOf record)
  rw [hn, List.map_singleton, if_pos (Node.id_assign n).symm] at hmatching
  refine ⟨_, _, hupsert, congrArg Number.natText (Node.id_assign n), Node.labels_assign n, hwell,
    ⟨_, hmatching, Node.id_assign n, Node.labels_assign n⟩, ?_, h.edges⟩
  rw [← h.nodes, Store.nodeCount, Store.replace, List.length_map, Store.nodeCount]

theorem Keeps.upserts (h : s.Keeps record id labels nodeCount edges g) (hs : s.escape = .cypher)
    {identity : Identity} (hidentity : s.identityOf record = .ok identity)
    {update : CompiledStatement} (hupdate : s.compileUpdate record identity = .ok update)
    (relations : List Relation) (times : Nat) :
    ∃ g', (fun session => (s.upsert session record relations).2)^[times]
        (⟨g, false⟩ : MemorySession) = ⟨g', false⟩ ∧
      s.Keeps record id labels nodeCount edges g' := by
  induction times generalizing g with
  | zero => exact ⟨g, rfl, h⟩
  | succ times ih =>
    obtain ⟨n, g', hupsert, -, -, hkeeps⟩ := h.upsert hs hidentity hupdate relations
    obtain ⟨g'', hrest, hfinal⟩ := ih hkeeps
    refine ⟨g'', ?_, hfinal⟩
    rw [Function.iterate_succ_apply, hupsert]
    exact hrest

variable {n : GraphNode} {session : MemorySession}

theorem Made.keeps (h : s.Made g record relations n session) (hs : s.escape = .cypher)
    (hfields : s.labelField ≠ s.keyField) (hr : record.Valid)
    (hitems : ∀ name items, record.Holds name (.array items) → ∀ v ∈ items, v.isNull = false)
    (hg : g.WellFormed) :
    s.Keeps record g.nextNode [s.labelOf record] session.graph.nodeCount session.graph.edges
      ((s.createStatement record relations).run g).2.store := by
  obtain ⟨c, hcreate⟩ := h.compiled
  obtain ⟨identity, layout, bound, hcreates⟩ := creates_of_compileCreate hcreate
  have hkeys := s.nodup_createdEntries hr.distinct
  have hcomparable : ∀ e ∈ (s.createdPattern record).properties.entries,
      e.2.comparable = true := fun e he =>
    hcreates.comparable_of_written hs h.written hitems e ((Dict.mem_entries_ofList hkeys).1 he)
  have hkey := hcreates.key_mem_createdPattern hr hfields
  obtain ⟨stats, hrun⟩ := run_createStatement_some hg (node_ne_of_validate hcreates.valid)
    hcomparable (findNodes_createdPattern hkey h.missing) h.choices relations
  have hnodes : ((s.createStatement record relations).run g).2.store.nodes =
      g.nodes ++ [s.createdNode g record] := by
    rw [hrun, Store.nodes_links, nodes_withNode]
  have hmatching : ((s.createStatement record relations).run g).2.store.matching s.keyField
      (s.keyOf record) = [s.createdNode g record] := by
    have hmem := h.mem_matching hfields hr
    have hmissing := h.missing
    rw [Store.matching] at hmissing hmem ⊢
    rw [hnodes, List.filter_append, hmissing, List.nil_append] at hmem ⊢
    exact List.filter_eq_self.2 fun m hm => List.mem_singleton.1 hm ▸ (List.mem_filter.1 hmem).2
  obtain rfl := h.session
  exact ⟨hg.steps ((s.createStatement record relations).changes_run g),
    ⟨_, hmatching, rfl, rfl⟩, rfl, rfl⟩

/-- After an upsert that has made a node, the same upsert, made any number of times again, updates
that node; the nodes and edges of the graph stay as many, and the edges stay the same. -/
theorem upsert_again (hs : s.escape = .cypher) (hfields : s.labelField ≠ s.keyField)
    (hr : record.Valid)
    (hitems : ∀ name items, record.Holds name (.array items) → ∀ v ∈ items, v.isNull = false)
    (hg : g.Reachable) (hcreated : s.upsert (⟨g, false⟩ : MemorySession) record relations =
      (.ok (.created n), session)) (times : Nat) :
    ∃ n' g', s.upsert ((fun session => (s.upsert session record relations).2)^[times] session)
        record relations = (.ok (.updated n'), ⟨g', false⟩) ∧
      n'.id = n.id ∧ n'.labels = n.labels ∧
      g'.nodeCount = session.graph.nodeCount ∧ g'.edgeCount = session.graph.edgeCount ∧
      g'.edges = session.graph.edges := by
  have hmade := made_of_upsert hs hfields hr hg.wellFormed hcreated
  obtain ⟨c, hcreate⟩ := hmade.compiled
  obtain ⟨identity, layout, bound, hcreates⟩ := creates_of_compileCreate hcreate
  obtain ⟨update, hupdate⟩ := hcreates.compileUpdate_ok
  have hkeeps := hmade.keeps hs hfields hr hitems hg.wellFormed
  obtain ⟨g', hsession, hkeeps'⟩ :=
    hkeeps.upserts hs hcreates.identified hupdate relations times
  obtain ⟨n', g'', hupsert, hid, hlabels, hfinal⟩ :=
    hkeeps'.upsert hs hcreates.identified hupdate relations
  rw [← hmade.session] at hsession
  obtain rfl := hmade.node
  refine ⟨n', g'', ?_, hid, hlabels, hfinal.nodes, ?_, hfinal.edges⟩
  · rw [hsession, hupsert]
  · rw [Store.edgeCount, hfinal.edges, Store.edgeCount]

end CompilerSettings

namespace Sample

def led : Record :=
  ⟨⟨"Team", [("type", .string), ("uid", .long), ("ranks", .array .string),
      ("lead", .ofRecord personSchema)]⟩,
    [("type", .string "Team"), ("uid", .long 9), ("ranks", .array [.string "a", .string "b"]),
      ("lead", person 7)]⟩

def ledBy : List Relation :=
  [⟨"LED_BY", .outgoing, "lead"⟩]

end Sample

theorem upsert_again_led : Sample.led.Valid ∧ Sample.crew.Reachable ∧
    (∀ x ∈ Sample.led.related,
      (CompilerSettings.default.matchesOf Sample.crew x).length = 2) ∧
    ∃ n session n' g', CompilerSettings.default.upsert (⟨Sample.crew, false⟩ : MemorySession)
        Sample.led Sample.ledBy = (.ok (.created n), session) ∧
      session.graph.edgeCount = 2 ∧
      CompilerSettings.default.upsert ((fun session =>
        (CompilerSettings.default.upsert session Sample.led Sample.ledBy).2)^[3] session)
        Sample.led Sample.ledBy = (.ok (.updated n'), ⟨g', false⟩) ∧
      n'.id = n.id ∧ n'.labels = n.labels ∧ g'.nodeCount = session.graph.nodeCount ∧
      g'.edgeCount = session.graph.edgeCount ∧ g'.edges = session.graph.edges := by
  have hvalid : Sample.led.Valid := by
    refine ⟨?_, rfl⟩
    unfold RecordSchema.Distinct
    decide
  have hreachable : Sample.crew.Reachable := .execute .empty _
  have hitems : ∀ name items, Sample.led.Holds name (.array items) →
      ∀ v ∈ items, v.isNull = false := by
    rintro name items ⟨schema, shape, hmem, -, -, hget⟩
    simp only [Sample.led, List.mem_cons, Prod.mk.injEq, List.not_mem_nil, or_false] at hmem
    rcases hmem with ⟨rfl, -⟩ | ⟨rfl, -⟩ | ⟨rfl, -⟩ | ⟨rfl, -⟩
    case inr.inr.inl =>
      obtain rfl := FieldValue.array.inj (Option.some.inj hget)
      simp [FieldValue.isNull]
    all_goals exact FieldValue.noConfusion (Option.some.inj hget)
  have hcreated : (CompilerSettings.default.upsert (⟨Sample.crew, false⟩ : MemorySession)
      Sample.led Sample.ledBy).1.toOption = some (.created ⟨"3", ["team"],
        Dict.ofList [("uid", .integer 9), ("ranks", .list [.string "a", .string "b"])]⟩) := by
    decide +kernel
  obtain ⟨n', g', hagain⟩ := CompilerSettings.upsert_again rfl (by decide) hvalid hitems hreachable
    (eq_ok_of_toOption hcreated) 3
  exact ⟨hvalid, hreachable, by decide +kernel, _, _, n', g', eq_ok_of_toOption hcreated,
    by decide +kernel, hagain⟩

end RecordGraph
