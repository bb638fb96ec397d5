import RecordGraph.Proofs.ExistingNode
import RecordGraph.Proofs.KeyedStore
import RecordGraph.Proofs.NewNode

/-!
Runs of upserts. Related records have keys too, so in a store with unique keys the
match clauses leave one row at most and a create statement makes one node at most,
one whose key no node has. Updates never touch a key. So keys stay unique, and
nothing that is looked up by key is ambiguous.
-/

namespace RecordGraph

open Dialect Number

namespace Dialect

theorem nodes_mergePattern (p : NodePattern) {rows : List Row} (hrows : rows.length ≤ 1)
    (g : Progress) : (mergePattern p rows g).2.store.nodes = g.store.nodes ∨
      (mergePattern p rows g).2.store.nodes =
        g.store.nodes ++ [Node.create g.store.nextNode p.labels p.properties] := by
  unfold mergePattern
  split
  · exact .inl rfl
  · rcases rows with _ | ⟨row, _ | ⟨row', rest⟩⟩
    · exact .inl rfl
    · have hfind := nodes_findOrCreate p g
      unfold mergeNodeRows
      split
      · exact .inl rfl
      · rcases hfound : findOrCreate p g with ⟨found, g'⟩
        rw [hfound] at hfind
        exact hfind
    · simp at hrows

end Dialect

namespace CompilerSettings

variable {s : CompilerSettings} {record : Record} {g : Store}

theorem length_choices_le_one {xs : List RelatedRecord}
    (h : ∀ x ∈ xs, (s.matchesOf g x).length ≤ 1) : (s.choices g xs).length ≤ 1 := by
  induction xs with
  | nil => simp [choices]
  | cons x rest ih =>
    have hx := h x List.mem_cons_self
    have hrest := ih fun y hy => h y (List.mem_cons_of_mem _ hy)
    rcases hnodes : s.matchesOf g x with _ | ⟨n, _ | ⟨m, more⟩⟩
    · simp [choices, hnodes]
    · simpa [choices, hnodes] using hrest
    · simp [hnodes] at hx

theorem nodes_run_createStatement (h : ∀ x ∈ record.related, (s.matchesOf g x).length ≤ 1)
    (relations : List Relation) :
    ((s.createStatement record relations).run g).2.store.nodes = g.nodes ∨
      ((s.createStatement record relations).run g).2.store.nodes =
        g.nodes ++ [s.createdNode g record] := by
  -- One row matters: a pattern with a null in a list never fits its own node, so a merge over
  -- more rows would make a node for each of them.
  have hmerge := nodes_mergePattern (s.createdPattern record) (length_choices_le_one h) ⟨g, .zero⟩
  rw [Statement.run, runClauses_createStatement, runClauses, Clause.run]
  rcases hresult : mergePattern (s.createdPattern record) (s.choices g record.related)
    ⟨g, .zero⟩ with ⟨result, g'⟩
  rw [hresult] at hmerge
  cases result with
  | error e => exact hmerge
  | ok rows =>
    have hedges := nodes_relationships (s.edgePatterns record relations) rows g'
    simp only
    rcases hrun : runClauses ((s.edgePatterns record relations).map .mergeRelationship) rows g'
      with ⟨final, g''⟩
    rw [hrun] at hedges
    cases final with
    | error e => exact hmerge.imp hedges.trans hedges.trans
    | ok rows' => exact hmerge.imp hedges.trans hedges.trans

theorem isKey_related (hs : s.escape = .cypher) {relations : List Relation}
    {c : CompiledStatement} (h : s.compileCreate record relations = .ok c) {x : RelatedRecord}
    (hx : x ∈ record.related) : (s.keyOf x.record).isKey = true := by
  simp only [compileCreate, bind_eq_ok, mapError_eq_ok, layoutOf, Related.ofRecord_eq_ok_iff] at h
  obtain ⟨_, -, layout, hlayout, _, -, _, ⟨bound, hbound, related, hrelated, -⟩, -⟩ := h
  obtain ⟨-, hflat⟩ := Related.ofBound_ok hs (Record.bound_fits hbound) hrelated
  have hkeyed : List.Forall₂ (fun x (_ : String × Match) =>
      (s.keyOf x.record).isKey = true ∧ True) (relatedFrom 1 bound) related.flat := by
    refine hflat.flip.imp fun x m hm => ?_
    obtain ⟨-, -, -, -, hget, hkey⟩ := hm
    rw [keyOf, hget, Option.getD_some]
    exact ⟨isKey_stored hkey, trivial⟩
  rw [Record.related, Record.boundFields_eq hlayout hbound] at hx
  exact ((List.forall₂_and_left _ _).1 hkeyed).1 x hx

theorem key_createdNode {identity : Identity} {layout : Layout} {bound : List Layout.Bound}
    (h : s.Creates record identity layout bound) (hrecord : record.schema.Distinct)
    {v : PropertyValue} (hv : (s.createdNode g record).property? s.keyField = some v) :
    v = s.keyOf record := by
  have hkeys := s.nodup_createdEntries hrecord
  have hentry := (List.mem_filter.1 (Dict.mem_of_get? _ hv)).1
  rw [Dict.mem_entries_ofList hkeys, createdEntries,
    mem_entries_isProperty h.classified h.binds] at hentry
  obtain ⟨w, ⟨_, _, -, -, -, hw⟩, -, -, hwritten⟩ := hentry
  obtain ⟨-, -, hget, hkey⟩ := Identity.require_eq_ok h.identified
  obtain rfl := Option.some.inj (hget.symm.trans hw)
  have hblank := isBlank_of_isKey hkey
  have hnull := isNull_of_isKey hkey
  rw [keyOf_eq h.identified]
  cases hnulls : s.createNulls <;>
    simpa [hnulls, NullPolicy.written?, hnull, hblank] using hwritten.symm

theorem settle_session (identity : Identity) (outcome : GraphNode → UpsertOutcome) (g : Store)
    (r : Except ExecutionError (List Node) × Store) :
    (settle identity outcome g r).2 = ⟨g, false⟩ ∨
      (settle identity outcome g r).2 = ⟨r.2, false⟩ := by
  rcases r with ⟨e | _ | ⟨n, more⟩, g'⟩
  · exact .inl rfl
  · exact .inl rfl
  · exact .inr rfl

theorem settle_ne_ambiguous (identity : Identity) (outcome : GraphNode → UpsertOutcome) (g : Store)
    (r : Except ExecutionError (List Node) × Store) (keyField keyValue : String) (count : Nat) :
    (settle identity outcome g r).1 ≠ .error (.ambiguous keyField keyValue count) := by
  rcases r with ⟨e | _ | ⟨n, more⟩, g'⟩ <;> simp [settle]

theorem keyed_create (hs : s.escape = .cypher) (hg : g.Keyed s.keyField)
    (hrecord : record.schema.Distinct) {relations : List Relation} {c : CompiledStatement}
    (hcreate : s.compileCreate record relations = .ok c)
    (hmissing : g.matching s.keyField (s.keyOf record) = []) :
    (Dialect.execute c.text g).2.Keyed s.keyField := by
  obtain ⟨identity, layout, bound, hcreates⟩ := creates_of_compileCreate hcreate
  have hkey := isKey_keyOf hcreates.identified
  have hwell := hg.wellFormed.steps (steps_execute c.text g)
  rw [execute_compileCreate hs hrecord hcreate] at hwell ⊢
  have hfew : ∀ x ∈ record.related, (s.matchesOf g x).length ≤ 1 := fun x hx =>
    hg.length_matching_le_one (isKey_related hs hcreate hx)
  rcases nodes_run_createStatement hfew relations with hnodes | hnodes
  · exact hg.map hwell (hnodes.trans (List.map_id _).symm) fun _ _ => rfl
  · -- If the label stands in the key field, the new node has no key and nothing is to show.
    refine hg.append hwell hnodes fun v hv => ?_
    obtain rfl := key_createdNode hcreates hrecord hv
    exact ⟨hkey, hmissing⟩

theorem keyed_update (hs : s.escape = .cypher) (hg : g.Keyed s.keyField) {identity : Identity}
    (hidentity : s.identityOf record = .ok identity) {update : CompiledStatement}
    (hupdate : s.compileUpdate record identity = .ok update) {n : Node}
    (hn : g.matching s.keyField (s.keyOf record) = [n]) :
    (Dialect.execute update.text g).2.Keyed s.keyField := by
  have hwell := hg.wellFormed.steps (steps_execute update.text g)
  obtain ⟨stats, hrun⟩ := run_updateStatement record hg.wellFormed hn
  rw [execute_of_parse (parse_compileUpdate hs hidentity hupdate), hrun] at hwell ⊢
  have hmem : n ∈ g.nodes := (Store.mem_matching.1 (hn ▸ List.mem_singleton_self n)).1
  refine hg.map hwell rfl fun m hm => ?_
  by_cases hid : m.id = n.id
  · obtain rfl := hg.wellFormed.eq_of_id hm hmem hid
    rw [if_pos (Node.id_assign m).symm]
    exact key_assign hupdate m
  · rw [Node.id_assign, if_neg hid]

/-- The step lemma: an upsert keeps keys unique and is never ambiguous. -/
theorem keyed_upsert (hs : s.escape = .cypher) (hg : g.Keyed s.keyField)
    (hrecord : record.schema.Distinct) (relations : List Relation) :
    (∃ g', (s.upsert (⟨g, false⟩ : MemorySession) record relations).2 = ⟨g', false⟩ ∧
        g'.Keyed s.keyField) ∧
      ∀ keyField keyValue count, (s.upsert (⟨g, false⟩ : MemorySession) record relations).1 ≠
        .error (.ambiguous keyField keyValue count) := by
  cases hprepared : s.prepareUpsert record relations with
  | error e => simpa [upsert, hprepared] using hg
  | ok prepared =>
    obtain ⟨hidentity, hupdate, -⟩ := prepareUpsert_eq_ok hprepared
    have hkey := isKey_keyOf hidentity
    have hfew := hg.length_matching_le_one hkey
    rw [upsert_eq hs hg.wellFormed hidentity hupdate relations]
    rcases hnodes : g.matching s.keyField (s.keyOf record) with _ | ⟨n, _ | ⟨m, more⟩⟩
    · cases hcreate : s.compileCreate record relations with
      | error e => simpa using hg
      | ok c =>
        refine ⟨?_, settle_ne_ambiguous _ _ _ _⟩
        rcases settle_session prepared.identity .created g (Dialect.execute c.text g) with h | h
        · exact ⟨g, h, hg⟩
        · exact ⟨_, h, keyed_create hs hg hrecord hcreate hnodes⟩
    · refine ⟨?_, settle_ne_ambiguous _ _ _ _⟩
      rcases settle_session prepared.identity .updated g
        (Dialect.execute prepared.update.text g) with h | h
      · exact ⟨g, h, hg⟩
      · exact ⟨_, h, keyed_update hs hg hidentity hupdate hnodes⟩
    · simp [hnodes] at hfew

def upserts (s : CompilerSettings) (jobs : List (Record × List Relation)) : MemorySession :=
  jobs.foldl (fun session job => (s.upsert session job.1 job.2).2) ⟨Store.empty, false⟩

theorem keyed_upserts (hs : s.escape = .cypher) {jobs : List (Record × List Relation)}
    (hjobs : ∀ job ∈ jobs, job.1.schema.Distinct) :
    ∃ g, s.upserts jobs = ⟨g, false⟩ ∧ g.Keyed s.keyField := by
  have hrun : ∀ g : Store, g.Keyed s.keyField →
      ∃ g', jobs.foldl (fun session job => (s.upsert session job.1 job.2).2)
        (⟨g, false⟩ : MemorySession) = ⟨g', false⟩ ∧ g'.Keyed s.keyField := by
    induction jobs with
    | nil => exact fun g hg => ⟨g, rfl, hg⟩
    | cons job rest ih =>
      intro g hg
      obtain ⟨⟨g', hsession, hg'⟩, -⟩ := keyed_upsert hs hg (hjobs job List.mem_cons_self) job.2
      rw [List.foldl_cons, hsession]
      exact ih (fun j hj => hjobs j (List.mem_cons_of_mem _ hj)) g' hg'
  exact hrun Store.empty (.empty _)

theorem compileKeyLookup_of_blurs {value : FieldValue} {k l : PropertyValue}
    (h : value.stored.Blurs k l) (keyField : String) :
    ∃ c, s.compileKeyLookup keyField value = .ok c := by
  obtain ⟨x, i, j, hx, -, -, hbound, -, -⟩ := h
  have hsteps : x.steps ≠ 0 := Nat.ne_of_gt (Nat.lt_of_lt_of_le (by positivity) hbound)
  clear hbound
  refine (compileKeyLookup_ok_iff keyField value).2 ?_
  cases value with
  | float y =>
    obtain rfl := PropertyValue.float.inj hx
    refine ⟨rfl, ?_⟩
    cases y <;> simp_all [Binary.asDouble, Binary.isIntegral, Binary.shortest, Binary.steps,
      FieldValue.isWritable, Binary.isFinite]
  | double y =>
    obtain rfl := PropertyValue.float.inj hx
    refine ⟨rfl, ?_⟩
    cases y <;> simp_all [Binary.steps, FieldValue.isWritable, Binary.isFinite]
  | _ => simp at hx

theorem findByKey_ambiguous_iff (hs : s.escape = .cypher) (hg : g.Keyed s.keyField)
    (value : FieldValue) :
    (∃ keyField keyValue count, (s.findByKey (⟨g, false⟩ : MemorySession) s.keyField value).1 =
      .error (.ambiguous keyField keyValue count)) ↔ g.Confuses s.keyField value.stored := by
  rw [← hg.several_matching_iff]
  cases hlookup : s.compileKeyLookup s.keyField value with
  | error e =>
    refine iff_of_false (by simp [findByKey, hlookup]) fun hlength => ?_
    obtain ⟨m, -, n, -, k, l, -, -, -, hblurs⟩ := (hg.several_matching_iff _).1 hlength
    obtain ⟨c, hc⟩ := compileKeyLookup_of_blurs hblurs s.keyField
    rw [hlookup] at hc
    cases hc
  | ok c =>
    rw [findByKey_eq hs hg.wellFormed hlookup]
    rcases hnodes : g.matching s.keyField value.stored with _ | ⟨n, _ | ⟨m, more⟩⟩ <;>
      simp [singleNode]

/-- After any upserts no two nodes have keys that agree, and no further upsert is ambiguous. A
lookup by key is ambiguous only for a floating-point number that two different keys of the graph
are rounded to. -/
theorem unambiguous_upserts (hs : s.escape = .cypher) {jobs : List (Record × List Relation)}
    (hjobs : ∀ job ∈ jobs, job.1.schema.Distinct) :
    (∀ m ∈ (s.upserts jobs).graph.nodes, ∀ n ∈ (s.upserts jobs).graph.nodes, m ≠ n →
      ∀ v w, m.property? s.keyField = some v → n.property? s.keyField = some w →
        v.agrees w = false) ∧
    (∀ record : Record, record.schema.Distinct → ∀ relations keyField keyValue count,
      (s.upsert (s.upserts jobs) record relations).1 ≠
        .error (.ambiguous keyField keyValue count)) ∧
    (∀ value : FieldValue, (∃ keyField keyValue count,
      (s.findByKey (s.upserts jobs) s.keyField value).1 =
        .error (.ambiguous keyField keyValue count)) ↔
      (s.upserts jobs).graph.Confuses s.keyField value.stored) ∧
    (∀ record relations c, s.compileCreate record relations = .ok c → ∀ x ∈ record.related,
      (s.matchesOf (s.upserts jobs).graph x).length ≤ 1) := by
  obtain ⟨g, hsession, hg⟩ := keyed_upserts hs hjobs
  rw [hsession]
  refine ⟨fun m hm n hn hne v w hv hw => hg.agrees_eq_false hm hn hne hv hw, ?_,
    findByKey_ambiguous_iff hs hg, ?_⟩
  · intro record hrecord relations
    exact (keyed_upsert hs hg hrecord relations).2
  · intro record relations c hcreate x hx
    exact hg.length_matching_le_one (isKey_related hs hcreate hx)

end CompilerSettings

namespace Sample

def personNumbered (uid : Int64) : Record :=
  ⟨personSchema, [("type", .string "Person"), ("uid", .long uid)]⟩

def numberedNode (id : Nat) (uid : Int64) : Node :=
  Node.create id ["person"] (Dict.ofList [("uid", .integer uid)])

def neighbours : List (Record × List Relation) :=
  [(personNumbered 9007199254740992, []), (personNumbered 9007199254740993, [])]

def boundary : FieldValue :=
  .double (.ofInt .double 9007199254740992)

end Sample

theorem MemorySession.eq_of_graph {session : MemorySession} {g : Store} (hg : session.graph = g)
    (hopen : session.closed = false) : session = ⟨g, false⟩ := by
  obtain ⟨graph, closed⟩ := session
  subst hg
  subst hopen
  rfl

theorem upserts_neighbours : CompilerSettings.default.upserts Sample.neighbours =
    ⟨⟨[Sample.numberedNode 0 9007199254740992, Sample.numberedNode 1 9007199254740993], [], 2, 0⟩,
      false⟩ := by
  -- The graph in between is written out, since evaluation would run the first upsert many times.
  have hfirst : (CompilerSettings.default.upsert (⟨Store.empty, false⟩ : MemorySession)
      (Sample.personNumbered 9007199254740992) []).2 =
        ⟨⟨[Sample.numberedNode 0 9007199254740992], [], 1, 0⟩, false⟩ :=
    MemorySession.eq_of_graph (by decide +kernel) (by decide +kernel)
  have hsecond : (CompilerSettings.default.upsert
      (⟨⟨[Sample.numberedNode 0 9007199254740992], [], 1, 0⟩, false⟩ : MemorySession)
      (Sample.personNumbered 9007199254740993) []).2 =
        ⟨⟨[Sample.numberedNode 0 9007199254740992, Sample.numberedNode 1 9007199254740993], [], 2,
          0⟩, false⟩ :=
    MemorySession.eq_of_graph (by decide +kernel) (by decide +kernel)
  have hpair : ∀ (s : CompilerSettings) (r r' : Record) (rs rs' : List Relation),
      s.upserts [(r, rs), (r', rs')] =
        (s.upsert (s.upsert (⟨Store.empty, false⟩ : MemorySession) r rs).2 r' rs').2 :=
    fun _ _ _ _ _ => rfl
  rw [Sample.neighbours, hpair, hfirst, hsecond]

/-- Two keys round to one double, and a lookup for it is ambiguous. -/
theorem findByKey_neighbours : CompilerSettings.default.validate = .ok () ∧
    CompilerSettings.default.escape = .cypher ∧
    (∀ job ∈ Sample.neighbours, job.1.schema.Distinct) ∧
    (CompilerSettings.default.findByKey (CompilerSettings.default.upserts Sample.neighbours)
      CompilerSettings.default.keyField Sample.boundary).1 =
        .error (.ambiguous CompilerSettings.default.keyField Sample.boundary.display 2) := by
  have hcypher : CompilerSettings.default.escape = .cypher := rfl
  have hjobs : ∀ job ∈ Sample.neighbours, job.1.schema.Distinct := by
    unfold RecordSchema.Distinct
    decide
  obtain ⟨g, hsession, hg⟩ := CompilerSettings.keyed_upserts hcypher hjobs
  obtain rfl := (MemorySession.mk.inj (upserts_neighbours.symm.trans hsession)).1
  have hlength : ((⟨[Sample.numberedNode 0 9007199254740992,
      Sample.numberedNode 1 9007199254740993], [], 2, 0⟩ : Store).matching
        CompilerSettings.default.keyField Sample.boundary.stored).length = 2 := by decide +kernel
  have hlookup : (CompilerSettings.default.compileKeyLookup CompilerSettings.default.keyField
      Sample.boundary).toOption.isSome = true := by decide +kernel
  refine ⟨rfl, hcypher, hjobs, ?_⟩
  cases hcompiled : CompilerSettings.default.compileKeyLookup CompilerSettings.default.keyField
      Sample.boundary with
  | error e => simp [hcompiled, Except.toOption] at hlookup
  | ok c =>
    rw [hsession, CompilerSettings.findByKey_eq hcypher hg.wellFormed hcompiled]
    obtain ⟨m, n, hnodes⟩ := List.length_eq_two.1 hlength
    simp only [hnodes, List.map_cons, List.map_nil, singleNode, List.length_cons, List.length_nil]

theorem unambiguous_neighbours : CompilerSettings.default.escape = .cypher ∧
    (∀ job ∈ Sample.neighbours, job.1.schema.Distinct) ∧
    (CompilerSettings.default.upserts Sample.neighbours).graph.nodes.length = 2 ∧
    ∀ uid keyField keyValue count, (CompilerSettings.default.findByKey
      (CompilerSettings.default.upserts Sample.neighbours)
      CompilerSettings.default.keyField (.long uid)).1 ≠
        .error (.ambiguous keyField keyValue count) := by
  have hcypher : CompilerSettings.default.escape = .cypher := rfl
  have hjobs : ∀ job ∈ Sample.neighbours, job.1.schema.Distinct := by
    unfold RecordSchema.Distinct
    decide
  obtain ⟨-, -, hlookups, -⟩ := CompilerSettings.unambiguous_upserts hcypher hjobs
  refine ⟨hcypher, hjobs, by rw [upserts_neighbours]; rfl, fun uid keyField keyValue count h => ?_⟩
  obtain ⟨m, -, n, -, k, l, -, -, -, hblurs⟩ := (hlookups (.long uid)).1 ⟨_, _, _, h⟩
  exact PropertyValue.not_blurs_of_isKey rfl hblurs

end RecordGraph
