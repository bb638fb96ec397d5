import RecordGraph.Proofs.NewNode

/-!
Upserts of a record without a node, as a whole. Requests are made row by row, so one
node may be asked for many times; what counts is which relations lead to it, in
which order, and that decides which edges there are in the end.
-/

namespace RecordGraph

open Dialect

namespace CompilerSettings

variable {s : CompilerSettings} {record : Record} {g : Store}

def targets (s : CompilerSettings) (g : Store) (record : Record) (r : Relation) : List Nat :=
  (record.related.filter fun x => x.field = r.field).flatMap fun x =>
    (s.matchesOf g x).map (·.id)

def directionsTo (s : CompilerSettings) (g : Store) (record : Record) (relations : List Relation)
    (type : String) (node : Nat) : List Direction :=
  (relations.filter fun r => r.label = type ∧ node ∈ s.targets g record r).map (·.direction)

end CompilerSettings

/-- The same directions, begun by the same one. -/
def SameDirections (ds ds' : List Direction) : Prop :=
  ds.head? = ds'.head? ∧ ∀ d, d ∈ ds ↔ d ∈ ds'

theorem SameDirections.leaves_iff {ds ds' : List Direction} (h : SameDirections ds ds') :
    leaves ds ↔ leaves ds' := by
  rw [leaves, leaves, h.1, h.2]

theorem SameDirections.append {block ds ds' : List Direction} {d : Direction}
    (hblock : ∀ c ∈ block, c = d) (h : SameDirections ds ds') :
    SameDirections (block ++ ds) (if block = [] then ds' else d :: ds') := by
  cases block with
  | nil => simpa using h
  | cons c rest =>
    obtain rfl := hblock c List.mem_cons_self
    refine ⟨rfl, fun e => ?_⟩
    have hrest : e ∈ rest → e = c := fun he => hblock e (List.mem_cons_of_mem _ he)
    simp only [List.cons_append, List.mem_cons, List.mem_append, h.2, reduceCtorEq, if_false]
    tauto

theorem directions_append (qs qs' : List Request) (type : String) (node : Nat) :
    directions (qs ++ qs') type node = directions qs type node ++ directions qs' type node := by
  simp [directions]

theorem directions_block {qs : List Request} {d : Direction} {label : String}
    (h : ∀ q ∈ qs, q.direction = d ∧ q.type = label) (type : String) (node : Nat) :
    (∀ c ∈ directions qs type node, c = d) ∧
      (directions qs type node = [] ↔ ¬ (label = type ∧ node ∈ qs.map (·.node))) := by
  constructor
  · intro c hc
    obtain ⟨q, hq, rfl⟩ := List.mem_map.1 hc
    exact (h q (List.mem_filter.1 hq).1).1
  · simp only [directions, List.map_eq_nil_iff, List.filter_eq_nil_iff, decide_eq_true_eq,
      List.mem_map, not_and, not_exists]
    exact ⟨fun hnone hlabel q hq => hnone q hq ((h q hq).2.trans hlabel),
      fun hnone q hq htype => hnone ((h q hq).2.symm.trans htype) q hq⟩

namespace CompilerSettings

variable {s : CompilerSettings} {record : Record} {g : Store}

theorem nodes_requests (hfound : ∀ x ∈ record.related, s.matchesOf g x ≠ []) (r : Relation)
    (node : Nat) :
    node ∈ (s.requests g record [r]).map (·.node) ↔ node ∈ s.targets g record r := by
  simp only [requests, targets, List.flatMap_cons, List.flatMap_nil, List.append_nil,
    List.map_flatMap, List.map_map, List.mem_flatMap, List.mem_map, Function.comp_apply]
  refine exists_congr fun x => and_congr_right fun hx => ?_
  have hrelated := (List.mem_filter.1 hx).1
  constructor
  · rintro ⟨row, hrow, rfl⟩
    obtain ⟨n, hn, hid⟩ := bound_of_mem_choices record.nodup_related hrow hrelated
    exact ⟨n, hn, by rw [hid, Option.getD_some]⟩
  · rintro ⟨n, hn, rfl⟩
    obtain ⟨row, hrow, hid⟩ := exists_choice record.nodup_related hfound hrelated hn
    exact ⟨row, hrow, by rw [hid, Option.getD_some]⟩

theorem requests_cons (r : Relation) (rest : List Relation) :
    s.requests g record (r :: rest) = s.requests g record [r] ++ s.requests g record rest := by
  simp [requests]

theorem sameDirections_requests (hfound : ∀ x ∈ record.related, s.matchesOf g x ≠ [])
    (relations : List Relation) (type : String) (node : Nat) :
    SameDirections (directions (s.requests g record relations) type node)
      (s.directionsTo g record relations type node) := by
  induction relations with
  | nil => exact ⟨rfl, fun _ => Iff.rfl⟩
  | cons r rest ih =>
    -- All requests of one relation have its direction, so they count as one.
    have hblock : ∀ q ∈ s.requests g record [r], q.direction = r.direction ∧ q.type = r.label := by
      intro q hq
      simp only [requests, List.flatMap_cons, List.flatMap_nil, List.append_nil,
        List.mem_flatMap, List.mem_map] at hq
      obtain ⟨x, -, row, -, rfl⟩ := hq
      exact ⟨rfl, rfl⟩
    obtain ⟨hsame, hempty⟩ := directions_block hblock type node
    rw [nodes_requests hfound] at hempty
    have happend := ih.append hsame
    rw [requests_cons, directions_append]
    by_cases hr : r.label = type ∧ node ∈ s.targets g record r
    · rw [if_neg (fun h => hempty.1 h hr)] at happend
      simpa [directionsTo, hr] using happend
    · rw [if_pos (hempty.2 hr)] at happend
      simpa [directionsTo, hr] using happend

theorem choices_ne_nil_iff : s.choices g record.related ≠ [] ↔
    ∀ x ∈ record.related, s.matchesOf g x ≠ [] := by
  rw [Ne, choices_eq_nil_iff]
  simp

theorem node_ne_of_validate (hvalid : s.validate = .ok ()) :
    ∀ x ∈ record.related, x.node ≠ s.nodeAlias := by
  intro x hx heq
  have hreserved := ((validate_eq_ok_iff s).1 hvalid).2.1
  rw [← heq, Record.isMatchAlias_related record hx] at hreserved
  exact Bool.noConfusion hreserved

theorem findNodes_createdPattern
    (hkey : (s.keyField, s.keyOf record) ∈ (s.createdPattern record).properties.entries)
    (hmissing : g.matching s.keyField (s.keyOf record) = []) :
    g.findNodes (s.createdPattern record).labels (s.createdPattern record).properties = [] := by
  rw [Store.findNodes, List.map_eq_nil_iff, List.filter_eq_nil_iff]
  intro n hn hfits
  simp only [Node.fits, Bool.and_eq_true, List.all_eq_true] at hfits
  have hagrees := hfits.2 _ hkey
  rw [Store.matching, List.filter_eq_nil_iff] at hmissing
  exact hmissing n hn hagrees

variable {identity : Identity} {layout : Layout} {bound : List Layout.Bound}

theorem property?_createdNode (h : s.Creates record identity layout bound) (hr : record.Valid)
    (hnulls : s.createNulls = .dropNull)
    (hcomparable : ∀ e ∈ (s.createdPattern record).properties.entries, e.2.comparable = true)
    (name : String) (value : PropertyValue) :
    (s.createdNode g record).property? name = some value ↔
      ∃ v, record.Holds name v ∧ name ≠ s.labelField ∧ v.isNull = false ∧ v.stored = value := by
  have hkeys := s.nodup_createdEntries hr.distinct
  have hwritten : ∀ e ∈ s.createdEntries record, e.2.isNull = false := fun e he =>
    isNull_of_comparable (hcomparable e ((Dict.mem_entries_ofList hkeys).2 he))
  exact (property?_createdNode_iff hr.distinct hwritten g name value).trans
    (h.mem_createdEntries hnulls)

theorem links_withNode (s : CompilerSettings) (record : Record) (hg : g.WellFormed)
    (relations : List Relation) :
    ∃ added, ((s.requests g record relations).map (Request.link g.nextNode)).foldl Store.link
        (s.withNode g record) = ⟨g.nodes ++ [s.createdNode g record], g.edges ++ added,
          g.nextNode + 1, g.nextEdge + added.length⟩ ∧
      Granted g.nextNode (s.requests g record relations) added := by
  have hold : ∀ e ∈ (s.withNode g record).edges,
      e.source ≠ g.nextNode ∧ e.target ≠ g.nextNode := fun e he =>
    (hg.ends e he).imp Nat.ne_of_lt Nat.ne_of_lt
  have hnodes : ∀ q ∈ s.requests g record relations, q.node ≠ g.nextNode := by
    intro q hq
    simp only [requests, List.mem_flatMap, List.mem_map] at hq
    obtain ⟨r, -, x, hx, row, hrow, rfl⟩ := hq
    obtain ⟨id, hid, hlt⟩ := reaches_of_mem_choices hg hrow (List.mem_filter.1 hx).1
    rw [hid]
    exact Nat.ne_of_lt hlt
  obtain ⟨added, hedges, hgranted⟩ := granted_links hold hnodes
  exact ⟨added, Store.links_eq _ _ hedges, hgranted⟩

/-- What a create adds to a graph: one node, and edges as the relations ask for them. -/
structure Adds (s : CompilerSettings) (g : Store) (record : Record) (relations : List Relation)
    (n : Node) (added : List Edge) : Prop where
  id : n.id = g.nextNode
  labels : n.labels = [s.labelOf record]
  properties : ∀ name value, n.property? name = some value ↔
    ∃ v, record.Holds name v ∧ name ≠ s.labelField ∧ v.isNull = false ∧ v.stored = value
  nodup : (added.map fun e => (e.source, e.target, e.type)).Nodup
  ends : ∀ e ∈ added, e.source = n.id ∧ e.target ≠ n.id ∨ e.target = n.id ∧ e.source ≠ n.id
  outgoing : ∀ node type, (∃ e ∈ added, e.links n.id node type = true) ↔
    leaves (s.directionsTo g record relations type node)
  incoming : ∀ node type, (∃ e ∈ added, e.links node n.id type = true) ↔
    .incoming ∈ s.directionsTo g record relations type node

theorem Creates.adds (h : s.Creates record identity layout bound) (hr : record.Valid)
    (hnulls : s.createNulls = .dropNull)
    (hcomparable : ∀ e ∈ (s.createdPattern record).properties.entries, e.2.comparable = true)
    (hfound : ∀ x ∈ record.related, s.matchesOf g x ≠ []) {relations : List Relation}
    {added : List Edge} (hgranted : Granted g.nextNode (s.requests g record relations) added) :
    s.Adds g record relations (s.createdNode g record) added where
  id := rfl
  labels := rfl
  properties := property?_createdNode h hr hnulls hcomparable
  nodup := hgranted.nodup
  ends := hgranted.ends
  outgoing node type := (hgranted.outgoing node type).trans
    (sameDirections_requests hfound relations type node).leaves_iff
  incoming node type := (hgranted.incoming node type).trans
    ((sameDirections_requests hfound relations type node).2 _)

/-- An upsert of a record without a node makes nothing unless every related record has a node;
otherwise it makes one node with its edges and leaves the rest of the graph as it was. -/
theorem upsert_missing (hs : s.escape = .cypher) (hnulls : s.createNulls = .dropNull)
    (hfields : s.labelField ≠ s.keyField) (hr : record.Valid)
    (hitems : ∀ name items, record.Holds name (.array items) → ∀ v ∈ items, v.isNull = false)
    (hg : g.Reachable) {relations : List Relation} {c : CompiledStatement}
    (hcreate : s.compileCreate record relations = .ok c)
    (hmissing : g.matching s.keyField (s.keyOf record) = []) :
    ((∃ x ∈ record.related, s.matchesOf g x = []) →
      s.upsert (⟨g, false⟩ : MemorySession) record relations =
        (.error (.creationFailed s.keyField ((record.get? s.keyField).getD .null).display),
          ⟨g, false⟩)) ∧
    ((∀ x ∈ record.related, s.matchesOf g x ≠ []) →
      ∃ n added, s.upsert (⟨g, false⟩ : MemorySession) record relations =
          (.ok (.created (GraphNode.ofNode n)),
            ⟨⟨g.nodes ++ [n], g.edges ++ added, g.nextNode + 1, g.nextEdge + added.length⟩,
              false⟩) ∧
        s.Adds g record relations n added) := by
  have hwell := hg.wellFormed
  obtain ⟨identity, layout, bound, hcreates⟩ := creates_of_compileCreate hcreate
  obtain ⟨update, hupdate⟩ := hcreates.compileUpdate_ok
  have hkeys := s.nodup_createdEntries hr.distinct
  -- Later rows find the node of the first one only if every property agrees with itself.
  have hcomparable : ∀ e ∈ (s.createdPattern record).properties.entries,
      e.2.comparable = true := fun e he =>
    hcreates.comparable_createdEntries hs hnulls hitems e ((Dict.mem_entries_ofList hkeys).1 he)
  have hkey : (s.keyField, s.keyOf record) ∈ (s.createdPattern record).properties.entries :=
    (Dict.mem_entries_ofList hkeys).2 (hcreates.key_mem_createdEntries hr hnulls hfields)
  have hnone := findNodes_createdPattern hkey hmissing
  have hupsert := upsert_eq hs hwell hcreates.identified hupdate relations
  rw [hmissing] at hupsert
  simp only [hcreate, execute_compileCreate hs hr.distinct hcreate] at hupsert
  constructor
  · rintro hunmatched
    have hnull := fun e he => isNull_of_comparable (hcomparable e he)
    obtain ⟨stats, hrun⟩ := run_createStatement_none hnull
      ((choices_eq_nil_iff _).2 hunmatched) relations
    obtain ⟨hfield, -, hget, -⟩ := Identity.require_eq_ok hcreates.identified
    rw [hupsert, hrun, hget, ← hfield]
    rfl
  · intro hfound
    have hchoices := choices_ne_nil_iff.2 hfound
    obtain ⟨stats, hrun⟩ := run_createStatement_some hwell
      (node_ne_of_validate hcreates.valid) hcomparable hnone hchoices relations
    obtain ⟨added, hlinks, hgranted⟩ := links_withNode s record hwell relations
    obtain ⟨row, rest, hrows⟩ := List.exists_cons_of_ne_nil hchoices
    refine ⟨s.createdNode g record, added, ?_, hcreates.adds hr hnulls hcomparable hfound hgranted⟩
    rw [hupsert, hrun, hlinks, hrows]
    rfl

end CompilerSettings

namespace Sample

def crew : Store :=
  (Dialect.execute ("MERGE (a:person \x7buid:1\x7d) MERGE (b:person \x7buid:7\x7d) " ++
    "MERGE (c:captain \x7buid:7\x7d) RETURN a") Store.empty).2

end Sample

theorem upsert_missing_team : Sample.team.Valid ∧ Sample.crew.Reachable ∧
    Sample.crew.matching "uid" (.string "it's") = [] ∧
    (Sample.crew.matching "uid" (.integer 7)).length = 2 ∧
    ∃ n added, CompilerSettings.default.upsert (⟨Sample.crew, false⟩ : MemorySession) Sample.team
        Sample.relations = (.ok (.created (GraphNode.ofNode n)),
          ⟨⟨Sample.crew.nodes ++ [n], Sample.crew.edges ++ added, Sample.crew.nextNode + 1,
            Sample.crew.nextEdge + added.length⟩, false⟩) ∧
      CompilerSettings.default.Adds Sample.crew Sample.team Sample.relations n added := by
  have hvalid : Sample.team.Valid := by
    refine ⟨?_, ?_⟩
    · unfold RecordSchema.Distinct
      decide
    · unfold Record.Complete
      decide
  have hreachable : Sample.crew.Reachable := .execute .empty _
  have hitems : ∀ name items, Sample.team.Holds name (.array items) →
      ∀ v ∈ items, v.isNull = false := by
    rintro name items ⟨schema, shape, hmem, hshape, hscalar, hget⟩
    simp only [Sample.team, Sample.teamSchema, List.mem_cons, Prod.mk.injEq, List.not_mem_nil,
      or_false] at hmem
    rcases hmem with ⟨rfl, rfl⟩ | ⟨rfl, rfl⟩ | ⟨rfl, rfl⟩ | ⟨rfl, rfl⟩ | ⟨rfl, rfl⟩
    case inr.inr.inr.inr =>
      obtain rfl := Except.ok.inj hshape
      exact Bool.noConfusion hscalar
    all_goals exact absurd (Option.some.inj hget) (by simp [Sample.person])
  obtain ⟨c, hcreate⟩ : ∃ c, CompilerSettings.default.compileCreate Sample.team
      Sample.relations = .ok c := ⟨_, rfl⟩
  have hkey : CompilerSettings.default.keyOf Sample.team = .string "it's" := rfl
  have hmissing : Sample.crew.matching "uid" (.string "it's") = [] := by decide +kernel
  have hfound : ∀ x ∈ Sample.team.related,
      CompilerSettings.default.matchesOf Sample.crew x ≠ [] := by decide +kernel
  exact ⟨hvalid, hreachable, hmissing, by decide +kernel,
    (CompilerSettings.upsert_missing rfl rfl (by decide) hvalid hitems hreachable hcreate
      (hkey ▸ hmissing)).2 hfound⟩

end RecordGraph
