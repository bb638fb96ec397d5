import RecordGraph.Proofs.Links
import RecordGraph.Proofs.MergedNode
import RecordGraph.Proofs.UpsertOnGraph

/-!
Upserts of a node that is not there. The create statement is all or nothing: unless
every related record has a node, nothing is made. Otherwise one node is made, with
the record's label and its own properties, and edges between it and the nodes of
the related records.
-/

namespace RecordGraph

open Dialect Statement Number

theorem natText_injective {m n : Nat} (h : natText m = natText n) : m = n := by
  have hdigits : digitsOf m = digitsOf n := by simpa [natText] using congrArg String.toList h
  rw [← valueOf_digitsOf m, hdigits, valueOf_digitsOf]

namespace Related

theorem matchAlias_injective {m n : Nat} (h : matchAlias m = matchAlias n) : m = n := by
  refine natText_injective ?_
  simpa [matchAlias, ← String.toList_inj] using h

theorem isMatchAlias_matchAlias (n : Nat) :
    CompilerSettings.isMatchAlias (matchAlias n) = true := by
  have hdigits : ∀ c ∈ digitsOf n, isAsciiDigit c = true := fun c hc => isDigit_digitsOf hc
  obtain ⟨c, rest, hc⟩ := List.exists_cons_of_ne_nil (digitsOf_ne_nil n)
  rw [hc] at hdigits
  simpa [CompilerSettings.isMatchAlias, matchAlias, natText, hc] using hdigits

end Related

theorem relatedFrom_nodes (next : Nat) (bound : List Layout.Bound) :
    (relatedFrom next bound).map (·.node) =
      (List.range' next (relatedFrom next bound).length).map Related.matchAlias := by
  rw [relatedFrom, List.length_map, List.length_zipIdx, ← List.zipIdx_map_snd, List.map_map,
    List.map_map]
  rfl

theorem Record.nodup_related (r : Record) : (r.related.map (·.node)).Nodup := by
  rw [related, relatedFrom_nodes]
  exact List.Nodup.map (fun _ _ => Related.matchAlias_injective) List.nodup_range'

theorem NullPolicy.stored_of_written? {nulls : NullPolicy} {v : FieldValue} {w : PropertyValue}
    (h : nulls.written? v = some w) (hw : w.isNull = false) : v.stored = w := by
  cases nulls with
  | dropNull =>
    cases hnull : v.isNull <;> simp_all [written?]
  | writeNull =>
    obtain rfl := Option.some.inj h
    cases hblank : v.isBlank with
    | true => simp [hblank, PropertyValue.isNull] at hw
    | false => rfl

theorem Record.isMatchAlias_related (r : Record) {x : RelatedRecord} (hx : x ∈ r.related) :
    CompilerSettings.isMatchAlias x.node = true := by
  have hnode := List.mem_map_of_mem (f := (·.node)) hx
  rw [related, relatedFrom_nodes, List.mem_map] at hnode
  obtain ⟨n, -, hn⟩ := hnode
  exact hn ▸ Related.isMatchAlias_matchAlias n

theorem Record.holds_key {r : Record} (hr : r.Valid) {layout : Layout} {bound : List Layout.Bound}
    (hlayout : Layout.classify r.schema = .ok layout) (hbound : layout.bind r = .ok bound)
    {keyField : String} {v : FieldValue} (hget : r.get? keyField = some v)
    (hkey : Identity.isKey v = true) : r.Holds keyField v := by
  obtain ⟨e, he, -⟩ := Option.map_eq_some_iff.1 hget
  have hname : keyField ∈ r.entries.map (·.1) := by
    have heq : e.1 = keyField := by simpa using List.find?_some he
    exact heq ▸ List.mem_map_of_mem (List.mem_of_find?_eq_some he)
  rw [hr.complete, ← Record.names_bound hlayout hbound, List.mem_map] at hname
  obtain ⟨b, hb, rfl⟩ := hname
  obtain ⟨hvalue, hcheck⟩ := Record.bound_fits hbound b hb
  obtain rfl : b.value = v := Option.some.inj (hvalue.symm.trans hget)
  refine (Record.holds_iff hlayout hbound).2 ⟨b, hb, ?_, rfl, rfl⟩
  obtain ⟨name, ⟨kind, nullable, nullableItems⟩, value⟩ := b
  cases kind <;> cases value <;>
    simp_all [FieldShape.isStructural, ShapeKind.isStructural, FieldShape.checkValue,
      Identity.isKey, FieldValue.isNull]

namespace CompilerSettings

variable {s : CompilerSettings} {record : Record}

theorem literal_of_isBlank {v : FieldValue} (h : v.isBlank = true) (escape : Escape) :
    ∃ t, literal escape v = .ok t := by
  cases v <;> simp_all [FieldValue.isBlank, literal]

theorem isBlank_of_isNull {v : FieldValue} (h : v.isNull = true) : v.isBlank = true := by
  cases v <;> simp_all [FieldValue.isNull, FieldValue.isBlank]

/-- A property is rendered exactly when its field is not structural and its value has a literal;
a null policy never hides a value without one, since what it hides is blank. -/
theorem property?_ok_iff (escape : Escape) (name : String) {v : FieldValue} {shape : FieldShape}
    (delimiter : Delimiter) (nulls : NullPolicy) :
    (∃ t, property? escape name v shape delimiter nulls = .ok t) ↔
      shape.isStructural = false ∧ ∃ t, literal escape v = .ok t := by
  unfold property?
  cases hshape : shape.isStructural with
  | true => simp
  | false =>
    have hrendered : ∀ f : String → Option String,
        (∃ t, ((literal escape v).map f).mapError (fun r => (⟨name, r⟩ : Inconsistency)) = .ok t) ↔
          ∃ t, literal escape v = .ok t := by
      intro f
      cases literal escape v <;> simp [Except.map, Except.mapError]
    cases nulls with
    | dropNull =>
      cases hnull : v.isNull with
      | true => simpa using literal_of_isBlank (isBlank_of_isNull hnull) escape
      | false => simpa using hrendered _
    | writeNull =>
      cases hblank : v.isBlank with
      | true => simpa using literal_of_isBlank hblank escape
      | false => simpa using hrendered _

theorem renderProperties_ok_iff {delimiter : Delimiter} {nulls : NullPolicy}
    {bound : List Layout.Bound} :
    (∃ texts, s.renderProperties delimiter nulls bound = .ok texts) ↔
      ∀ b ∈ bound, b.shape.isStructural = false ∧ ∃ t, literal s.escape b.value = .ok t := by
  induction bound with
  | nil => simp [renderProperties]
  | cons b rest ih =>
    rw [List.forall_mem_cons]
    refine Iff.trans ?_ (and_congr (property?_ok_iff s.escape b.name delimiter nulls) ih)
    constructor
    · rintro ⟨texts, h⟩
      simp only [renderProperties, bind_eq_ok, pure_eq_ok] at h
      obtain ⟨t, ht, more, hmore, -⟩ := h
      exact ⟨⟨t, ht⟩, more, hmore⟩
    · rintro ⟨⟨t, ht⟩, more, hmore⟩
      exact ⟨_, bind_eq_ok.2 ⟨t, ht, bind_eq_ok.2 ⟨more, hmore, rfl⟩⟩⟩

/-- What a successful create says about the record. -/
structure Creates (s : CompilerSettings) (record : Record) (identity : Identity)
    (layout : Layout) (bound : List Layout.Bound) : Prop where
  valid : s.validate = .ok ()
  classified : Layout.classify record.schema = .ok layout
  binds : layout.bind record = .ok bound
  identified : s.identityOf record = .ok identity
  literals : ∀ b ∈ bound.filter (s.isProperty true),
    b.shape.isStructural = false ∧ ∃ t, literal s.escape b.value = .ok t

theorem creates_of_compileCreate {relations : List Relation} {c : CompiledStatement}
    (h : s.compileCreate record relations = .ok c) :
    ∃ identity layout bound, s.Creates record identity layout bound := by
  simp only [compileCreate, bind_eq_ok, mapError_eq_ok, layoutOf, properties] at h
  obtain ⟨_, hvalid, layout, hlayout, identity, hidentity, _, -, texts,
    ⟨bound, hbound, htexts⟩, -⟩ := h
  exact ⟨identity, layout, bound, hvalid, hlayout, hbound, hidentity,
    renderProperties_ok_iff.1 ⟨texts, htexts⟩⟩

namespace Creates

variable {identity : Identity} {layout : Layout} {bound : List Layout.Bound}

theorem compileUpdate_ok (h : s.Creates record identity layout bound) :
    ∃ c, s.compileUpdate record identity = .ok c := by
  obtain ⟨-, -, -, hkey⟩ := Identity.require_eq_ok h.identified
  obtain ⟨t, ht⟩ := literal_of_isKey hkey s.escape
  have hliteral : s.keyLiteral identity.keyField identity.keyValue = .ok t := by
    rw [keyLiteral, ht]
    rfl
  have hrendered : ∃ texts, s.renderProperties .assignment .writeNull
      (bound.filter (s.isProperty false)) = .ok texts := by
    refine renderProperties_ok_iff.2 fun b hb => h.literals b ?_
    rw [List.mem_filter] at hb ⊢
    refine ⟨hb.1, ?_⟩
    have hproperty := hb.2
    simp only [isProperty, Bool.and_eq_true] at hproperty ⊢
    exact ⟨hproperty.1, rfl⟩
  obtain ⟨texts, htexts⟩ := hrendered
  have hproperties : s.properties layout record .assignment .writeNull false = .ok texts := by
    simp only [properties, bind_eq_ok, mapError_eq_ok]
    exact ⟨bound, h.binds, htexts⟩
  have hlayout : layoutOf record.schema = .ok layout := by
    rw [layoutOf, mapError_eq_ok]
    exact h.classified
  simp only [compileUpdate, bind_eq_ok]
  exact ⟨_, (), h.valid, layout, hlayout, texts, hproperties, t, hliteral, rfl⟩

/-- The entries of a created node: what is written of the record's own properties. -/
theorem mem_createdEntries_iff (h : s.Creates record identity layout bound)
    {e : String × PropertyValue} :
    e ∈ s.createdEntries record ↔
      ∃ v, record.Holds e.1 v ∧ e.1 ≠ s.labelField ∧ s.createNulls.written? v = some e.2 := by
  rw [createdEntries, mem_entries_isProperty h.classified h.binds]
  simp only [true_or, true_and]

theorem mem_createdEntries (h : s.Creates record identity layout bound)
    (hnulls : s.createNulls = .dropNull) {e : String × PropertyValue} :
    e ∈ s.createdEntries record ↔
      ∃ v, record.Holds e.1 v ∧ e.1 ≠ s.labelField ∧ v.isNull = false ∧ v.stored = e.2 := by
  rw [h.mem_createdEntries_iff, hnulls]
  refine exists_congr fun v => and_congr_right fun _ => and_congr_right fun _ => ?_
  cases hnull : v.isNull <;> simp [NullPolicy.written?, hnull]

theorem written_of_dropNull (h : s.Creates record identity layout bound)
    (hnulls : s.createNulls = .dropNull) : ∀ e ∈ s.createdEntries record, e.2.isNull = false := by
  intro e he
  obtain ⟨v, hholds, -, hnull, hv⟩ := (h.mem_createdEntries hnulls).1 he
  rw [← hv, hholds.isNull_stored h.classified h.binds, hnull]

theorem comparable_of_written (h : s.Creates record identity layout bound)
    (hs : s.escape = .cypher) (hwritten : ∀ e ∈ s.createdEntries record, e.2.isNull = false)
    (hitems : ∀ name items, record.Holds name (.array items) → ∀ v ∈ items, v.isNull = false) :
    ∀ e ∈ s.createdEntries record, e.2.comparable = true := by
  intro e he
  obtain ⟨v, hholds, hlabel, hv⟩ := h.mem_createdEntries_iff.1 he
  have hstored := NullPolicy.stored_of_written? hv (hwritten e he)
  have hnull : v.isNull = false := by
    rw [← hholds.isNull_stored h.classified h.binds, hstored, hwritten e he]
  obtain ⟨b, hb, hshape, hname, rfl⟩ := (Record.holds_iff h.classified h.binds).1 hholds
  have hproperty : s.isProperty true b = true := by
    simp [isProperty, hshape, hname, hlabel]
  obtain ⟨-, t, ht⟩ := h.literals b (List.mem_filter.2 ⟨hb, hproperty⟩)
  rw [hs] at ht
  rw [← hstored]
  refine Layout.Bound.comparable_stored (Record.bound_fits h.binds b hb).2 hshape hnull
    (fun items hvalue => hitems e.1 items ?_) ht
  exact (Record.holds_iff h.classified h.binds).2 ⟨b, hb, hshape, hname, hvalue⟩

theorem comparable_createdEntries (h : s.Creates record identity layout bound)
    (hs : s.escape = .cypher) (hnulls : s.createNulls = .dropNull)
    (hitems : ∀ name items, record.Holds name (.array items) → ∀ v ∈ items, v.isNull = false) :
    ∀ e ∈ s.createdEntries record, e.2.comparable = true :=
  h.comparable_of_written hs (h.written_of_dropNull hnulls) hitems

theorem key_mem_createdEntries (h : s.Creates record identity layout bound)
    (hr : record.Valid) {nulls : NullPolicy} (hnulls : s.createNulls = nulls)
    (hne : s.labelField ≠ s.keyField) :
    (s.keyField, s.keyOf record) ∈ s.createdEntries record := by
  obtain ⟨-, -, hget, hkey⟩ := Identity.require_eq_ok h.identified
  have hholds := Record.holds_key hr h.classified h.binds hget hkey
  refine h.mem_createdEntries_iff.2 ⟨identity.keyValue, hholds, hne.symm, ?_⟩
  rw [hnulls, keyOf_eq h.identified]
  cases nulls <;> simp [NullPolicy.written?, isNull_of_isKey hkey, isBlank_of_isKey hkey]

end Creates

theorem nodup_createdEntries (s : CompilerSettings) (hrecord : record.schema.Distinct) :
    ((s.createdEntries record).map (·.1)).Nodup :=
  NullPolicy.nodup_entries hrecord _ _

def createdNode (s : CompilerSettings) (g : Store) (record : Record) : Node :=
  Node.create g.nextNode [s.labelOf record] (Dict.ofList (s.createdEntries record))

theorem property?_createdNode_iff (hrecord : record.schema.Distinct)
    (hwritten : ∀ e ∈ s.createdEntries record, e.2.isNull = false) (g : Store) (name : String)
    (value : PropertyValue) :
    (s.createdNode g record).property? name = some value ↔
      (name, value) ∈ s.createdEntries record := by
  have hkeys := s.nodup_createdEntries hrecord
  have hproperties : (s.createdNode g record).properties = Dict.ofList (s.createdEntries record) :=
    Node.properties_create (fun e he => hwritten e ((Dict.mem_entries_ofList hkeys).1 he)) _ _
  rw [Node.property?, hproperties, Dict.get?_ofList hkeys]

def withNode (s : CompilerSettings) (g : Store) (record : Record) : Store :=
  (g.createNode [s.labelOf record] (Dict.ofList (s.createdEntries record))).2

theorem nodes_withNode (g : Store) :
    (s.withNode g record).nodes = g.nodes ++ [s.createdNode g record] := rfl

theorem wellFormed_withNode (s : CompilerSettings) (record : Record) {g : Store}
    (hg : g.WellFormed) : (s.withNode g record).WellFormed :=
  hg.step (.node g _ _)

/-- The edges that a create statement asks for, row by row. -/
def requests (s : CompilerSettings) (g : Store) (record : Record) (relations : List Relation) :
    List Request :=
  relations.flatMap fun r =>
    (record.related.filter fun x => x.field = r.field).flatMap fun x =>
      (s.choices g record.related).map fun row =>
        ⟨r.direction, r.label, (row.node? x.node).getD 0⟩

theorem linkIn_edgePattern {r : Relation} {x : RelatedRecord} (hx : x.node ≠ s.nodeAlias)
    {row : Row} (hrow : row.node? s.nodeAlias = none) (n : Nat) :
    (s.edgePattern r x).linkIn (row.bind s.nodeAlias n) =
      Request.link n ⟨r.direction, r.label, (row.node? x.node).getD 0⟩ := by
  simp only [RelationshipPattern.linkIn, edgePattern, Row.node?_bind_self hrow,
    Row.node?_bind_of_ne hx, Option.getD_some]
  rfl

theorem links_edgePatterns (hnodes : ∀ x ∈ record.related, x.node ≠ s.nodeAlias) {g : Store}
    (relations : List Relation) (n : Nat) :
    ((s.edgePatterns record relations).flatMap fun p =>
      ((s.choices g record.related).map fun row => row.bind s.nodeAlias n).map p.linkIn) =
      (s.requests g record relations).map (Request.link n) := by
  simp only [edgePatterns, requests, List.flatMap_assoc, List.flatMap_map, List.map_flatMap,
    List.map_map]
  refine List.flatMap_congr fun r _ => List.flatMap_congr fun x hx => ?_
  refine List.map_congr_left fun row hrow => ?_
  exact linkIn_edgePattern (hnodes x (List.mem_filter.1 hx).1)
    (unbound_of_mem_choices hnodes hrow) n

theorem reaches_of_mem_choices {g : Store} (hg : g.WellFormed) {row : Row}
    (hrow : row ∈ s.choices g record.related) {x : RelatedRecord} (hx : x ∈ record.related) :
    ∃ id, row.node? x.node = some id ∧ id < g.nextNode := by
  obtain ⟨n, hn, hid⟩ := bound_of_mem_choices record.nodup_related hrow hx
  exact ⟨n.id, hid, hg.id_lt (Store.mem_matching.1 hn).1⟩

theorem runClauses_createStatement (relations : List Relation) (p : Progress) :
    runClauses (s.createStatement record relations).clauses [[]] p =
      runClauses (.mergeNode (s.createdPattern record) ::
        (s.edgePatterns record relations).map .mergeRelationship)
        (s.choices p.store record.related) p := by
  rw [createStatement, runClauses_matches record.nodup_related (by simp [Row.node?])]
  simp

theorem run_createStatement_none {g : Store}
    (hnull : ∀ e ∈ (s.createdPattern record).properties.entries, e.2.isNull = false)
    (hchoices : s.choices g record.related = []) (relations : List Relation) :
    ∃ stats, (s.createStatement record relations).run g = (.ok [], ⟨g, stats⟩) := by
  obtain ⟨stats, hrun⟩ := runClauses_relationships (s.edgePatterns record relations) []
    (g := ⟨g, .zero⟩) (by simp)
  have hlinks : ((s.edgePatterns record relations).flatMap fun p =>
      ([] : List Row).map p.linkIn) = [] := by simp
  rw [hlinks, List.foldl_nil] at hrun
  refine ⟨stats, ?_⟩
  rw [Statement.run, runClauses_createStatement]
  simp only [hchoices, runClauses, Clause.run, mergePattern_eq hnull, mergeNodeRows, hrun]
  rfl

theorem reaches_edgePatterns {g : Store} (hg : g.WellFormed)
    (hnodes : ∀ x ∈ record.related, x.node ≠ s.nodeAlias) (relations : List Relation) :
    ∀ p ∈ s.edgePatterns record relations,
      ∀ row ∈ (s.choices g record.related).map fun row => row.bind s.nodeAlias g.nextNode,
        row.Reaches p.left (s.withNode g record) ∧ row.Reaches p.right (s.withNode g record) := by
  have hstore := wellFormed_withNode s record hg
  intro p hp bound hbound
  obtain ⟨row, hrow, rfl⟩ := List.mem_map.1 hbound
  obtain ⟨r, -, hr⟩ := List.mem_flatMap.1 hp
  obtain ⟨x, hx, rfl⟩ := List.mem_map.1 hr
  have hrelated := (List.mem_filter.1 hx).1
  have hunbound := unbound_of_mem_choices hnodes hrow
  obtain ⟨id, hid, hlt⟩ := reaches_of_mem_choices hg hrow hrelated
  refine ⟨⟨g.nextNode, Row.node?_bind_self hunbound _, ?_⟩, id, ?_, ?_⟩
  · exact (hstore.isSome_node?_iff _).2 (Nat.lt_succ_self _)
  · exact (Row.node?_bind_of_ne (hnodes x hrelated) _).trans hid
  · exact (hstore.isSome_node?_iff _).2 (Nat.lt_succ_of_lt hlt)

/-- Every row returns the new node, whatever has been linked to it. -/
theorem returned_createdNode {g : Store} (hg : g.WellFormed)
    (hnodes : ∀ x ∈ record.related, x.node ≠ s.nodeAlias) (links : List Link) :
    returned s.nodeAlias (links.foldl Store.link (s.withNode g record))
      ((s.choices g record.related).map fun row => row.bind s.nodeAlias g.nextNode) =
      .ok ((s.choices g record.related).map fun _ => s.createdNode g record) := by
  have hstore := wellFormed_withNode s record hg
  refine returned_eq ?_
  rw [List.forall₂_map_left_iff, List.forall₂_map_right_iff, List.forall₂_same]
  intro row hrow
  refine ⟨Row.node?_bind_self (unbound_of_mem_choices hnodes hrow) _, ?_⟩
  rw [Store.node?, Store.nodes_links]
  exact hstore.node?_eq_some_iff.2 ⟨by simp [nodes_withNode], rfl⟩

theorem run_createStatement_some {g : Store} (hg : g.WellFormed)
    (hnodes : ∀ x ∈ record.related, x.node ≠ s.nodeAlias)
    (hcomparable : ∀ e ∈ (s.createdPattern record).properties.entries, e.2.comparable = true)
    (hnone : g.findNodes (s.createdPattern record).labels (s.createdPattern record).properties =
      [])
    (hchoices : s.choices g record.related ≠ []) (relations : List Relation) :
    ∃ stats, (s.createStatement record relations).run g =
      (.ok ((s.choices g record.related).map fun _ => s.createdNode g record),
        ⟨((s.requests g record relations).map (Request.link g.nextNode)).foldl Store.link
          (s.withNode g record), stats⟩) := by
  have hunbound : ∀ row ∈ s.choices g record.related, row.node? s.nodeAlias = none :=
    fun row hrow => unbound_of_mem_choices hnodes hrow
  obtain ⟨stats, hmerge⟩ := mergeNodeRows_created (g := ⟨g, .zero⟩) hchoices hunbound hnone
    (Store.findNodes_createNode hcomparable hnone)
  have hreaches := reaches_edgePatterns hg hnodes relations
  obtain ⟨stats', hrelations⟩ :=
    runClauses_relationships _ _ (g := ⟨s.withNode g record, stats⟩) hreaches
  rw [links_edgePatterns hnodes] at hrelations
  have hreturned := returned_createdNode hg hnodes
    ((s.requests g record relations).map (Request.link g.nextNode))
  have hnull := fun e he => isNull_of_comparable (hcomparable e he)
  have hcreate : (Clause.mergeNode (s.createdPattern record)).run (s.choices g record.related)
      ⟨g, .zero⟩ = (.ok ((s.choices g record.related).map fun row =>
        row.bind s.nodeAlias g.nextNode), ⟨s.withNode g record, stats⟩) := by
    rw [Clause.run, mergePattern_eq hnull]
    exact hmerge
  refine ⟨stats', ?_⟩
  rw [Statement.run, runClauses_createStatement, runClauses, hcreate]
  simp only [hrelations]
  exact congrArg (·, _) hreturned

end CompilerSettings

end RecordGraph
