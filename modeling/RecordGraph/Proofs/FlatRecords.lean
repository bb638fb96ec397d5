import RecordGraph.Proofs.BranchAgreement

/-!
Records without related data. Their create statement has one row and no edges, so a new
node is all that it adds. The records with one key come together in one node: the first
gives it its label, and the last its properties.
-/

namespace RecordGraph

open Dialect

def RecordSchema.Flat (r : RecordSchema) : Prop :=
  ∀ f ∈ r.fields, ∀ shape, FieldShape.ofSchema f.2 = .ok shape → shape.isStructural = false

/-- The fields for related records hold none: each of them is null, empty or absent. -/
def Record.Unrelated (r : Record) : Prop :=
  ∀ f ∈ r.schema.fields, ∀ shape, FieldShape.ofSchema f.2 = .ok shape →
    shape.isStructural = true → ∀ v, r.get? f.1 = some v → v.records = []

theorem RecordSchema.Flat.unrelated {r : Record} (h : r.schema.Flat) : r.Unrelated :=
  fun f hf shape hshape hstructural => absurd hstructural (by simp [h f hf shape hshape])

theorem Record.mem_bound_iff {r : Record} {layout : Layout} {bound : List Layout.Bound}
    (hlayout : Layout.classify r.schema = .ok layout) (hbound : layout.bind r = .ok bound)
    {name : String} {shape : FieldShape} :
    (∃ b ∈ bound, b.name = name ∧ b.shape = shape) ↔
      ∃ schema, (name, schema) ∈ r.schema.fields ∧ FieldShape.ofSchema schema = .ok shape := by
  obtain ⟨shapes, hshapes, rfl⟩ := map_eq_ok.1 hlayout
  have hfields : bound.map (fun b => (b.name, b.shape)) = shapes :=
    (Layout.bindFields_ok hbound).1
  rw [← Layout.mem_classifyFields hshapes, ← hfields, List.mem_map]
  simp only [Prod.mk.injEq]

theorem Record.Unrelated.related_eq_nil {r : Record} (h : r.Unrelated) : r.related = [] := by
  have hnone : ∀ b ∈ r.boundFields, b.value.records = [] := by
    intro b hb
    cases hlayout : Layout.classify r.schema with
    | error e => simp [boundFields, hlayout] at hb
    | ok layout =>
      cases hbound : layout.bind r with
      | error e => simp [boundFields, hlayout, hbound] at hb
      | ok bound =>
        rw [boundFields_eq hlayout hbound] at hb
        obtain ⟨hvalue, hcheck⟩ := bound_fits hbound b hb
        cases hstructural : b.shape.isStructural with
        | false => exact Layout.Bound.records_eq_nil hstructural hcheck
        | true =>
          obtain ⟨schema, hmem, hshape⟩ := (mem_bound_iff hlayout hbound).1 ⟨b, hb, rfl, rfl⟩
          exact h _ hmem _ hshape hstructural _ hvalue
  have hrecords : (r.boundFields.flatMap fun b => b.value.records.map fun r => (b.name, r)) = [] :=
    List.flatMap_eq_nil_iff.2 fun b hb => by rw [hnone b hb, List.map_nil]
  rw [related, relatedFrom, hrecords]
  rfl

namespace CompilerSettings

variable {s : CompilerSettings} {record : Record} {relations : List Relation} {g : Store}
  {identity : Identity} {layout : Layout} {bound : List Layout.Bound}

/-! A new node -/

theorem run_createStatement_of_related_eq_nil (hg : g.WellFormed) (hrelated : record.related = [])
    (hnull : ∀ e ∈ (s.createdPattern record).properties.entries, e.2.isNull = false)
    (hnone : g.findNodes (s.createdPattern record).labels (s.createdPattern record).properties =
      []) (relations : List Relation) :
    ∃ stats, (s.createStatement record relations).run g =
      (.ok [s.createdNode g record], ⟨s.withNode g record, stats⟩) := by
  have hedges : s.edgePatterns record relations = [] := by
    simp [edgePatterns, hrelated]
  have hchoices : s.choices g record.related = [[]] := by
    rw [hrelated, choices]
  have hnodes : ∀ x ∈ record.related, x.node ≠ s.nodeAlias := by
    simp [hrelated]
  have hreturned := returned_createdNode hg hnodes []
  have hmerge : mergeNodeRows (s.createdPattern record) [[]] ⟨g, .zero⟩ =
      (.ok [Row.bind [] s.nodeAlias g.nextNode], ⟨s.withNode g record, ⟨1, 0, 0⟩⟩) := by
    have hfound := findOrCreate_of_none (g := ⟨g, .zero⟩) hnone
    simp only [mergeNodeRows, hfound]
    rfl
  refine ⟨⟨1, 0, 0⟩, ?_⟩
  rw [hchoices] at hreturned
  rw [Statement.run, runClauses_createStatement, hedges, hchoices]
  simp only [List.map_nil, runClauses, Clause.run, mergePattern_eq hnull, hmerge]
  exact congrArg (·, _) hreturned

theorem upsert_of_related_eq_nil (hs : s.escape = .cypher)
    (hfields : s.labelField ≠ s.keyField) (hr : record.Valid) (hg : g.WellFormed)
    (hrelated : record.related = []) {c : CompiledStatement}
    (hcreate : s.compileCreate record relations = .ok c)
    (hnull : ∀ e ∈ (s.createdPattern record).properties.entries, e.2.isNull = false)
    (hmissing : g.matching s.keyField (s.keyOf record) = []) :
    s.upsert (⟨g, false⟩ : MemorySession) record relations =
      (.ok (.created (GraphNode.ofNode (s.createdNode g record))),
        ⟨s.withNode g record, false⟩) := by
  obtain ⟨identity, layout, bound, hcreates⟩ := creates_of_compileCreate hcreate
  obtain ⟨update, hupdate⟩ := hcreates.compileUpdate_ok
  have hnone := findNodes_createdPattern (hcreates.key_mem_createdPattern hr hfields) hmissing
  obtain ⟨stats, hrun⟩ := run_createStatement_of_related_eq_nil hg hrelated hnull hnone relations
  rw [upsert_eq hs hg hcreates.identified hupdate relations, hmissing]
  simp only [hcreate, execute_compileCreate hs hr.distinct hcreate, hrun, settle]

/-! Records with one key -/

/-- A node that comes of the records with one key, in their order: it has the label of the first,
and the fields of the last but for its label. Null is left out, and the empty string too once
there is more than one record. -/
structure Condenses (s : CompilerSettings) (group : List Record) (n : Node) : Prop where
  labels : ∃ first ∈ group.head?, n.labels = [s.labelOf first]
  properties : ∃ last ∈ group.getLast?, ∀ name value, n.property? name = some value ↔
    name ≠ s.labelField ∧ ∃ v, last.Holds name v ∧ v.stored = value ∧
      if group.length = 1 then v.isNull = false else v.isBlank = false

theorem Creates.condenses_createdNode (h : s.Creates record identity layout bound)
    (hrecord : record.schema.Distinct) (hnulls : s.createNulls = .dropNull) (g : Store) :
    s.Condenses [record] (s.createdNode g record) where
  labels := ⟨record, rfl, rfl⟩
  properties := by
    refine ⟨record, rfl, fun name value => ?_⟩
    rw [property?_createdNode_iff hrecord (h.written_of_dropNull hnulls),
      h.mem_createdEntries hnulls]
    simp only [List.length_singleton, if_true]
    constructor
    · rintro ⟨v, hholds, hlabel, hnull, hstored⟩
      exact ⟨hlabel, v, hholds, hstored, hnull⟩
    · rintro ⟨hlabel, v, hholds, hstored, hnull⟩
      exact ⟨v, hholds, hlabel, hnull, hstored⟩

theorem Creates.property?_assign_iff (h : s.Creates record identity layout bound)
    (hrecord : record.schema.Distinct) (n : Node) (name : String) (value : PropertyValue) :
    (n.assign (s.updatedEntries record)).property? name = some value ↔
      (∃ v, s.Updates record name v ∧ v.stored = value ∧ v.isBlank = false) ∨
        (∀ v, ¬ s.Updates record name v) ∧ n.property? name = some value := by
  by_cases hname : ∃ v, s.Updates record name v
  · obtain ⟨v, hv⟩ := hname
    have hentry := (mem_updatedEntries (e := (name, if v.isBlank then .null else v.stored))
      h.classified h.binds).2 ⟨v, hv, rfl⟩
    have hkeys : ((s.updatedEntries record).map (·.1)).Nodup :=
      NullPolicy.nodup_entries hrecord _ _
    have hassigned := Node.property?_assign_of_mem n hkeys hentry
    have hset : (n.assign (s.updatedEntries record)).property? name =
        if v.isBlank then none else some v.stored := by
      refine hassigned.trans ?_
      cases hblank : v.isBlank with
      | true => rfl
      | false =>
        have hnull : v.isNull = false :=
          Bool.eq_false_iff.2 fun hnull => Bool.eq_false_iff.1 hblank (isBlank_of_isNull hnull)
        simp [isNull_stored_of_updates h.classified h.binds hv, hnull]
    rw [hset]
    constructor
    · intro hvalue
      cases hblank : v.isBlank with
      | true => simp [hblank] at hvalue
      | false => exact .inl ⟨v, hv, by simpa [hblank] using hvalue, hblank⟩
    · rintro (⟨w, hw, rfl, hblank⟩ | ⟨hnone, -⟩)
      · rw [hv.1.eq hw.1, hblank]
        rfl
      · exact absurd hv (hnone v)
  · rw [not_exists] at hname
    have hsame : (n.assign (s.updatedEntries record)).property? name = n.property? name := by
      refine Node.property?_assign_of_notMem n fun e he heq => ?_
      obtain ⟨v, hv, -⟩ := (mem_updatedEntries h.classified h.binds).1 he
      exact hname v (heq ▸ hv)
    rw [hsame]
    simp [hname]

theorem Creates.holds_of_schema_eq (h : s.Creates record identity layout bound) {r : Record}
    (hschema : r.schema = record.schema) {name : String} {v : FieldValue} (hv : r.Holds name v) :
    ∃ w, record.Holds name w := by
  obtain ⟨schema, shape, hmem, hshape, hscalar, -⟩ := hv
  obtain ⟨b, hb, rfl, rfl⟩ := (Record.mem_bound_iff h.classified h.binds).2
    ⟨schema, hschema ▸ hmem, hshape⟩
  exact ⟨b.value, (Record.holds_iff h.classified h.binds).2 ⟨b, hb, hscalar, rfl, rfl⟩⟩

theorem Condenses.assign {group : List Record} {n : Node} (hn : s.Condenses group n)
    (h : s.Creates record identity layout bound) (hr : record.Valid)
    (hschema : ∀ r ∈ group, r.schema = record.schema)
    (hkey : n.property? s.keyField = some (s.keyOf record)) :
    s.Condenses (group ++ [record]) (n.assign (s.updatedEntries record)) where
  labels := by
    obtain ⟨first, hfirst, hlabels⟩ := hn.labels
    exact ⟨first, by simp [Option.mem_def.1 hfirst], by rw [Node.labels_assign, hlabels]⟩
  properties := by
    obtain ⟨last, hlast, hproperties⟩ := hn.properties
    obtain ⟨-, -, hget, hisKey⟩ := Identity.require_eq_ok h.identified
    have hmany : (group ++ [record]).length ≠ 1 := by
      have hne := List.ne_nil_of_mem (List.mem_of_getLast? hlast)
      simpa using hne
    have hholdsKey := Record.holds_key hr h.classified h.binds hget hisKey
    refine ⟨record, by simp, fun name value => ?_⟩
    rw [h.property?_assign_iff hr.distinct]
    simp only [if_neg hmany]
    constructor
    · rintro (⟨v, ⟨hholds, hlabel, -⟩, hstored, hblank⟩ | ⟨hnone, hold⟩)
      · exact ⟨hlabel, v, hholds, hstored, hblank⟩
      · obtain ⟨hlabel, v, hv, -⟩ := (hproperties name value).1 hold
        obtain ⟨w, hw⟩ := h.holds_of_schema_eq (hschema last (List.mem_of_getLast? hlast)) hv
        -- Only the key is a field of the record that no update sets.
        obtain rfl : name = s.keyField := by
          by_contra hname
          exact hnone w ⟨hw, hlabel, hname⟩
        rw [hkey] at hold
        exact ⟨hlabel, _, hholdsKey, (keyOf_eq h.identified).symm.trans (Option.some.inj hold),
          isBlank_of_isKey hisKey⟩
    · rintro ⟨hlabel, v, hholds, hstored, hblank⟩
      by_cases hname : name = s.keyField
      · subst hname
        obtain rfl := hholds.eq hholdsKey
        refine .inr ⟨fun w hw => hw.2.2 rfl, ?_⟩
        rw [hkey, keyOf_eq h.identified, hstored]
      · exact .inl ⟨v, ⟨hholds, hlabel, hname⟩, hstored, hblank⟩

end CompilerSettings

end RecordGraph
