import RecordGraph.Proofs.ClauseTexts
import RecordGraph.Proofs.RecordFields

/-!
The create statement as data. It matches every related record by its key, merges
the node with the record's own properties, and merges one relationship for each
relation and each related record of its field. The compiled text is read back as
exactly this statement.
-/

namespace RecordGraph

open Dialect Statement

/-- A related record with the field that holds it and the alias that it is matched under. -/
structure RelatedRecord where
  field : String
  node : String
  record : Record

/-- Related records in schema order and then index order, numbered on from `next`. -/
def relatedFrom (next : Nat) (bound : List Layout.Bound) : List RelatedRecord :=
  ((bound.flatMap fun b => b.value.records.map fun r => (b.name, r)).zipIdx next).map
    fun x => ⟨x.1.1, Related.matchAlias x.2, x.1.2⟩

def Record.related (r : Record) : List RelatedRecord :=
  relatedFrom 1 r.boundFields

namespace CompilerSettings

def keyOf (s : CompilerSettings) (record : Record) : PropertyValue :=
  ((record.get? s.keyField).getD .null).stored

def labelOf (s : CompilerSettings) (record : Record) : String :=
  (Identity.labelOf? s.labelField record).getD ""

def matchClauseOf (s : CompilerSettings) (x : RelatedRecord) : Clause :=
  .matchNode (keyPattern x.node s.keyField (s.keyOf x.record))

/-- Names and stored values of the record's own fields, without the label. -/
def createdEntries (s : CompilerSettings) (record : Record) : List (String × PropertyValue) :=
  s.createNulls.entries (record.boundFields.filter (s.isProperty true))

def createdPattern (s : CompilerSettings) (record : Record) : NodePattern :=
  ⟨s.nodeAlias, [s.labelOf record], Dict.ofList (s.createdEntries record)⟩

def edgePattern (s : CompilerSettings) (r : Relation) (x : RelatedRecord) : RelationshipPattern :=
  ⟨s.nodeAlias, x.node, r.label, r.direction.arrow⟩

/-- One relationship for each relation and each related record of its field. -/
def edgePatterns (s : CompilerSettings) (record : Record) (relations : List Relation) :
    List RelationshipPattern :=
  relations.flatMap fun r =>
    (record.related.filter fun x => x.field = r.field).map (s.edgePattern r)

def createStatement (s : CompilerSettings) (record : Record) (relations : List Relation) :
    Dialect.Statement :=
  ⟨record.related.map s.matchClauseOf ++ .mergeNode (s.createdPattern record) ::
    (s.edgePatterns record relations).map .mergeRelationship, s.nodeAlias⟩

end CompilerSettings

theorem relatedFrom_cons (next : Nat) (b : Layout.Bound) (rest : List Layout.Bound) :
    relatedFrom next (b :: rest) =
      (b.value.records.zipIdx next).map (fun x => ⟨b.name, Related.matchAlias x.2, x.1⟩) ++
        relatedFrom (next + b.value.records.length) rest := by
  simp [relatedFrom, List.zipIdx_append, List.zipIdx_map, Function.comp_def]

theorem isPlainName_matchAlias (n : Nat) : isPlainName (Related.matchAlias n).toList = true := by
  have hdigits : ∀ c ∈ Number.digitsOf n, continuesName c = true := fun c hc =>
    continuesName_of_isDigit (Number.isDigit_digitsOf hc)
  simpa [Related.matchAlias, isPlainName, Number.natText] using ⟨by decide, hdigits⟩

namespace Identity

variable {labelField keyField path : String} {record : Record} {i : Identity}

theorem require_eq_ok (h : require labelField keyField record path = .ok i) :
    i.keyField = keyField ∧ labelOf? labelField record = some i.label ∧
      record.get? keyField = some i.keyValue ∧ isKey i.keyValue = true := by
  unfold require ofRecord? at h
  split at h
  · rename_i identity hi
    obtain rfl := Except.ok.inj h
    split at hi
    · rename_i label key hlabel hkey
      obtain rfl := Option.some.inj hi
      exact ⟨rfl, hlabel, (Option.filter_eq_some_iff.1 hkey)⟩
    · simp at hi
  · simp at h

end Identity

namespace Related

variable {s : CompilerSettings}

def Matches (s : CompilerSettings) (m : Match) (x : RelatedRecord) : Prop :=
  m.node = x.node ∧ isPlainName x.node.toList = true ∧ m.identity.keyField = s.keyField ∧
    x.record.get? s.keyField = some m.identity.keyValue ∧ Identity.isKey m.identity.keyValue = true

theorem identify_eq_ok {located : Located} {i : Identity} (h : identify s located = .ok i) :
    i.keyField = s.keyField ∧ located.2.get? s.keyField = some i.keyValue ∧
      Identity.isKey i.keyValue = true := by
  obtain ⟨path, record⟩ := located
  simp only [identify, bind_eq_ok] at h
  obtain ⟨layout, -, _, -, hrequire⟩ := h
  obtain ⟨hfield, -, hkey⟩ := Identity.require_eq_ok hrequire
  exact ⟨hfield, hkey⟩

theorem readsClause_match {m : Match} {x : RelatedRecord} {literal : String}
    (hm : Matches s m x) (h : Statement.literal .cypher m.identity.keyValue = .ok literal) :
    ReadsClause (matchKeyClause m.node m.identity.keyField literal).toList (s.matchClauseOf x) := by
  obtain ⟨hnode, hx, hfield, hkey, -⟩ := hm
  rw [hnode, hfield, CompilerSettings.matchClauseOf, CompilerSettings.keyOf, hkey]
  exact readsClause_matchKeyClause _ hx (readsValue_literal _ h)

theorem matchRecords_ok (hs : s.escape = .cypher) (field : String) {next : Nat}
    {located : List Located} {found : List (Match × String)}
    (h : matchRecords s next located = .ok found) :
    List.Forall₂ (fun m x => Matches s m.1 x ∧ ReadsClause m.2.toList (s.matchClauseOf x)) found
      (((located.map (·.2)).zipIdx next).map fun x => ⟨field, matchAlias x.2, x.1⟩) := by
  induction located generalizing next found with
  | nil =>
    obtain rfl := Except.ok.inj h
    exact .nil
  | cons l rest ih =>
    simp only [matchRecords, hs, bind_eq_ok, pure_eq_ok, mapError_eq_ok] at h
    obtain ⟨i, hi, literal, hliteral, more, hmore, rfl⟩ := h
    have hm : Matches s ⟨matchAlias next, i⟩ ⟨field, matchAlias next, l.2⟩ :=
      ⟨rfl, isPlainName_matchAlias next, identify_eq_ok hi⟩
    have hread := readsClause_match hm hliteral
    rw [List.map_cons, List.zipIdx_cons, List.map_cons]
    exact List.Forall₂.cons (And.intro hm hread) (ih hmore)

def flat (r : Related) : List (String × Match) :=
  r.bindings.flatMap fun b => b.2.map fun m => (b.1, m)

theorem ofBound_ok (hs : s.escape = .cypher) {next : Nat} {bound : List Layout.Bound}
    {record : Record} (hfits : ∀ b ∈ bound, b.Fits record) {related : Related}
    (h : ofBound s next bound = .ok related) :
    ReadAs related.clauses ((relatedFrom next bound).map s.matchClauseOf) ∧
      List.Forall₂ (fun m x => m.1 = x.field ∧ Matches s m.2 x) related.flat
        (relatedFrom next bound) := by
  induction bound generalizing next related with
  | nil =>
    obtain rfl := Except.ok.inj h
    exact ⟨.nil, .nil⟩
  | cons b rest ih =>
    have hb := (hfits b List.mem_cons_self).2
    have hrest := fun b hb => hfits b (List.mem_cons_of_mem _ hb)
    unfold ofBound at h
    split at h
    · rename_i hstruct
      simp only [bind_eq_ok, pure_eq_ok] at h
      obtain ⟨found, hfound, more, hmore, rfl⟩ := h
      have hmatches := matchRecords_ok hs b.name hfound
      rw [Layout.Bound.locate_records hstruct hb] at hmatches
      have hlength : found.length = b.value.records.length := by
        simpa using hmatches.length_eq
      rw [hlength] at hmore
      obtain ⟨hclauses, hflat⟩ := ih hrest hmore
      rw [relatedFrom_cons]
      refine ⟨?_, ?_⟩
      · rw [List.map_append]
        refine List.rel_append ?_ hclauses
        rw [List.forall₂_map_left_iff, List.forall₂_map_right_iff]
        exact hmatches.imp fun _ _ hm => hm.2
      · have hfield : List.Forall₂ (fun m x => m.1 = x.field ∧ Matches s m.2 x)
            (found.map fun m => (b.name, m.1))
            ((b.value.records.zipIdx next).map fun x => ⟨b.name, matchAlias x.2, x.1⟩) := by
          rw [List.forall₂_map_right_iff] at hmatches
          rw [List.forall₂_map_left_iff, List.forall₂_map_right_iff]
          exact hmatches.imp fun _ _ hm => ⟨rfl, hm.1⟩
        simpa [flat, Function.comp_def] using List.rel_append hfield hflat
    · rename_i hstruct
      have hnil := Layout.Bound.records_eq_nil (Bool.not_eq_true _ ▸ hstruct) hb
      rw [relatedFrom_cons, hnil]
      exact ih hrest h

theorem filter_flat_of_find? {bindings : List (String × List Match)} {field : String}
    {b : String × List Match} (hkeys : (bindings.map (·.1)).Nodup)
    (h : bindings.find? (fun b => b.1 = field) = some b) :
    (bindings.flatMap fun b => b.2.map fun m => (b.1, m)).filter (fun m => m.1 = field) =
      b.2.map fun m => (field, m) := by
  induction bindings with
  | nil => simp at h
  | cons c rest ih =>
    simp only [List.map_cons, List.nodup_cons, List.mem_map, not_exists, not_and] at hkeys
    rw [List.flatMap_cons, List.filter_append]
    by_cases hc : c.1 = field
    · obtain rfl : c = b := by simpa [hc] using h
      have hrest : ∀ d ∈ rest, ¬ d.1 = field := fun d hd e => hkeys.1 d hd (e.trans hc.symm)
      have hown : (c.2.map fun m => (c.1, m)).filter (fun m => m.1 = field) =
          c.2.map fun m => (field, m) := by
        rw [List.filter_eq_self.2 (by simp [hc]), hc]
      have hnone : (rest.flatMap fun d => d.2.map fun m => (d.1, m)).filter
          (fun m => m.1 = field) = [] := by
        rw [List.filter_eq_nil_iff]
        intro m hm
        simp only [List.mem_flatMap, List.mem_map] at hm
        obtain ⟨d, hd, m', -, rfl⟩ := hm
        simpa using hrest d hd
      rw [hown, hnone, List.append_nil]
    · have hown : (c.2.map fun m => (c.1, m)).filter (fun m => m.1 = field) = [] := by
        simp [hc]
      rw [hown, List.nil_append]
      exact ih hkeys.2 (by simpa [hc] using h)

theorem edgeClauses_ok {related : Related} {found : List RelatedRecord}
    (hnode : isPlainName s.nodeAlias.toList = true)
    (hkeys : (related.bindings.map (·.1)).Nodup)
    (hflat : List.Forall₂ (fun m x => m.1 = x.field ∧ Matches s m.2 x) related.flat found)
    {relations : List Relation} {edges : List String}
    (h : related.edgeClauses s.nodeAlias relations = .ok edges) :
    ReadAs edges ((relations.flatMap fun r =>
      (found.filter fun x => x.field = r.field).map (s.edgePattern r)).map .mergeRelationship) := by
  induction relations generalizing edges with
  | nil =>
    obtain rfl := Except.ok.inj h
    exact .nil
  | cons r rest ih =>
    unfold edgeClauses at h
    split at h
    · simp at h
    rename_i ms hms
    simp only [bind_eq_ok, pure_eq_ok] at h
    obtain ⟨more, hmore, rfl⟩ := h
    obtain ⟨b, hb, rfl⟩ := Option.map_eq_some_iff.1 hms
    have hfilter := List.rel_filter (p := fun m => decide (m.1 = r.field))
      (q := fun x => decide (x.field = r.field)) (fun m x hm => by simp [hm.1]) hflat
    rw [flat, filter_flat_of_find? hkeys hb] at hfilter
    rw [List.flatMap_cons, List.map_append]
    refine List.rel_append ?_ (ih hmore)
    rw [List.forall₂_map_left_iff] at hfilter
    rw [List.map_map, List.forall₂_map_left_iff, List.forall₂_map_right_iff]
    refine hfilter.imp fun m x hm => ?_
    obtain ⟨-, hx, hplain, -⟩ := hm
    rw [hx]
    exact readsClause_edgeClause r.direction hnode hplain

end Related

namespace NullPolicy

theorem mem_entries {nulls : NullPolicy} {bound : List Layout.Bound}
    {e : String × PropertyValue} :
    e ∈ nulls.entries bound ↔ ∃ b ∈ bound, b.name = e.1 ∧ nulls.written? b.value = some e.2 := by
  simp only [entries, List.mem_filterMap, Option.map_eq_some_iff, Prod.ext_iff]
  constructor
  · rintro ⟨b, hb, v, hv, hname, rfl⟩
    exact ⟨b, hb, hname, hv⟩
  · rintro ⟨b, hb, hname, hv⟩
    exact ⟨b, hb, e.2, hv, hname, rfl⟩

theorem names_entries_sublist (nulls : NullPolicy) (bound : List Layout.Bound) :
    ((nulls.entries bound).map (·.1)).Sublist (bound.map (·.name)) := by
  induction bound with
  | nil => exact .slnil
  | cons b rest ih =>
    cases hv : nulls.written? b.value with
    | none => simpa [entries, hv] using ih.cons b.name
    | some v => simpa [entries, hv] using ih.cons_cons b.name

theorem nodup_entries {r : Record} (hschema : r.schema.Distinct) (nulls : NullPolicy)
    (keep : Layout.Bound → Bool) :
    ((nulls.entries (r.boundFields.filter keep)).map (·.1)).Nodup :=
  (Record.nodup_boundFields hschema).sublist
    ((nulls.names_entries_sublist _).trans (List.filter_sublist.map _))

end NullPolicy

namespace CompilerSettings

variable {s : CompilerSettings} {record : Record}

theorem mem_entries_isProperty {layout : Layout} {bound : List Layout.Bound}
    (hlayout : Layout.classify record.schema = .ok layout) (hbound : layout.bind record = .ok bound)
    {nulls : NullPolicy} {includeKey : Bool} {e : String × PropertyValue} :
    e ∈ nulls.entries (record.boundFields.filter (s.isProperty includeKey)) ↔
      ∃ v, record.Holds e.1 v ∧ e.1 ≠ s.labelField ∧ (includeKey = true ∨ e.1 ≠ s.keyField) ∧
        nulls.written? v = some e.2 := by
  simp only [NullPolicy.mem_entries, List.mem_filter, Record.boundFields_eq hlayout hbound,
    Record.holds_iff hlayout hbound, isProperty, Bool.and_eq_true, Bool.not_eq_true', bne_iff_ne,
    Bool.or_eq_true, ne_eq]
  constructor
  · rintro ⟨b, ⟨hb, ⟨hshape, hlabel⟩, hkey⟩, hname, hv⟩
    rw [hname] at hlabel hkey
    exact ⟨b.value, ⟨b, hb, hshape, hname, rfl⟩, hlabel, hkey, hv⟩
  · rintro ⟨v, ⟨b, hb, hshape, hname, rfl⟩, hlabel, hkey, hv⟩
    rw [← hname] at hlabel hkey
    exact ⟨b, ⟨hb, ⟨hshape, hlabel⟩, hkey⟩, hname, hv⟩

theorem holds_compileCreate (hs : s.escape = .cypher) (hrecord : record.schema.Distinct)
    {relations : List Relation} {c : CompiledStatement}
    (h : s.compileCreate record relations = .ok c) :
    ∃ d : Draft, c = d.returning s.nodeAlias ∧
      d.Holds (s.createStatement record relations).clauses ∧
      isPlainName s.nodeAlias.toList = true := by
  simp only [compileCreate, bind_eq_ok, pure_eq_ok, mapError_eq_ok, layoutOf,
    Related.ofRecord_eq_ok_iff, properties] at h
  obtain ⟨_, hvalid, layout, hlayout, identity, hidentity, _, ⟨bound, hbound, related, hrelated,
    rfl⟩, texts, ⟨bound', hbound', htexts⟩, edges, hedges, rfl⟩ := h
  -- Fields are bound once for the matches and once for the properties, with one result.
  obtain rfl : bound = bound' := Except.ok.inj (hbound.symm.trans hbound')
  have hnode := ((validate_eq_ok_iff s).1 hvalid).1
  have hfields := Record.boundFields_eq hlayout hbound
  obtain ⟨hclauses, hflat⟩ := Related.ofBound_ok hs (Record.bound_fits hbound) hrelated
  have hbindings := Related.nodup_ofBound hrecord hlayout hbound hrelated
  rw [Related.byField_eq hbindings] at hedges ⊢
  rw [← hfields] at hclauses
  have hmerge : ReadsClause (mergeNodeClause s.nodeAlias identity.label texts).toList
      (.mergeNode (s.createdPattern record)) := by
    have hlabel : identity.label = s.labelOf record := by
      rw [labelOf, (Identity.require_eq_ok hidentity).2.1, Option.getD_some]
    have hrenders := renderProperties_ok hs htexts
    rw [← hfields] at hrenders
    rw [hlabel]
    exact readsClause_mergeNodeClause hnode hrenders (NullPolicy.nodup_entries hrecord _ _)
  have hrelations : ReadAs edges ((s.edgePatterns record relations).map .mergeRelationship) := by
    rw [edgePatterns, Record.related, hfields]
    exact Related.edgeClauses_ok hnode hbindings hflat hedges
  have hdraft := ((Draft.holds_empty.append hclauses related.aliases).bindAlias
    hmerge s.nodeAlias).addClauses hrelations
  rw [List.nil_append, List.append_assoc] at hdraft
  exact ⟨_, rfl, hdraft, hnode⟩

end CompilerSettings

namespace Sample

def personSchema : RecordSchema :=
  ⟨"Person", [("type", .string), ("uid", .long)]⟩

def teamSchema : RecordSchema :=
  ⟨"Team", [("type", .string), ("uid", .string), ("full name", .nullable .string),
    ("lead", .nullable (.ofRecord personSchema)), ("members", .array (.ofRecord personSchema))]⟩

def person (uid : Int64) : FieldValue :=
  .record personSchema [("type", .string "Person"), ("uid", .long uid)]

def team : Record :=
  ⟨teamSchema, [("type", .string " Team "), ("uid", .string "it's"), ("full name", .string "a)-[:"),
    ("lead", person 7), ("members", .array [person 1, person 7])]⟩

def relations : List Relation :=
  [⟨"LED BY", .outgoing, "lead"⟩, ⟨"HAS", .undirected, "members"⟩]

end Sample

end RecordGraph
