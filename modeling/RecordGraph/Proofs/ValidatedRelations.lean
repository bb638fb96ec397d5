import RecordGraph.Compiler.Basic
import RecordGraph.Proofs.RecordFields
import RecordGraph.Proofs.RelationTexts

/-!
Validated relations at compilation. Every structural field of a record is bound,
whether or not it holds any related records, so a relation to such a field always
finds its matches and has one relationship clause for each related record.
-/

namespace RecordGraph

open Statement

/-- Related records of a structural field: the value itself or its elements, unless null. -/
def FieldValue.relatedCount : FieldValue → Nat
  | .null => 0
  | .array items => items.countP fun v => !v.isNull
  | _ => 1

def Record.relatedCount (r : Record) (field : String) : Nat :=
  (r.get? field).elim 0 FieldValue.relatedCount

theorem FieldShape.isSome_asRecord?_of_checkRecords {nullable : Bool} {items : List FieldValue}
    (h : checkRecords nullable items = .ok ()) :
    ∀ v ∈ items, v.asRecord?.isSome = true ↔ (!v.isNull) = true := by
  induction items with
  | nil => simp
  | cons v rest ih =>
    have hv : (v.asRecord?.isSome = true ↔ (!v.isNull) = true) ∧
        checkRecords nullable rest = .ok () := by
      cases v with
      | null =>
        cases nullable with
        | false => cases h
        | true => exact ⟨by decide, h⟩
      | record => exact ⟨iff_of_true rfl rfl, h⟩
      | _ => cases h
    exact List.forall_mem_cons.2 ⟨hv.1, ih hv.2⟩

namespace Layout.Bound

variable {b : Layout.Bound}

theorem length_locate (hb : b.shape.isStructural = true)
    (hcheck : b.shape.checkValue b.value = .ok ()) :
    (Related.locate b).length = b.value.relatedCount := by
  have hrecords := congrArg List.length (locate_records hb hcheck)
  rw [List.length_map] at hrecords
  rw [hrecords]
  obtain ⟨name, ⟨kind, nullable, nullableItems⟩, value⟩ := b
  cases kind with
  | scalar type => cases hb
  | scalarList type => cases hb
  | nested schema =>
    cases value with
    | null => rfl
    | record => rfl
    | _ => cases hcheck
  | nestedList schema =>
    cases value with
    | null => rfl
    | array items =>
      change (items.filterMap FieldValue.asRecord?).length = items.countP fun v => !v.isNull
      rw [List.length_filterMap_eq_countP]
      exact List.countP_congr (FieldShape.isSome_asRecord?_of_checkRecords hcheck)
    | _ => cases hcheck

end Layout.Bound

namespace Related

variable {s : CompilerSettings}

/-! Errors -/

theorem require_ne_relation {labelField keyField path : String} {record : Record}
    {cause : RelationError} :
    Identity.require labelField keyField record path ≠ .error (.relation cause) := by
  unfold Identity.require
  split <;> simp

theorem matchRecords_ne_relation {next : Nat} {located : List Located} {cause : RelationError} :
    matchRecords s next located ≠ .error (.relation cause) := by
  induction located generalizing next with
  | nil => simp [matchRecords]
  | cons l rest ih =>
    obtain ⟨path, record⟩ := l
    simp [matchRecords, identify, bind_eq_error, mapError_eq_error, require_ne_relation, ih,
      pure, Except.pure]

theorem ofBound_ne_relation {next : Nat} {bound : List Layout.Bound} {cause : RelationError} :
    ofBound s next bound ≠ .error (.relation cause) := by
  induction bound generalizing next with
  | nil => simp [ofBound]
  | cons b rest ih =>
    unfold ofBound
    split
    · simp [bind_eq_error, matchRecords_ne_relation, ih, pure, Except.pure]
    · exact ih

variable {related : Related} {node : String} {relations : List Relation} {edges : List String}

theorem edgeClauses_eq_ok_iff :
    related.edgeClauses node relations = .ok edges ↔
      (∀ r ∈ relations, (related.matchesOf? r.field).isSome = true) ∧
        edges = relations.flatMap fun r => ((related.matchesOf? r.field).getD []).map fun m =>
          edgeClause node (escapeName r.label) r.direction m.node := by
  induction relations generalizing edges with
  | nil => simp [edgeClauses]
  | cons r rest ih =>
    unfold edgeClauses
    rw [List.forall_mem_cons, List.flatMap_cons]
    cases related.matchesOf? r.field with
    | none => simp
    | some found =>
      simp only [bind_eq_ok, pure_eq_ok, ih, Option.isSome_some, true_and, Option.getD_some]
      constructor
      · rintro ⟨_, ⟨hrest, rfl⟩, rfl⟩
        exact ⟨hrest, rfl⟩
      · rintro ⟨hrest, rfl⟩
        exact ⟨_, ⟨hrest, rfl⟩, rfl⟩

theorem isBlankText_of_mem_edgeClauses (h : related.edgeClauses node relations = .ok edges) :
    ∀ e ∈ edges, Text.isBlankText e = false := by
  obtain ⟨-, rfl⟩ := edgeClauses_eq_ok_iff.1 h
  intro e he
  obtain ⟨r, -, he⟩ := List.mem_flatMap.1 he
  obtain ⟨m, -, rfl⟩ := List.mem_map.1 he
  cases hdirection : r.direction <;> exact
    Text.isBlankText_of_mem (c := 'M') (by simp [edgeClause]) (by decide)

end Related

namespace CompilerSettings

variable {s : CompilerSettings} {record : Record} {relations : List Relation}

theorem compileCreate_eq_relation {cause : RelationError}
    (h : s.compileCreate record relations = .error (.relation cause)) :
    ∃ related, s.related record = .ok related ∧
      related.edgeClauses s.nodeAlias relations = .error cause := by
  have hvalidate : s.validate ≠ .error (.relation cause) := by
    unfold validate
    grind
  simp only [compileCreate, bind_eq_error, hvalidate, layoutOf, mapError_eq_error, identityOf,
    Related.require_ne_relation, Related.ofRecord, Related.ofBound_ne_relation, properties,
    reduceCtorEq, and_false, exists_false, or_false, false_or, pure, Except.pure,
    CompileError.relation.injEq, exists_eq_right] at h
  obtain ⟨-, -, layout, hlayout, -, -, related, hrelated, -, -, hedges⟩ := h
  refine ⟨related, ?_, hedges⟩
  rw [CompilerSettings.related, layoutOf, hlayout]
  exact hrelated

theorem clauses_compileCreate {c : CompiledStatement}
    (h : s.compileCreate record relations = .ok c) :
    ∃ related label properties edges, s.related record = .ok related ∧
      related.edgeClauses s.nodeAlias relations = .ok edges ∧
      c.clauses = related.clauses ++ mergeNodeClause s.nodeAlias label properties :: edges ++
        ["RETURN " ++ s.nodeAlias] := by
  simp only [compileCreate, bind_eq_ok, pure_eq_ok, mapError_eq_ok] at h
  obtain ⟨_, -, layout, hlayout, identity, -, related, hrelated, texts, -, edges, hedges, rfl⟩ := h
  refine ⟨related, identity.label, texts, edges, ?_, hedges, ?_⟩
  · rw [CompilerSettings.related, hlayout]
    exact hrelated
  · have hnode : Text.isBlankText (mergeNodeClause s.nodeAlias identity.label texts) = false := by
      refine Text.isBlankText_of_mem (c := 'M') ?_ (by decide)
      unfold mergeNodeClause
      split <;> simp
    have hkept : edges.filter (fun e => !Text.isBlankText e) = edges :=
      List.filter_eq_self.2 fun e he => by
        simp [Related.isBlankText_of_mem_edgeClauses hedges e he]
    simp [Draft.empty, Draft.append, Draft.bindAlias, Draft.addClauses, Draft.returning, hnode,
      hkept]

section Bound

variable {layout : Layout} {bound : List Layout.Bound} {found : Related}

theorem counts_ofBound (hbound : layout.bind record = .ok bound)
    (h : Related.ofBound s 1 bound = .ok found) :
    found.bindings.map (fun e => (e.1, e.2.length)) =
      layout.structuralFields.map fun field => (field, record.relatedCount field) := by
  obtain ⟨hfields, hfits⟩ := Layout.bindFields_ok hbound
  rw [Related.bindings_ofBound h, Layout.structuralFields, ← hfields, List.filter_map,
    List.map_map, List.map_map]
  refine List.map_congr_left fun b hb => ?_
  obtain ⟨hb, hstruct⟩ := List.mem_filter.1 hb
  obtain ⟨hget, hcheck⟩ := hfits b hb
  simp [Record.relatedCount, hget, Layout.Bound.length_locate hstruct hcheck]

theorem fields_ofBound (hbound : layout.bind record = .ok bound)
    (h : Related.ofBound s 1 bound = .ok found) :
    found.bindings.map (·.1) = layout.structuralFields := by
  simpa [Function.comp_def] using congrArg (List.map Prod.fst) (counts_ofBound hbound h)

theorem length_of_mem_ofBound (hbound : layout.bind record = .ok bound)
    (h : Related.ofBound s 1 bound = .ok found) {e : String × List Match}
    (he : e ∈ found.bindings) : e.2.length = record.relatedCount e.1 := by
  obtain ⟨field, -, heq⟩ := List.mem_map.1 (counts_ofBound hbound h ▸ List.mem_map_of_mem he)
  obtain ⟨rfl, hlength⟩ := Prod.mk.inj heq
  exact hlength.symm

end Bound

theorem related_eq_ok_iff {layout : Layout} (hlayout : Layout.classify record.schema = .ok layout)
    {related : Related} : s.related record = .ok related ↔
      ∃ bound, layout.bind record = .ok bound ∧
        ∃ found, Related.ofBound s 1 bound = .ok found ∧ found.byField = related := by
  rw [CompilerSettings.related, layoutOf, hlayout]
  exact Related.ofRecord_eq_ok_iff

/-- Exactly the structural fields are bound, each with a match for every related record in it. -/
theorem bindings_related {layout : Layout} {related : Related}
    (hlayout : Layout.classify record.schema = .ok layout) (h : s.related record = .ok related) :
    related.bindings.map (fun e => (e.1, e.2.length)) =
      layout.structuralFields.eraseDups.map fun field => (field, record.relatedCount field) := by
  obtain ⟨bound, hbound, found, hfound, rfl⟩ := (related_eq_ok_iff hlayout).1 h
  rw [← fields_ofBound hbound hfound]
  exact Slots.map_ofList fun e he => length_of_mem_ofBound hbound hfound he

theorem matchesOf?_related {layout : Layout} {related : Related} {field : String}
    (hlayout : Layout.classify record.schema = .ok layout) (h : s.related record = .ok related)
    (hfield : field ∈ layout.structuralFields) :
    ∃ found, related.matchesOf? field = some found ∧ found.length = record.relatedCount field := by
  have hbindings := bindings_related hlayout h
  have hmem : field ∈ related.bindings.map (·.1) := by
    have hnames : related.bindings.map (·.1) = layout.structuralFields.eraseDups := by
      simpa [Function.comp_def] using congrArg (List.map Prod.fst) hbindings
    rwa [hnames, List.mem_eraseDups]
  obtain ⟨e, he⟩ := exists_find?_name_iff.2 hmem
  refine ⟨e.2, by simp [Related.matchesOf?, he], ?_⟩
  obtain ⟨name, -, hcount⟩ := List.mem_map.1
    (hbindings ▸ List.mem_map_of_mem (List.mem_of_find?_eq_some he))
  obtain ⟨rfl, hcount⟩ := Prod.mk.inj hcount
  have hfield : e.1 = field := by simpa using List.find?_some he
  rw [← hcount, hfield]

/-- Relations that were read against the schema compile for every record of it, and each of them
has one relationship clause for every related record of its field. -/
theorem compileCreate_validated (s : CompilerSettings) {layout : Layout} {text : String}
    (hlayout : Layout.classify record.schema = .ok layout)
    (hparsed : Relation.parseList text layout.structuralFields = .ok relations) :
    ∃ decoded, Relation.decodeList (Relation.encodeList relations) = .ok decoded ∧
      (∀ cause, s.compileCreate record decoded ≠ .error (.relation cause)) ∧
      ∀ c, s.compileCreate record decoded = .ok c →
        ∃ related label properties edges, s.related record = .ok related ∧
          related.edgeClauses s.nodeAlias decoded = .ok edges ∧
          c.clauses = related.clauses ++ mergeNodeClause s.nodeAlias label properties :: edges ++
            ["RETURN " ++ s.nodeAlias] ∧
          edges.length = (decoded.map fun r => record.relatedCount r.field).sum := by
  obtain ⟨hnodup, hfit⟩ := Relation.parseList_eq_ok hparsed
  have hwire := (Relation.decodeList_encodeList_eq_ok_iff relations).2
    ⟨hnodup, fun r hr => (hfit r hr).1⟩
  refine ⟨relations, hwire, fun cause h => ?_, fun c h => ?_⟩
  · obtain ⟨related, hrelated, hedges⟩ := compileCreate_eq_relation h
    have hbound : ∀ r ∈ relations, (related.matchesOf? r.field).isSome = true := fun r hr => by
      obtain ⟨found, hfound, -⟩ := matchesOf?_related hlayout hrelated (hfit r hr).2
      simp [hfound]
    rw [(Related.edgeClauses_eq_ok_iff).2 ⟨hbound, rfl⟩] at hedges
    simp at hedges
  · obtain ⟨related, label, properties, edges, hrelated, hedges, hclauses⟩ :=
      clauses_compileCreate h
    refine ⟨related, label, properties, edges, hrelated, hedges, hclauses, ?_⟩
    obtain ⟨-, rfl⟩ := Related.edgeClauses_eq_ok_iff.1 hedges
    rw [List.length_flatMap]
    refine congrArg List.sum (List.map_congr_left fun r hr => ?_)
    obtain ⟨found, hfound, hlength⟩ := matchesOf?_related hlayout hrelated (hfit r hr).2
    simp [hfound, hlength]

end CompilerSettings

namespace Sample

def singerSchema : RecordSchema :=
  ⟨"Singer", [("type", .string), ("uid", .long)]⟩

def singer (uid : Int64) : FieldValue :=
  .record singerSchema [("type", .string "Singer"), ("uid", .long uid)]

def choir : Record :=
  ⟨⟨"Choir", [("type", .string), ("uid", .string), ("conductor", .nullable (.ofRecord singerSchema)),
      ("singers", .array (.nullable (.ofRecord singerSchema)))]⟩,
    [("type", .string "Choir"), ("uid", .string "c1"), ("conductor", .null),
      ("singers", .array [singer 1, .null, singer 2])]⟩

def choirRelations : List Relation :=
  [⟨"LED BY", .outgoing, "conductor"⟩, ⟨"sings in", .incoming, "singers"⟩]

end Sample

theorem compileCreate_validated_choir :
    (∃ layout, Layout.classify Sample.choir.schema = .ok layout ∧
      Relation.parseList "LED BY:>(conductor), sings in:<(singers)" layout.structuralFields =
        .ok Sample.choirRelations) ∧
    ∃ c related edges,
      CompilerSettings.default.compileCreate Sample.choir Sample.choirRelations = .ok c ∧
      CompilerSettings.default.related Sample.choir = .ok related ∧
      related.edgeClauses "m" Sample.choirRelations = .ok edges ∧ edges.length = 2 := by
  obtain ⟨layout, hlayout, hparsed⟩ : ∃ layout, Layout.classify Sample.choir.schema = .ok layout ∧
      Relation.parseList "LED BY:>(conductor), sings in:<(singers)" layout.structuralFields =
        .ok Sample.choirRelations := ⟨_, rfl, by decide +kernel⟩
  obtain ⟨decoded, hdecoded, -, hclauses⟩ :=
    CompilerSettings.default.compileCreate_validated hlayout hparsed
  have hwire : Relation.decodeList (Relation.encodeList Sample.choirRelations) =
      .ok Sample.choirRelations := by decide +kernel
  obtain rfl : Sample.choirRelations = decoded := Except.ok.inj (hwire.symm.trans hdecoded)
  obtain ⟨related, -, -, edges, hrelated, hedges, -, hcount⟩ := hclauses _ rfl
  exact ⟨⟨layout, hlayout, hparsed⟩, _, related, edges, rfl, hrelated, hedges, hcount⟩

end RecordGraph
