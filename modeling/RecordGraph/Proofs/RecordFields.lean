import RecordGraph.Compiler.Related
import RecordGraph.Proofs.DictEntries
import RecordGraph.Proofs.Results

/-!
Fields of records. Binding succeeds with one bound field for each field of the
schema, in its order, and every value has passed the check of its shape. The
related records are those that stand in structural fields, alone or in a list.
-/

namespace RecordGraph

/-- Each field name stands once. -/
def RecordSchema.Distinct (r : RecordSchema) : Prop :=
  (r.fields.map (·.1)).Nodup

def RecordSchema.Repeats (r : RecordSchema) (name : String) : Prop :=
  List.Duplicate name (r.fields.map (·.1))

instance (r : RecordSchema) (name : String) : Decidable (r.Repeats name) :=
  inferInstanceAs (Decidable (List.Duplicate name (r.fields.map (·.1))))

theorem RecordSchema.Distinct.not_repeats {r : RecordSchema} (h : r.Distinct) (name : String) :
    ¬ r.Repeats name :=
  List.nodup_iff_forall_not_duplicate.1 h name

theorem RecordSchema.ofFields_eq_ok_iff {name : String} {fields : List (String × Schema)}
    {r : RecordSchema} : ofFields name fields = .ok r ↔ r = ⟨name, fields⟩ ∧ r.Distinct := by
  have hiff := firstRepeated?_eq_none_iff [] (fields.map (·.1))
  cases h : firstRepeated? [] (fields.map (·.1)) with
  | none =>
    simp only [ofFields, h, Except.ok.injEq]
    exact ⟨fun e => e ▸ ⟨rfl, (hiff.1 h).1⟩, fun e => e.1.symm⟩
  | some field =>
    simp only [ofFields, h, reduceCtorEq, false_iff, not_and]
    rintro rfl hdistinct
    rw [h] at hiff
    exact absurd (hiff.2 ⟨hdistinct, by simp⟩) (by simp)

theorem RecordSchema.field?_eq_none_iff {schema : RecordSchema} {name : String} :
    schema.field? name = none ↔ name ∉ schema.fields.map (·.1) := by
  rw [field?, Option.map_eq_none_iff, find?_name_eq_none_iff]

theorem RecordSchema.exists_field?_iff {schema : RecordSchema} {name : String} :
    (∃ s, schema.field? name = some s) ↔ name ∈ schema.fields.map (·.1) := by
  rw [← Option.ne_none_iff_exists', ne_eq, field?_eq_none_iff, not_not]

theorem RecordSchema.mem_fields_of_field? {r : RecordSchema} {name : String} {s : Schema}
    (h : r.field? name = some s) : (name, s) ∈ r.fields := by
  obtain ⟨⟨n, s'⟩, hf, rfl⟩ := Option.map_eq_some_iff.1 h
  obtain rfl : n = name := by simpa using List.find?_some hf
  exact List.mem_of_find?_eq_some hf

/-- Names and order of the entries are those of the schema. -/
def Record.Complete (r : Record) : Prop :=
  r.entries.map (·.1) = r.schema.fields.map (·.1)

theorem Record.Complete.get?_eq {r : Record} (h : r.Complete) (name : String) :
    r.get? name = (r.schema.indexOf? name).bind fun i => r.entries[i]?.map (·.2) := by
  have hindex : r.schema.indexOf? name = r.entries.findIdx? (fun e => e.1 = name) := by
    have hfields := List.findIdx?_map (f := Prod.fst) (l := r.schema.fields)
      (p := fun n => decide (n = name))
    have hentries := List.findIdx?_map (f := Prod.fst) (l := r.entries)
      (p := fun n => decide (n = name))
    exact hfields.symm.trans ((congrArg _ h.symm).trans hentries)
  rw [hindex, get?, List.find?_eq_bind_findIdx?_getElem?, Option.map_bind]
  rfl

/-- What building a record promises: distinct field names, and an entry for each of them. -/
structure Record.Valid (r : Record) : Prop where
  distinct : r.schema.Distinct
  complete : r.Complete

namespace Layout

theorem names_classifyFields {fields : List (String × Schema)}
    {shapes : List (String × FieldShape)} (h : classifyFields fields = .ok shapes) :
    shapes.map (·.1) = fields.map (·.1) := by
  induction fields generalizing shapes with
  | nil =>
    obtain rfl := Except.ok.inj h
    rfl
  | cons f rest ih =>
    obtain ⟨name, schema⟩ := f
    simp only [classifyFields, bind_eq_ok, pure_eq_ok] at h
    obtain ⟨shape, -, more, hmore, rfl⟩ := h
    simp [ih hmore]

/-- A bound field holds the record's value, which its shape accepts. -/
def Bound.Fits (record : Record) (b : Bound) : Prop :=
  record.get? b.name = some b.value ∧ b.shape.checkValue b.value = .ok ()

theorem bindFields_ok {record : Record} {fields : List (String × FieldShape)}
    {bound : List Bound} (h : bindFields record fields = .ok bound) :
    bound.map (fun b => (b.name, b.shape)) = fields ∧ ∀ b ∈ bound, b.Fits record := by
  induction fields generalizing bound with
  | nil =>
    obtain rfl := Except.ok.inj h
    simp
  | cons f rest ih =>
    obtain ⟨name, shape⟩ := f
    unfold bindFields at h
    split at h
    · simp at h
    · rename_i value hvalue
      simp only [bind_eq_ok, pure_eq_ok, FieldShape.check, mapError_eq_ok] at h
      obtain ⟨_, hcheck, more, hmore, rfl⟩ := h
      obtain ⟨hnames, hfits⟩ := ih hmore
      refine ⟨by simp [hnames], fun b hb => ?_⟩
      rcases List.mem_cons.1 hb with rfl | hb
      · exact ⟨hvalue, hcheck⟩
      · exact hfits b hb

end Layout

def Record.boundFields (r : Record) : List Layout.Bound :=
  match Layout.classify r.schema with
  | .error _ => []
  | .ok layout =>
    match layout.bind r with
    | .error _ => []
    | .ok bound => bound

namespace Record

variable {r : Record} {layout : Layout} {bound : List Layout.Bound}

theorem boundFields_eq (hlayout : Layout.classify r.schema = .ok layout)
    (hbound : layout.bind r = .ok bound) : r.boundFields = bound := by
  simp [boundFields, hlayout, hbound]

theorem bound_fits (hbound : layout.bind r = .ok bound) : ∀ b ∈ bound, b.Fits r :=
  (Layout.bindFields_ok hbound).2

theorem names_bound (hlayout : Layout.classify r.schema = .ok layout)
    (hbound : layout.bind r = .ok bound) :
    bound.map (·.name) = r.schema.fields.map (·.1) := by
  obtain ⟨shapes, hshapes, rfl⟩ := map_eq_ok.1 hlayout
  have hfields : bound.map (fun b => (b.name, b.shape)) = shapes :=
    (Layout.bindFields_ok hbound).1
  rw [← Layout.names_classifyFields hshapes, ← hfields, List.map_map]
  rfl

theorem nodup_boundFields (hschema : r.schema.Distinct) : (r.boundFields.map (·.name)).Nodup := by
  cases hlayout : Layout.classify r.schema with
  | error e => simp [boundFields, hlayout]
  | ok layout =>
    cases hbound : layout.bind r with
    | error e => simp [boundFields, hlayout, hbound]
    | ok bound =>
      rw [boundFields_eq hlayout hbound, names_bound hlayout hbound]
      exact hschema

end Record

/-- A scalar or a list of scalars that the record holds under a field of its schema. -/
def Record.Holds (r : Record) (name : String) (v : FieldValue) : Prop :=
  ∃ schema shape, (name, schema) ∈ r.schema.fields ∧ FieldShape.ofSchema schema = .ok shape ∧
    shape.isStructural = false ∧ r.get? name = some v

theorem Layout.mem_classifyFields {fields : List (String × Schema)}
    {shapes : List (String × FieldShape)} (h : classifyFields fields = .ok shapes)
    {name : String} {shape : FieldShape} :
    (name, shape) ∈ shapes ↔ ∃ schema, (name, schema) ∈ fields ∧
      FieldShape.ofSchema schema = .ok shape := by
  induction fields generalizing shapes with
  | nil =>
    obtain rfl := Except.ok.inj h
    simp
  | cons f rest ih =>
    obtain ⟨field, schema⟩ := f
    simp only [classifyFields, FieldShape.classify, bind_eq_ok, pure_eq_ok, mapError_eq_ok] at h
    obtain ⟨first, hfirst, more, hmore, rfl⟩ := h
    simp only [List.mem_cons, Prod.mk.injEq, ih hmore]
    constructor
    · rintro (⟨rfl, rfl⟩ | ⟨other, hmem, hother⟩)
      · exact ⟨schema, .inl ⟨rfl, rfl⟩, hfirst⟩
      · exact ⟨other, .inr hmem, hother⟩
    · rintro ⟨other, ⟨rfl, rfl⟩ | hmem, hother⟩
      · exact .inl ⟨rfl, Except.ok.inj (hother.symm.trans hfirst)⟩
      · exact .inr ⟨other, hmem, hother⟩

theorem Layout.find?_classifyFields {fields : List (String × Schema)}
    {shapes : List (String × FieldShape)} (h : classifyFields fields = .ok shapes)
    {name : String} {shape : FieldShape} :
    (shapes.find? (fun f => f.1 = name)).map (·.2) = some shape ↔
      ∃ schema, (fields.find? (fun f => f.1 = name)).map (·.2) = some schema ∧
        FieldShape.ofSchema schema = .ok shape := by
  induction fields generalizing shapes with
  | nil =>
    obtain rfl := Except.ok.inj h
    simp
  | cons f rest ih =>
    obtain ⟨field, schema⟩ := f
    simp only [classifyFields, FieldShape.classify, bind_eq_ok, pure_eq_ok, mapError_eq_ok] at h
    obtain ⟨first, hfirst, more, hmore, rfl⟩ := h
    by_cases hname : field = name
    · simp [hname, hfirst]
    · simpa [hname] using ih hmore

theorem Layout.shape?_eq_some_iff {schema : RecordSchema} {layout : Layout}
    (h : classify schema = .ok layout) {name : String} {shape : FieldShape} :
    layout.shape? name = some shape ↔
      ∃ field, schema.field? name = some field ∧ FieldShape.ofSchema field = .ok shape := by
  obtain ⟨shapes, hshapes, rfl⟩ := map_eq_ok.1 h
  exact find?_classifyFields hshapes

theorem Record.holds_iff {r : Record} {layout : Layout} {bound : List Layout.Bound}
    (hlayout : Layout.classify r.schema = .ok layout) (hbound : layout.bind r = .ok bound)
    {name : String} {v : FieldValue} :
    r.Holds name v ↔ ∃ b ∈ bound, b.shape.isStructural = false ∧ b.name = name ∧ b.value = v := by
  obtain ⟨shapes, hshapes, rfl⟩ := map_eq_ok.1 hlayout
  have hfields : bound.map (fun b => (b.name, b.shape)) = shapes :=
    (Layout.bindFields_ok hbound).1
  have hfits := bound_fits hbound
  constructor
  · rintro ⟨schema, shape, hmem, hshape, hscalar, hv⟩
    have hin := (Layout.mem_classifyFields hshapes).2 ⟨schema, hmem, hshape⟩
    rw [← hfields] at hin
    obtain ⟨b, hb, heq⟩ := List.mem_map.1 hin
    obtain ⟨rfl, rfl⟩ := Prod.mk.inj heq
    exact ⟨b, hb, hscalar, rfl, Option.some.inj ((hfits b hb).1.symm.trans hv)⟩
  · rintro ⟨b, hb, hscalar, rfl, rfl⟩
    have hin := List.mem_map_of_mem (f := fun b => (b.name, b.shape)) hb
    rw [hfields] at hin
    obtain ⟨schema, hmem, hshape⟩ := (Layout.mem_classifyFields hshapes).1 hin
    exact ⟨schema, b.shape, hmem, hshape, hscalar, (hfits b hb).1⟩

theorem Related.ofRecord_eq_ok_iff {s : CompilerSettings} {layout : Layout} {record : Record}
    {related : Related} : ofRecord s layout record = .ok related ↔
      ∃ bound, layout.bind record = .ok bound ∧
        ∃ found, ofBound s 1 bound = .ok found ∧ found.byField = related := by
  simp only [ofRecord, bind_eq_ok, pure_eq_ok, mapError_eq_ok]

theorem Related.length_matchRecords {s : CompilerSettings} {next : Nat}
    {located : List Located} {found : List (Match × String)}
    (h : matchRecords s next located = .ok found) : found.length = located.length := by
  induction located generalizing next found with
  | nil =>
    obtain rfl := Except.ok.inj h
    rfl
  | cons l rest ih =>
    simp only [matchRecords, bind_eq_ok, pure_eq_ok] at h
    obtain ⟨identity, -, literal, -, more, hmore, rfl⟩ := h
    simp [ih hmore]

theorem Related.bindings_ofBound {s : CompilerSettings} {next : Nat}
    {bound : List Layout.Bound} {related : Related}
    (h : ofBound s next bound = .ok related) :
    related.bindings.map (fun e => (e.1, e.2.length)) =
      (bound.filter (·.shape.isStructural)).map fun b => (b.name, (locate b).length) := by
  induction bound generalizing next related with
  | nil =>
    obtain rfl := Except.ok.inj h
    rfl
  | cons b rest ih =>
    unfold ofBound at h
    split at h
    · rename_i hstruct
      simp only [bind_eq_ok, pure_eq_ok] at h
      obtain ⟨found, hfound, more, hmore, rfl⟩ := h
      simp [hstruct, ih hmore, length_matchRecords hfound]
    · rename_i hstruct
      simp [hstruct, ih h]

theorem Related.names_ofBound {s : CompilerSettings} {next : Nat} {bound : List Layout.Bound}
    {related : Related} (h : ofBound s next bound = .ok related) :
    related.bindings.map (·.1) = (bound.filter (·.shape.isStructural)).map (·.name) := by
  simpa [Function.comp_def] using congrArg (List.map Prod.fst) (bindings_ofBound h)

theorem Related.nodup_ofBound {s : CompilerSettings} {record : Record}
    (hrecord : record.schema.Distinct) {layout : Layout}
    (hlayout : Layout.classify record.schema = .ok layout) {bound : List Layout.Bound}
    (hbound : layout.bind record = .ok bound) {next : Nat} {related : Related}
    (h : ofBound s next bound = .ok related) : (related.bindings.map (·.1)).Nodup := by
  have hnodup := Record.nodup_boundFields hrecord
  rw [Record.boundFields_eq hlayout hbound] at hnodup
  rw [names_ofBound h]
  exact hnodup.sublist (List.filter_sublist.map _)

theorem Related.byField_eq {r : Related} (h : (r.bindings.map (·.1)).Nodup) : r.byField = r := by
  rw [byField, Slots.entries_ofList h]

def FieldValue.records : FieldValue → List Record
  | .record schema entries => [⟨schema, entries⟩]
  | .array items => items.filterMap FieldValue.asRecord?
  | _ => []

theorem Related.locateItems_records (field : String) (index : Nat) (items : List FieldValue) :
    (locateItems field index items).map (·.2) = items.filterMap FieldValue.asRecord? := by
  induction items generalizing index with
  | nil => rfl
  | cons v rest ih =>
    cases v <;>
      simp only [locateItems, List.filterMap_cons, FieldValue.asRecord?, List.map_cons, ih]

theorem FieldShape.records_of_checkScalars {type : ScalarType} {nullable : Bool}
    {items : List FieldValue} (h : checkScalars type nullable items = .ok ()) :
    items.filterMap FieldValue.asRecord? = [] := by
  induction items with
  | nil => rfl
  | cons v rest ih =>
    have hv : v.asRecord? = none ∧ checkScalars type nullable rest = .ok () := by
      unfold checkScalars at h
      split at h
      · rename_i hnull
        refine ⟨by cases v <;> simp_all [FieldValue.isNull, FieldValue.asRecord?], ?_⟩
        cases nullable <;> simp_all
      · split at h
        · rename_i haccepts
          cases v <;> simp_all [ScalarType.accepts, FieldValue.asRecord?]
        · simp at h
    rw [List.filterMap_cons, hv.1]
    exact ih hv.2

namespace Layout.Bound

variable {b : Bound}

theorem locate_records (hb : b.shape.isStructural = true)
    (hcheck : b.shape.checkValue b.value = .ok ()) :
    (Related.locate b).map (·.2) = b.value.records := by
  obtain ⟨name, ⟨kind, nullable, nullableItems⟩, value⟩ := b
  cases kind <;> simp only [FieldShape.isStructural, ShapeKind.isStructural, Bool.false_eq_true]
    at hb
  all_goals
    cases value <;> simp_all [FieldShape.checkValue, Related.locate, FieldValue.records,
      FieldValue.isNull, Related.locateItems_records]

theorem records_eq_nil (hb : b.shape.isStructural = false)
    (hcheck : b.shape.checkValue b.value = .ok ()) : b.value.records = [] := by
  obtain ⟨name, ⟨kind, nullable, nullableItems⟩, value⟩ := b
  cases kind <;> simp only [FieldShape.isStructural, ShapeKind.isStructural, Bool.true_eq_false]
    at hb
  · cases value <;> simp_all [FieldShape.checkValue, FieldValue.records, FieldValue.isNull,
      ScalarType.accepts]
  · cases value <;> simp_all [FieldShape.checkValue, FieldValue.records, FieldValue.isNull]
    simpa using FieldShape.records_of_checkScalars hcheck

end Layout.Bound

end RecordGraph
