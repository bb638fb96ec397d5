import RecordGraph.Proofs.DecodedValues
import RecordGraph.Proofs.RelatedErrors

/-!
Origins of inconsistencies. A record that was built or read holds a value for every field of its
schema, and so does every record in it. Compilation of such a record ends in an inconsistency only
where a schema has no layout, where a value does not fit its shape or where a float is not finite;
the reasons that guard against anything else never show.
-/

namespace RecordGraph

open Statement

/-! Records as they are made -/

def FieldValue.IsSimple (v : FieldValue) : Prop :=
  v.asArray? = none ∧ v.asRecord? = none

/-- The values that can be given to a record: simple values, lists, and records that were built or
read with a schema whose field names are distinct. -/
inductive FieldValue.Made : FieldValue → Prop
  | simple {v : FieldValue} (h : v.IsSimple) : Made v
  | array {items : List FieldValue} (h : ∀ v ∈ items, Made v) : Made (.array items)
  | built {name : String} {fields : List (String × Schema)} {schema : RecordSchema}
      {given : List (String × FieldValue)} {r : Record}
      (hschema : RecordSchema.ofFields name fields = .ok schema)
      (hgiven : ∀ e ∈ given, Made e.2) (h : Record.build schema given = .ok r) :
      Made (.ofRecord r)
  | read {name : String} {fields : List (String × Schema)} {schema : RecordSchema} {json : Json}
      {r : Record} (hschema : RecordSchema.ofFields name fields = .ok schema)
      (h : Record.ofJson schema json = .ok r) : Made (.ofRecord r)

def Record.Made (r : Record) : Prop :=
  (FieldValue.ofRecord r).Made

def Record.Covers (r : Record) : Prop :=
  ∀ name ∈ r.schema.fields.map (·.1), name ∈ r.entries.map (·.1)

/-- Every record in a value, at any depth, has an entry for each field of its schema. -/
inductive FieldValue.Whole : FieldValue → Prop
  | simple {v : FieldValue} (h : v.IsSimple) : Whole v
  | array {items : List FieldValue} (h : ∀ v ∈ items, Whole v) : Whole (.array items)
  | record {schema : RecordSchema} {entries : List (String × FieldValue)}
      (hcovers : (⟨schema, entries⟩ : Record).Covers) (h : ∀ e ∈ entries, Whole e.2) :
      Whole (.record schema entries)

namespace Record

theorem covers_of_names {schema : RecordSchema} {entries : List (String × FieldValue)}
    (h : entries.map (·.1) = (schema.fields.map (·.1)).eraseDups) :
    (⟨schema, entries⟩ : Record).Covers := fun name hname => by
  rw [h]
  exact List.mem_eraseDups.2 hname

end Record

namespace FieldValue

theorem Whole.null : Whole .null :=
  .simple ⟨rfl, rfl⟩

theorem whole_of_decodes {s : Schema} {j : Json} {v : FieldValue} (h : s.Decodes j v) :
    v.Whole := by
  induction h with
  | array length _ ih =>
    refine .array fun v hv => ?_
    obtain ⟨j, hj⟩ := exists_of_mem_of_forall₂ (List.forall₂_iff_zip.2 ⟨length.symm, ih _⟩) hv
    exact hj.2
  | @record r members entries names absent repeated _ ih =>
    refine .record (Record.covers_of_names names) fun e he => ?_
    by_cases hrepeats : r.Repeats e.1
    · rw [repeated e he hrepeats]
      exact .null
    cases hj : (Json.object members).field? e.1 with
    | none =>
      rw [absent e he hj]
      exact .null
    | some j =>
      obtain ⟨s, hs⟩ := Schema.exists_field?_of_names names he
      exact ih e he hrepeats j s hj hs
  | union _ _ _ _ _ ih => exact ih
  | _ => exact .simple ⟨rfl, rfl⟩

theorem whole_settled {schema : RecordSchema} {given : List (String × FieldValue)}
    (h : ∀ e ∈ given, e.2.Whole) (name : String) : (Record.settled schema given name).Whole := by
  unfold Record.settled Record.valueFor
  split
  · exact .null
  cases hfound : given.reverse.find? (fun e => e.1 = name) with
  | none => exact .null
  | some e => exact h e (List.mem_reverse.1 (List.mem_of_find?_eq_some hfound))

theorem Made.whole {v : FieldValue} (h : v.Made) : v.Whole := by
  induction h with
  | simple h => exact .simple h
  | array _ ih => exact .array ih
  | built _ _ h ih =>
    obtain ⟨-, rfl⟩ := Record.build_eq_ok_iff.1 h
    refine .record (Record.covers_of_names (Record.names_settledEntries _ _)) fun e he => ?_
    rw [Record.eq_settled_of_mem he]
    exact whole_settled ih e.1
  | read _ h => exact whole_of_decodes (Record.ofJson_eq_ok_iff.1 h).2

theorem Whole.of_record {schema : RecordSchema} {entries : List (String × FieldValue)}
    (h : (FieldValue.record schema entries).Whole) :
    (⟨schema, entries⟩ : Record).Covers ∧ ∀ e ∈ entries, e.2.Whole := by
  cases h with
  | simple h => cases h.2
  | record hcovers h => exact ⟨hcovers, h⟩

theorem Whole.covers_of_mem_records {v : FieldValue} (h : v.Whole) {x : Record}
    (hx : x ∈ v.records) : x.Covers := by
  cases h with
  | simple h => cases v <;> simp_all [records, IsSimple, asArray?, asRecord?]
  | array h =>
    obtain ⟨w, hw, hrecord⟩ := List.mem_filterMap.1 hx
    have hwhole := h w hw
    cases w with
    | record schema entries =>
      obtain rfl := Option.some.inj hrecord
      exact hwhole.of_record.1
    | _ => cases hrecord
  | record hcovers =>
    obtain rfl := List.mem_singleton.1 hx
    exact hcovers

end FieldValue

namespace Record

variable {record : Record}

theorem exists_get?_of_covers (h : record.Covers) {name : String}
    (hname : name ∈ record.schema.fields.map (·.1)) : ∃ v, record.get? name = some v := by
  obtain ⟨e, he⟩ := exists_find?_name_iff.2 (h name hname)
  exact ⟨e.2, Option.map_eq_some_iff.2 ⟨e, he, rfl⟩⟩

theorem covers_of_located (h : (FieldValue.ofRecord record).Whole) {l : String × Record}
    (hl : l ∈ record.located) : l.2.Covers := by
  obtain ⟨f, -, hl⟩ := List.mem_flatMap.1 hl
  have hrecord := List.mem_map_of_mem (f := Prod.snd) hl
  rw [FieldValue.map_located] at hrecord
  refine FieldValue.Whole.covers_of_mem_records ?_ hrecord
  cases hvalue : record.get? f.1 with
  | none => exact .null
  | some v =>
    obtain ⟨e, he, rfl⟩ := Option.map_eq_some_iff.1 hvalue
    exact h.of_record.2 e (List.mem_of_find?_eq_some he)

end Record

/-! Reasons that guard against what cannot happen -/

def Reason.isDefensive : Reason → Bool
  | missingField | structuralProperty | recordLiteral => true
  | _ => false

namespace FieldShape

variable {reason : Reason}

theorem isDefensive_of_stripNull {schema : Schema} (h : stripNull schema = .error reason) :
    reason.isDefensive = false := by
  unfold stripNull at h
  split at h
  · split at h <;> cases h <;> rfl
  · cases h
    rfl
  · cases h

theorem isDefensive_of_ofSchema {schema : Schema} (h : ofSchema schema = .error reason) :
    reason.isDefensive = false := by
  obtain h | ⟨⟨resolved, nullable⟩, -, h⟩ := bind_eq_error.1 h
  · exact isDefensive_of_stripNull h
  dsimp only at h
  split at h
  · cases h
  · cases h
  · obtain h | ⟨⟨item, nullableItems⟩, -, h⟩ := bind_eq_error.1 h
    · exact isDefensive_of_stripNull h
    · dsimp only at h
      split at h <;> cases h
      rfl
  · cases h
    rfl

theorem isDefensive_of_checkScalars {type : ScalarType} {nullable : Bool}
    {items : List FieldValue} (h : checkScalars type nullable items = .error reason) :
    reason.isDefensive = false := by
  induction items with
  | nil => cases h
  | cons v rest ih =>
    unfold checkScalars at h
    split_ifs at h
    · exact ih h
    · cases h
      rfl
    · exact ih h
    · cases h
      rfl

theorem isDefensive_of_checkRecords {nullable : Bool} {items : List FieldValue}
    (h : checkRecords nullable items = .error reason) : reason.isDefensive = false := by
  induction items with
  | nil => cases h
  | cons v rest ih =>
    unfold checkRecords at h
    split at h
    · cases h
    · rename_i hcons
      cases hcons
      exact ih h
    · rename_i hcons
      cases hcons
      split_ifs at h
      · exact ih h
      · cases h
        rfl

theorem isDefensive_of_checkValue {shape : FieldShape} {v : FieldValue}
    (h : shape.checkValue v = .error reason) : reason.isDefensive = false := by
  unfold checkValue at h
  split_ifs at h
  · cases h
    rfl
  · split at h
    · exact isDefensive_of_checkScalars h
    · exact isDefensive_of_checkRecords h
    · cases h
    · split at h
      · split_ifs at h
        cases h
        rfl
      · cases h
        rfl

end FieldShape

theorem Layout.isDefensive_of_classify {schema : RecordSchema} {i : Inconsistency}
    (h : classify schema = .error i) : i.reason.isDefensive = false := by
  rw [classify, map_eq_error] at h
  generalize schema.fields = fields at h
  induction fields with
  | nil => cases h
  | cons f rest ih =>
    obtain ⟨name, schema⟩ := f
    simp only [classifyFields, FieldShape.classify, bind_eq_error, mapError_eq_error] at h
    obtain ⟨reason, hreason, rfl⟩ | ⟨shape, -, hmore | ⟨more, -, h⟩⟩ := h
    · exact FieldShape.isDefensive_of_ofSchema hreason
    · exact ih hmore
    · cases h

/-! Floats without a literal -/

/-- The text of a float that a value holds and that is not finite. -/
inductive FieldValue.HoldsNotFinite : String → FieldValue → Prop
  | float {x : Number.Single} (h : x.isFinite = false) : HoldsNotFinite x.plainText (.float x)
  | double {x : Number.Double} (h : x.isFinite = false) : HoldsNotFinite x.plainText (.double x)
  | item {items : List FieldValue} {v : FieldValue} {text : String} (hv : v ∈ items)
      (h : HoldsNotFinite text v) : HoldsNotFinite text (.array items)

section Literals

variable {escape : Escape} {reason : Reason}

theorem floatLiteral_eq_error {F : Number.Format} {x : Number.Binary F}
    (h : floatLiteral x = .error reason) :
    x.isFinite = false ∧ reason = .notFinite x.plainText := by
  unfold floatLiteral at h
  split_ifs at h with hfinite
  exact ⟨by simpa using hfinite, (Except.error.inj h).symm⟩

theorem literal_eq_error_of_isSimple {v : FieldValue} (hv : v.IsSimple)
    (h : literal escape v = .error reason) :
    ∃ text, reason = .notFinite text ∧ v.HoldsNotFinite text := by
  cases v with
  | float x =>
    obtain ⟨hfinite, rfl⟩ := floatLiteral_eq_error h
    exact ⟨_, rfl, .float hfinite⟩
  | double x =>
    obtain ⟨hfinite, rfl⟩ := floatLiteral_eq_error h
    exact ⟨_, rfl, .double hfinite⟩
  | array => cases hv.1
  | record => cases hv.2
  | _ => cases h

theorem literals_eq_error {items : List FieldValue} (h : literals escape items = .error reason) :
    ∃ v ∈ items, literal escape v = .error reason := by
  induction items with
  | nil => cases h
  | cons v rest ih =>
    simp only [literals, bind_eq_error] at h
    obtain hv | ⟨_, -, hrest | ⟨_, -, h⟩⟩ := h
    · exact ⟨v, by simp, hv⟩
    · obtain ⟨w, hw, hliteral⟩ := ih hrest
      exact ⟨w, by simp [hw], hliteral⟩
    · cases h

theorem isSimple_of_accepts {type : ScalarType} {v : FieldValue} (h : type.accepts v = true) :
    v.IsSimple := by
  cases v with
  | array | record => cases type <;> cases h
  | _ => exact ⟨rfl, rfl⟩

theorem isSimple_of_isNull {v : FieldValue} (h : v.isNull = true) : v.IsSimple := by
  cases v with
  | null => exact ⟨rfl, rfl⟩
  | _ => cases h

theorem isSimple_of_checkScalars {type : ScalarType} {nullable : Bool} {items : List FieldValue}
    (h : FieldShape.checkScalars type nullable items = .ok ()) : ∀ v ∈ items, v.IsSimple := by
  induction items with
  | nil => simp
  | cons v rest ih =>
    unfold FieldShape.checkScalars at h
    rw [List.forall_mem_cons]
    split_ifs at h with hnull _ haccepts
    · exact ⟨isSimple_of_isNull hnull, ih h⟩
    · exact ⟨isSimple_of_accepts haccepts, ih h⟩

theorem literal_eq_error_of_checkValue {shape : FieldShape} {v : FieldValue}
    (hshape : shape.isStructural = false) (hcheck : shape.checkValue v = .ok ())
    (h : literal escape v = .error reason) :
    ∃ text, reason = .notFinite text ∧ v.HoldsNotFinite text := by
  cases hnull : v.isNull with
  | true => exact literal_eq_error_of_isSimple (isSimple_of_isNull hnull) h
  | false =>
    obtain ⟨kind, nullable, nullableItems⟩ := shape
    cases kind with
    | scalar type =>
      have haccepts : type.accepts v = true := by
        simpa [FieldShape.checkValue, hnull] using hcheck
      exact literal_eq_error_of_isSimple (isSimple_of_accepts haccepts) h
    | scalarList type =>
      cases v with
      | array items =>
        obtain ⟨w, hw, hliteral⟩ := literals_eq_error (map_eq_error.1 h)
        obtain ⟨text, rfl, hholds⟩ :=
          literal_eq_error_of_isSimple (isSimple_of_checkScalars hcheck w hw) hliteral
        exact ⟨text, rfl, .item hw hholds⟩
      | _ => simp [FieldShape.checkValue, hnull] at hcheck
    | nested | nestedList => cases hshape

theorem property?_eq_error {name : String} {v : FieldValue} {shape : FieldShape}
    {delimiter : Delimiter} {nulls : NullPolicy} {i : Inconsistency}
    (hshape : shape.isStructural = false)
    (h : property? escape name v shape delimiter nulls = .error i) :
    ∃ reason, literal escape v = .error reason ∧ i = ⟨name, reason⟩ := by
  unfold property? at h
  rw [if_neg (by simp [hshape])] at h
  cases nulls with
  | dropNull | writeNull =>
    dsimp only at h
    split_ifs at h
    obtain ⟨reason, hreason, rfl⟩ := mapError_eq_error.1 h
    exact ⟨reason, map_eq_error.1 hreason, rfl⟩

end Literals

/-! Where inconsistencies arise -/

namespace Record

/-- What is wrong with a value of the record that the shape of its field refuses. -/
def Refused (x : Record) (i : Inconsistency) : Prop :=
  ∃ name schema shape v, (name, schema) ∈ x.schema.fields ∧
    FieldShape.ofSchema schema = .ok shape ∧ x.get? name = some v ∧ shape.check name v = .error i

/-- Where an inconsistency of a record comes from: the classification of its schema or of a related
record's, the check of a value of its own or of a related record, or a float of its own. -/
inductive Inconsistent (record : Record) : Inconsistency → Prop
  | schema {i : Inconsistency} (h : Layout.classify record.schema = .error i) :
      Inconsistent record i
  | relatedSchema {l : String × Record} {i : Inconsistency} (hl : l ∈ record.located)
      (h : Layout.classify l.2.schema = .error i) : Inconsistent record i
  | value {i : Inconsistency} (h : record.Refused i) : Inconsistent record i
  | relatedValue {l : String × Record} {i : Inconsistency} (hl : l ∈ record.located)
      (h : l.2.Refused i) : Inconsistent record ⟨l.1 ++ "." ++ i.field, i.reason⟩
  | float {name text : String} {v : FieldValue} (hv : record.get? name = some v)
      (h : v.HoldsNotFinite text) : Inconsistent record ⟨name, .notFinite text⟩

variable {record x : Record} {i : Inconsistency}

theorem Refused.isDefensive (h : x.Refused i) : i.reason.isDefensive = false := by
  obtain ⟨name, schema, shape, v, -, -, -, hcheck⟩ := h
  obtain ⟨reason, hreason, rfl⟩ := mapError_eq_error.1 hcheck
  exact FieldShape.isDefensive_of_checkValue hreason

theorem Inconsistent.isDefensive (h : record.Inconsistent i) : i.reason.isDefensive = false := by
  cases h with
  | schema h | relatedSchema _ h => exact Layout.isDefensive_of_classify h
  | value h | relatedValue _ h => exact h.isDefensive
  | float => rfl

theorem refused_of_bind (h : x.Covers) {layout : Layout}
    (hlayout : Layout.classify x.schema = .ok layout) (hbind : layout.bind x = .error i) :
    x.Refused i := by
  obtain ⟨shapes, hshapes, rfl⟩ := map_eq_ok.1 hlayout
  obtain ⟨before, ⟨name, shape⟩, after, rfl, -, hdeclines⟩ :=
    ((Layout.checks_bindFields x _).error_iff _).1 hbind
  have hmem : (name, shape) ∈ before ++ (name, shape) :: after := by simp
  obtain ⟨schema, hfield, hshape⟩ := (Layout.mem_classifyFields hshapes).1 hmem
  -- The record has an entry for every field, so the one that stops the binding holds a value.
  obtain ⟨hname : name = i.field, ⟨hnone, -⟩ | ⟨v, hv, hcheck⟩⟩ := hdeclines
  · obtain ⟨v, hv⟩ := exists_get?_of_covers h (List.mem_map_of_mem (f := Prod.fst) hfield)
    rw [hnone] at hv
    cases hv
  · exact ⟨name, schema, shape, v, hfield, hshape, hv,
      mapError_eq_error.2 ⟨i.reason, hcheck, by rw [hname]⟩⟩

end Record

namespace CompilerSettings

variable {s : CompilerSettings} {record : Record} {i : Inconsistency}

theorem validate_ne_inconsistent : s.validate ≠ .error (.inconsistent i) := by
  unfold validate
  grind

theorem identityOf_ne_inconsistent : s.identityOf record ≠ .error (.inconsistent i) := by
  rw [identityOf, Ne, Identity.require_eq_error_iff]
  simp

theorem inconsistent_of_renderProperties {delimiter : Delimiter} {nulls : NullPolicy}
    {bound : List Layout.Bound}
    (hbound : ∀ b ∈ bound, b.shape.isStructural = false ∧ b.Fits record)
    (h : s.renderProperties delimiter nulls bound = .error i) : record.Inconsistent i := by
  induction bound with
  | nil => cases h
  | cons b rest ih =>
    obtain ⟨⟨hshape, hget, hcheck⟩, hrest⟩ := List.forall_mem_cons.1 hbound
    simp only [renderProperties, bind_eq_error] at h
    obtain hproperty | ⟨_, -, hmore | ⟨_, -, h⟩⟩ := h
    · obtain ⟨reason, hliteral, rfl⟩ := property?_eq_error hshape hproperty
      obtain ⟨text, rfl, hholds⟩ := literal_eq_error_of_checkValue hshape hcheck hliteral
      exact .float hget hholds
    · exact ih hrest hmore
    · cases h

theorem inconsistent_of_properties (hcovers : record.Covers) {layout : Layout}
    (hlayout : Layout.classify record.schema = .ok layout) {delimiter : Delimiter}
    {nulls : NullPolicy} {includeKey : Bool}
    (h : s.properties layout record delimiter nulls includeKey = .error (.inconsistent i)) :
    record.Inconsistent i := by
  simp only [properties, bind_eq_error, mapError_eq_error, mapError_eq_ok,
    CompileError.inconsistent.injEq, exists_eq_right] at h
  obtain hbind | ⟨bound, hbound, hrender⟩ := h
  · exact .value (Record.refused_of_bind hcovers hlayout hbind)
  · refine inconsistent_of_renderProperties (fun b hb => ?_) hrender
    obtain ⟨hb, hproperty⟩ := List.mem_filter.1 hb
    simp only [isProperty, Bool.and_eq_true, Bool.not_eq_true'] at hproperty
    exact ⟨hproperty.1.1, Record.bound_fits hbound b hb⟩

theorem inconsistent_of_ofRecord (hwhole : (FieldValue.ofRecord record).Whole) {layout : Layout}
    (hlayout : Layout.classify record.schema = .ok layout)
    (h : Related.ofRecord s layout record = .error (.inconsistent i)) :
    record.Inconsistent i := by
  cases hbind : layout.bind record with
  | error cause =>
    obtain rfl : cause = i := by
      simpa [Related.ofRecord, hbind, bind_eq_error, mapError_eq_error, mapError_eq_ok] using h
    exact .value (Record.refused_of_bind hwhole.of_record.1 hlayout hbind)
  | ok bound =>
    obtain ⟨before, l, after, hsplit, -, hrefuses⟩ :=
      ((Related.checks_ofRecord hlayout hbind).error_iff _).1 h
    have hl : l ∈ record.located := by simp [hsplit]
    cases hrefuses with
    | unclassified h => exact .relatedSchema hl h
    | unfit hlayout hbind =>
      exact .relatedValue hl
        (Record.refused_of_bind (Record.covers_of_located hwhole hl) hlayout hbind)

theorem inconsistent_of_related (hwhole : (FieldValue.ofRecord record).Whole)
    (h : s.related record = .error (.inconsistent i)) : record.Inconsistent i := by
  simp only [related, bind_eq_error, layoutOf, mapError_eq_error, mapError_eq_ok,
    CompileError.inconsistent.injEq, exists_eq_right] at h
  obtain hclassify | ⟨layout, hlayout, hrelated⟩ := h
  · exact .schema hclassify
  · exact inconsistent_of_ofRecord hwhole hlayout hrelated

theorem inconsistent_of_compileCreate (hwhole : (FieldValue.ofRecord record).Whole)
    {relations : List Relation}
    (h : s.compileCreate record relations = .error (.inconsistent i)) : record.Inconsistent i := by
  simp only [compileCreate, bind_eq_error, validate_ne_inconsistent, identityOf_ne_inconsistent,
    layoutOf, mapError_eq_error, mapError_eq_ok, CompileError.inconsistent.injEq, exists_eq_right,
    false_or, reduceCtorEq, and_false, exists_false, or_false, pure, Except.pure] at h
  obtain ⟨_, -, hclassify | ⟨layout, hlayout, _, -, hrelated | ⟨_, -, hproperties⟩⟩⟩ := h
  · exact .schema hclassify
  · exact inconsistent_of_ofRecord hwhole hlayout hrelated
  · exact inconsistent_of_properties hwhole.of_record.1 hlayout hproperties

theorem inconsistent_of_compileUpdate (hcovers : record.Covers) {identity : Identity}
    (hidentity : s.identityOf record = .ok identity)
    (h : s.compileUpdate record identity = .error (.inconsistent i)) : record.Inconsistent i := by
  -- The record's own key has a literal like every key, so only its other properties can fail.
  obtain ⟨-, -, -, hkey⟩ := Identity.require_eq_ok hidentity
  obtain ⟨literal, hliteral⟩ := literal_of_isKey hkey s.escape
  simp only [compileUpdate, bind_eq_error, validate_ne_inconsistent, keyLiteral, hliteral,
    layoutOf, mapError_eq_error, mapError_eq_ok, CompileError.inconsistent.injEq, exists_eq_right,
    false_or, reduceCtorEq, and_false, false_and, exists_false, or_false, pure, Except.pure] at h
  obtain ⟨_, -, hclassify | ⟨layout, hlayout, hproperties⟩⟩ := h
  · exact .schema hclassify
  · exact inconsistent_of_properties hcovers hlayout hproperties

/-- Matching the related records of a made record, creating it and updating it under its own
identity end in an inconsistency only where the classification of a schema, the check of a value
or a float that is not finite says so. No field is missing, no structural field is taken for a
property and no record for a literal. -/
theorem inconsistency_origins (hmade : record.Made)
    (h : s.related record = .error (.inconsistent i) ∨
      (∃ relations, s.compileCreate record relations = .error (.inconsistent i)) ∨
      ∃ identity, s.identityOf record = .ok identity ∧
        s.compileUpdate record identity = .error (.inconsistent i)) :
    record.Inconsistent i ∧ i.reason ≠ .missingField ∧ i.reason ≠ .structuralProperty ∧
      i.reason ≠ .recordLiteral := by
  have hwhole := FieldValue.Made.whole hmade
  have horigin : record.Inconsistent i := by
    obtain hrelated | ⟨relations, hcreate⟩ | ⟨identity, hidentity, hupdate⟩ := h
    · exact inconsistent_of_related hwhole hrelated
    · exact inconsistent_of_compileCreate hwhole hcreate
    · exact inconsistent_of_compileUpdate hwhole.of_record.1 hidentity hupdate
  have hdefensive := horigin.isDefensive
  refine ⟨horigin, ?_, ?_, ?_⟩ <;>
  · intro hreason
    rw [hreason] at hdefensive
    cases hdefensive

end CompilerSettings

namespace Sample

def sensor : Record :=
  ⟨⟨"Sensor", [("type", .string), ("uid", .string), ("samples", .array (.nullable .double))]⟩,
    [("type", .string "Sensor"), ("uid", .string "s1"),
      ("samples", .array [.null, .double (.infinity false)])]⟩

theorem sensor_made : sensor.Made := by
  have hschema : RecordSchema.ofFields sensor.schema.name sensor.schema.fields =
      .ok sensor.schema := rfl
  have hbuild : Record.build sensor.schema sensor.entries = .ok sensor := rfl
  refine .built hschema (fun e he => ?_) hbuild
  simp only [sensor, List.mem_cons, List.not_mem_nil, or_false] at he
  obtain rfl | rfl | rfl := he
  · exact .simple ⟨rfl, rfl⟩
  · exact .simple ⟨rfl, rfl⟩
  · refine .array fun v hv => .simple ?_
    simp only [List.mem_cons, List.not_mem_nil, or_false] at hv
    obtain rfl | rfl := hv <;> exact ⟨rfl, rfl⟩

end Sample

theorem inconsistency_origins_sensor :
    Sample.sensor.Made ∧
    CompilerSettings.default.compileCreate Sample.sensor [] =
      .error (.inconsistent ⟨"samples", .notFinite "inf"⟩) ∧
    Sample.sensor.Inconsistent ⟨"samples", .notFinite "inf"⟩ := by
  have hcreate : CompilerSettings.default.compileCreate Sample.sensor [] =
      .error (.inconsistent ⟨"samples", .notFinite "inf"⟩) := rfl
  exact ⟨Sample.sensor_made, hcreate,
    (CompilerSettings.inconsistency_origins Sample.sensor_made (.inr (.inl ⟨[], hcreate⟩))).1⟩

end RecordGraph
