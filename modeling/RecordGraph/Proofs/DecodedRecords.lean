import RecordGraph.Proofs.DecodedValues
import RecordGraph.Proofs.RecordFields

/-!
Decoded records in layouts. What a schema decodes passes the check of the shape that
resolves the schema, so a record read from an object binds to the layout of its schema
as soon as the object has every field that may not be null. Nothing else can fail: a
null that stands in the object where none may is refused when it is decoded.
-/

namespace RecordGraph

open FieldValue

theorem Schema.fits_null_cases {s : Schema} (h : s.Fits .null) :
    s = .null ∨ ∃ members, s = .union members := by
  cases h with
  | null => exact .inl rfl
  | unionNull => exact .inr ⟨_, rfl⟩
  | union => exact .inr ⟨_, rfl⟩

namespace FieldShape

/-- A schema stands for one other schema, which is neither null nor a union, and for null if
it is nullable. -/
structure Strips (s single : Schema) (nullable : Bool) : Prop where
  fits_null_iff : s.Fits .null ↔ nullable = true
  not_fits_null : ¬ single.Fits .null
  fits : ∀ {j}, s.Fits j → j ≠ .null → single.Fits j
  decodes : ∀ {j v}, s.Decodes j v → (nullable = true ∧ v = .null) ∨ single.Decodes j v

theorem strips_of_stripNull {s single : Schema} {nullable : Bool}
    (h : stripNull s = .ok (single, nullable)) : Strips s single nullable := by
  unfold stripNull at h
  split at h
  · rename_i members
    split at h
    · cases h
    · rename_i single' hunion hfilter
      obtain ⟨rfl, rfl⟩ := Prod.mk.inj (Except.ok.inj h)
      have hmem (t : Schema) : t ∈ members ∧ t ≠ .null ↔ t = single' := by
        rw [← List.mem_singleton, ← hfilter, List.mem_filter, Bool.not_eq_true', ne_eq,
          ← Schema.isNull_iff, Bool.not_eq_true]
      have hsingle := (hmem single').2 rfl
      have hnull : ¬ single'.Fits .null := fun hfit => by
        obtain rfl | ⟨inner, rfl⟩ := Schema.fits_null_cases hfit
        · exact hsingle.2 rfl
        · exact hunion _ rfl
      refine ⟨?_, hnull, fun hfit hj => ?_, fun hv => ?_⟩
      · rw [any_isNull_iff]
        constructor
        · intro hfit
          cases hfit with
          | unionNull hmem => exact hmem
          | union ht hne hfit =>
            obtain rfl := (hmem _).1 ⟨ht, hne⟩
            exact absurd hfit hnull
        · exact .unionNull
      · cases hfit with
        | unionNull => exact absurd rfl hj
        | union ht hne hfit =>
          obtain rfl := (hmem _).1 ⟨ht, hne⟩
          exact hfit
      · obtain ⟨-, hnull, rfl⟩ | ⟨-, before, t, after, rfl, -, ⟨hne, -⟩, hv⟩ :=
          Schema.Decodes.union_iff.1 hv
        · exact .inl ⟨(any_isNull_iff members).2 hnull, rfl⟩
        · obtain rfl := (hmem t).1 ⟨by simp, hne⟩
          exact .inr hv
    · cases h
    · cases h
  · cases h
  · rename_i hunion hne
    obtain ⟨rfl, rfl⟩ := Prod.mk.inj (Except.ok.inj h)
    have hnull : ¬ s.Fits .null := fun hfit => by
      obtain rfl | ⟨inner, rfl⟩ := Schema.fits_null_cases hfit
      · exact hne rfl
      · exact hunion _ rfl
    exact ⟨iff_of_false hnull Bool.false_ne_true, hnull, fun hfit _ => hfit, .inr⟩

/-- A shape says what a schema holds: a scalar, a record, or a list of either. -/
inductive Resolves : Schema → FieldShape → Prop
  | scalar {s single : Schema} {type : ScalarType} {nullable : Bool}
      (h : Strips s single nullable) (htype : ScalarType.ofSchema? single = some type) :
      Resolves s ⟨.scalar type, nullable, false⟩
  | nested {s : Schema} {r : RecordSchema} {nullable : Bool}
      (h : Strips s (.ofRecord r) nullable) : Resolves s ⟨.nested r, nullable, false⟩
  | scalarList {s items single : Schema} {type : ScalarType} {nullable nullableItems : Bool}
      (h : Strips s (.array items) nullable) (hitems : Strips items single nullableItems)
      (htype : ScalarType.ofSchema? single = some type) :
      Resolves s ⟨.scalarList type, nullable, nullableItems⟩
  | nestedList {s items : Schema} {r : RecordSchema} {nullable nullableItems : Bool}
      (h : Strips s (.array items) nullable) (hitems : Strips items (.ofRecord r) nullableItems) :
      Resolves s ⟨.nestedList r, nullable, nullableItems⟩

theorem resolves_of_ofSchema {s : Schema} {shape : FieldShape} (h : ofSchema s = .ok shape) :
    Resolves s shape := by
  obtain ⟨⟨single, nullable⟩, hstrip, h⟩ := bind_eq_ok.1 h
  have hstrips := strips_of_stripNull hstrip
  dsimp only at h
  split at h
  · rename_i htype
    obtain rfl := Except.ok.inj h
    exact .scalar hstrips htype
  · obtain rfl := Except.ok.inj h
    exact .nested hstrips
  · obtain ⟨⟨item, nullableItems⟩, hstrip, h⟩ := bind_eq_ok.1 h
    have hitems := strips_of_stripNull hstrip
    dsimp only at h
    split at h
    · rename_i htype
      obtain rfl := Except.ok.inj h
      exact .scalarList hstrips hitems htype
    · obtain rfl := Except.ok.inj h
      exact .nestedList hstrips hitems
    · cases h
  · cases h

variable {s : Schema} {shape : FieldShape}

theorem Resolves.nullable_iff (h : Resolves s shape) : shape.nullable = true ↔ s.Fits .null := by
  cases h with
  | scalar h | nested h | scalarList h | nestedList h => exact h.fits_null_iff.symm

theorem Resolves.nullableItems (h : Resolves s shape) {items : List Json}
    (hfit : s.Fits (.array items)) (hnull : .null ∈ items) : shape.nullableItems = true := by
  cases h with
  | scalar h htype => cases h.fits hfit nofun <;> cases htype
  | @nested r _ h =>
    obtain ⟨name, fields⟩ := r
    cases h.fits hfit nofun
  | scalarList h hitems | nestedList h hitems =>
    cases h.fits hfit nofun with
    | array hfits => exact hitems.fits_null_iff.1 (hfits _ hnull)

theorem record_of_decodes {r : RecordSchema} {j : Json} {v : FieldValue}
    (h : (Schema.ofRecord r).Decodes j v) : ∃ entries, v = .record r entries := by
  obtain ⟨name, fields⟩ := r
  cases h with
  | @record r => exact ⟨_, rfl⟩

theorem items_of_decodes {items : Schema} {j : Json} {v : FieldValue}
    (h : (Schema.array items).Decodes j v) :
    ∃ vs, v = .array vs ∧ ∀ v ∈ vs, ∃ j, items.Decodes j v := by
  cases h with
  | array hlength h =>
    have hall := List.forall₂_iff_zip.2 ⟨hlength.symm, h _⟩
    refine ⟨_, rfl, fun v hv => ?_⟩
    obtain ⟨j, -, hj⟩ := exists_of_mem_of_forall₂ hall hv
    exact ⟨j, hj⟩

theorem accepts_of_decodes {type : ScalarType} {j : Json} {v : FieldValue}
    (htype : ScalarType.ofSchema? s = some type) (h : s.Decodes j v) : type.accepts v = true := by
  cases h <;> cases htype <;> rfl

theorem isQuoted_iff {type : ScalarType} {v : FieldValue} (h : type.accepts v = true) :
    type.isQuoted = true ↔ ∃ t, v = .string t := by
  cases type <;> cases v <;> simp_all [ScalarType.accepts, ScalarType.isQuoted]

theorem isNull_of_accepts {type : ScalarType} {v : FieldValue} (h : type.accepts v = true) :
    v.isNull = false := by
  cases v with
  | null => cases type <;> cases h
  | _ => rfl

theorem checkScalars_of_forall {type : ScalarType} {nullable : Bool} {vs : List FieldValue}
    (h : ∀ v ∈ vs, (nullable = true ∧ v = .null) ∨ type.accepts v = true) :
    checkScalars type nullable vs = .ok () := by
  induction vs with
  | nil => rfl
  | cons v rest ih =>
    obtain ⟨hv, hrest⟩ := List.forall_mem_cons.1 h
    obtain ⟨rfl, rfl⟩ | hv := hv
    · simp [checkScalars, FieldValue.isNull, ih hrest]
    · simp [checkScalars, isNull_of_accepts hv, hv, ih hrest]

theorem checkRecords_of_forall {nullable : Bool} {vs : List FieldValue}
    (h : ∀ v ∈ vs, (nullable = true ∧ v = .null) ∨ ∃ r entries, v = .record r entries) :
    checkRecords nullable vs = .ok () := by
  induction vs with
  | nil => rfl
  | cons v rest ih =>
    obtain ⟨hv, hrest⟩ := List.forall_mem_cons.1 h
    obtain ⟨rfl, rfl⟩ | ⟨_, _, rfl⟩ := hv
    · simp [checkRecords, FieldValue.isNull, ih hrest]
    · simp [checkRecords, ih hrest]

theorem Resolves.checkValue_of_decodes (h : Resolves s shape) {j : Json} {v : FieldValue}
    (hv : s.Decodes j v) : shape.checkValue v = .ok () := by
  cases h with
  | scalar h htype =>
    obtain ⟨rfl, rfl⟩ | hv := h.decodes hv
    · rfl
    · have haccepts := accepts_of_decodes htype hv
      simp [checkValue, isNull_of_accepts haccepts, haccepts]
  | nested h =>
    obtain ⟨rfl, rfl⟩ | hv := h.decodes hv
    · rfl
    · obtain ⟨entries, rfl⟩ := record_of_decodes hv
      rfl
  | scalarList h hitems htype =>
    obtain ⟨rfl, rfl⟩ | hv := h.decodes hv
    · rfl
    · obtain ⟨vs, rfl, hvs⟩ := items_of_decodes hv
      refine checkScalars_of_forall fun v hv => ?_
      obtain ⟨j, hj⟩ := hvs v hv
      exact (hitems.decodes hj).imp_right (accepts_of_decodes htype)
  | nestedList h hitems =>
    obtain ⟨rfl, rfl⟩ | hv := h.decodes hv
    · rfl
    · obtain ⟨vs, rfl, hvs⟩ := items_of_decodes hv
      refine checkRecords_of_forall fun v hv => ?_
      obtain ⟨j, hj⟩ := hvs v hv
      exact (hitems.decodes hj).imp_right fun hv => ⟨_, record_of_decodes hv⟩

end FieldShape

namespace Layout

/-- A field that may not be null is left out of an object. -/
def Omits (members : List (String × Json)) (f : String × FieldShape) : Prop :=
  f.2.nullable = false ∧ f.1 ∉ members.map (·.1)

theorem bindFields_cons {record : Record} {f : String × FieldShape} {v : FieldValue}
    (hv : record.get? f.1 = some v) (rest : List (String × FieldShape)) :
    bindFields record (f :: rest) =
      match f.2.checkValue v with
      | .error reason => .error ⟨f.1, reason⟩
      | .ok () => (bindFields record rest).map (⟨f.1, f.2, v⟩ :: ·) := by
  obtain ⟨name, shape⟩ := f
  simp only [bindFields, hv, FieldShape.check]
  cases shape.checkValue v with
  | error reason => rfl
  | ok => cases bindFields record rest <;> rfl

theorem bindFields_of_checks {record : Record} {fields : List (String × FieldShape)}
    {P : String × FieldShape → Prop}
    (h : ∀ f ∈ fields, ∃ v, record.get? f.1 = some v ∧
      (¬ P f → f.2.checkValue v = .ok ()) ∧ (P f → f.2.checkValue v = .error .nullValue)) :
    ((∃ bound, bindFields record fields = .ok bound) ↔ ∀ f ∈ fields, ¬ P f) ∧
      ∀ e, bindFields record fields = .error e ↔
        ∃ before f after, fields = before ++ f :: after ∧ (∀ g ∈ before, ¬ P g) ∧ P f ∧
          e = ⟨f.1, .nullValue⟩ := by
  induction fields with
  | nil => simp [bindFields]
  | cons f rest ih =>
    obtain ⟨⟨v, hv, hok, hnull⟩, hrest⟩ := List.forall_mem_cons.1 h
    obtain ⟨ihok, iherror⟩ := ih hrest
    have hcons := bindFields_cons hv rest
    by_cases hf : P f
    · rw [hnull hf] at hcons
      rw [hcons]
      refine ⟨by simp [hf], fun e => ⟨?_, ?_⟩⟩
      · rintro ⟨⟩
        exact ⟨[], f, rest, rfl, by simp, hf, rfl⟩
      · rintro ⟨before, g, after, heq, hbefore, hg, rfl⟩
        have heq : [] ++ f :: rest = before ++ g :: after := heq
        obtain rfl := eq_of_first heq (by simp) hf hbefore hg
        rfl
    · rw [hok hf] at hcons
      rw [hcons, List.forall_mem_cons, ← ihok]
      refine ⟨by simp [map_eq_ok, hf], fun e => ?_⟩
      rw [map_eq_error, iherror]
      constructor
      · rintro ⟨before, g, after, rfl, hbefore, hg⟩
        exact ⟨f :: before, g, after, rfl, List.forall_mem_cons.2 ⟨hf, hbefore⟩, hg⟩
      · rintro ⟨_ | ⟨f', before⟩, g, after, heq, hbefore, hg, he⟩
        · obtain rfl := (List.cons.inj heq).1
          exact absurd hg hf
        · obtain ⟨rfl, rfl⟩ := List.cons.inj heq
          exact ⟨before, g, after, rfl, (List.forall_mem_cons.1 hbefore).2, hg, he⟩

end Layout

namespace Record

theorem field_of_ofJson {schema : RecordSchema} (hschema : schema.Distinct)
    {members : List (String × Json)} {r : Record}
    (h : ofJson schema (.object members) = .ok r) {name : String} {s : Schema}
    (hs : schema.field? name = some s) :
    ∃ v, r.get? name = some v ∧ ((Json.object members).field? name = none → v = .null) ∧
      ∀ j, (Json.object members).field? name = some j → s.Decodes j v := by
  obtain ⟨-, hdecodes⟩ := ofJson_eq_ok_iff.1 h
  obtain ⟨record, fields⟩ := schema
  obtain ⟨schema, entries⟩ := r
  generalize hvalue : FieldValue.ofRecord ⟨schema, entries⟩ = value at hdecodes
  cases hdecodes with
  | @record r _ _ names absent repeated present =>
    obtain ⟨rfl, rfl⟩ : schema = r ∧ entries = _ := by simpa [FieldValue.ofRecord] using hvalue
    have hmem : name ∈ entries.map (·.1) := by
      rw [names, List.mem_eraseDups]
      exact RecordSchema.exists_field?_iff.1 ⟨s, hs⟩
    obtain ⟨e, he⟩ := exists_find?_name_iff.2 hmem
    obtain rfl : e.1 = name := by simpa using List.find?_some he
    have hmem := List.mem_of_find?_eq_some he
    exact ⟨e.2, by simp [get?, he], absent e hmem,
      fun j hj => present e hmem (hschema.not_repeats e.1) j s hj hs⟩

theorem member_of_ofJson {schema : RecordSchema} {members : List (String × Json)} {r : Record}
    (h : ofJson schema (.object members) = .ok r) {m : String × Json} (hm : m ∈ members) :
    ∃ s, schema.field? m.1 = some s ∧ s.Fits m.2 :=
  Schema.Fits.record_iff.1 (ofJson_eq_ok_iff.1 h).1 m hm

end Record

theorem RecordSchema.Distinct.field?_of_mem {schema : RecordSchema} (h : schema.Distinct)
    {name : String} {s : Schema} (hs : (name, s) ∈ schema.fields) :
    schema.field? name = some s := by
  obtain ⟨s', hs'⟩ := exists_field?_iff.2 (List.mem_map_of_mem (f := Prod.fst) hs)
  have hmem := mem_fields_of_field? hs'
  rw [hs', Option.some.injEq]
  exact (Prod.mk.inj (List.inj_on_of_nodup_map h hmem hs rfl)).2

theorem Json.field?_eq_none_iff {members : List (String × Json)} {name : String} :
    (Json.object members).field? name = none ↔ name ∉ members.map (·.1) := by
  rw [Json.field?, Option.map_eq_none_iff, find?_name_eq_none_iff, List.map_reverse,
    List.mem_reverse]

namespace Layout

variable {schema : RecordSchema} {layout : Layout}

theorem resolves_of_classify (hschema : schema.Distinct)
    (hlayout : classify schema = .ok layout) {f : String × FieldShape} (hf : f ∈ layout.fields) :
    ∃ s, schema.field? f.1 = some s ∧ f.2.Resolves s := by
  obtain ⟨shapes, hshapes, rfl⟩ := map_eq_ok.1 hlayout
  obtain ⟨s, hs, hshape⟩ := (mem_classifyFields hshapes).1 hf
  exact ⟨s, hschema.field?_of_mem hs, FieldShape.resolves_of_ofSchema hshape⟩

/-- A record read from an object binds exactly when the object has every field that may not be
null, and otherwise fails for a null in the first field that is left out; in the object itself no
null stands where none may. -/
theorem bind_of_ofJson (hschema : schema.Distinct) (hlayout : classify schema = .ok layout)
    {members : List (String × Json)} {r : Record}
    (hread : Record.ofJson schema (.object members) = .ok r) :
    ((∃ bound, layout.bind r = .ok bound) ↔ ∀ f ∈ layout.fields, ¬ Omits members f) ∧
    (∀ e, layout.bind r = .error e ↔
      ∃ before f after, layout.fields = before ++ f :: after ∧
        (∀ g ∈ before, ¬ Omits members g) ∧ Omits members f ∧ e = ⟨f.1, .nullValue⟩) ∧
    ∀ f ∈ layout.fields,
      (∃ s, schema.field? f.1 = some s ∧ (f.2.nullable = true ↔ s.Fits .null)) ∧
      (f.2.nullable = false → (f.1, .null) ∉ members) ∧
      (f.2.nullableItems = false → ∀ items, (f.1, .array items) ∈ members → .null ∉ items) := by
  have hchecks : ∀ f ∈ layout.fields, ∃ v, r.get? f.1 = some v ∧
      (¬ Omits members f → f.2.checkValue v = .ok ()) ∧
      (Omits members f → f.2.checkValue v = .error .nullValue) := by
    intro f hf
    obtain ⟨s, hs, hresolves⟩ := resolves_of_classify hschema hlayout hf
    obtain ⟨v, hv, habsent, hpresent⟩ := Record.field_of_ofJson hschema hread hs
    refine ⟨v, hv, fun homits => ?_, fun ⟨hnull, hkey⟩ => ?_⟩
    · cases hj : (Json.object members).field? f.1 with
      | some j => exact hresolves.checkValue_of_decodes (hpresent j hj)
      | none =>
        have hnullable : f.2.nullable = true := by
          by_contra hnull
          exact homits ⟨by simpa using hnull, Json.field?_eq_none_iff.1 hj⟩
        rw [habsent hj]
        simp [FieldShape.checkValue, FieldValue.isNull, hnullable]
    · rw [habsent (Json.field?_eq_none_iff.2 hkey)]
      simp [FieldShape.checkValue, FieldValue.isNull, hnull]
  obtain ⟨hok, herror⟩ := bindFields_of_checks hchecks
  refine ⟨hok, herror, fun f hf => ?_⟩
  obtain ⟨s, hs, hresolves⟩ := resolves_of_classify hschema hlayout hf
  have hmember {j : Json} (hj : (f.1, j) ∈ members) : s.Fits j := by
    obtain ⟨s', hs', hfit⟩ := Record.member_of_ofJson hread hj
    obtain rfl := Option.some.inj (hs.symm.trans hs')
    exact hfit
  refine ⟨⟨s, hs, hresolves.nullable_iff⟩, fun hnull hmem => ?_, fun hnull items hmem hin => ?_⟩
  · simp [hresolves.nullable_iff.2 (hmember hmem)] at hnull
  · simp [hresolves.nullableItems (hmember hmem) hin] at hnull

end Layout

namespace Sample

def visitorSchema : RecordSchema :=
  ⟨"Guest", [("name", .string), ("age", .union [.int, .null]),
    ("scores", .array (.nullable .double)), ("home", .record "Place" [("street", .string)]),
    ("mail", .string)]⟩

def visitorLayout : Layout :=
  ⟨[("name", ⟨.scalar .string, false, false⟩), ("age", ⟨.scalar .int, true, false⟩),
    ("scores", ⟨.scalarList .double, false, true⟩),
    ("home", ⟨.nested ⟨"Place", [("street", .string)]⟩, false, false⟩),
    ("mail", ⟨.scalar .string, false, false⟩)]⟩

def visitorMembers : List (String × Json) :=
  [("home", .object []), ("scores", .array [.null]), ("name", .string "Ada")]

def visitor : Record :=
  ⟨visitorSchema, [("name", .string "Ada"), ("age", .null), ("scores", .array [.null]),
    ("home", .record ⟨"Place", [("street", .string)]⟩ [("street", .null)]), ("mail", .null)]⟩

end Sample

theorem bind_of_ofJson_visitor : Sample.visitorSchema.Distinct ∧
    Layout.classify Sample.visitorSchema = .ok Sample.visitorLayout ∧
    Record.ofJson Sample.visitorSchema (.object Sample.visitorMembers) = .ok Sample.visitor ∧
    Sample.visitorLayout.bind Sample.visitor = .error ⟨"mail", .nullValue⟩ := by
  have hschema : Sample.visitorSchema.Distinct := by
    simp [RecordSchema.Distinct, Sample.visitorSchema]
  have hlayout : Layout.classify Sample.visitorSchema = .ok Sample.visitorLayout := rfl
  have hread : Record.ofJson Sample.visitorSchema (.object Sample.visitorMembers) =
      .ok Sample.visitor := rfl
  refine ⟨hschema, hlayout, hread, ?_⟩
  refine ((Layout.bind_of_ofJson hschema hlayout hread).2.1 _).2
    ⟨Sample.visitorLayout.fields.take 4, _, [], rfl, ?_, ⟨rfl, by decide⟩, rfl⟩
  simp [Sample.visitorLayout, Layout.Omits, Sample.visitorMembers]

end RecordGraph
