import RecordGraph.Proofs.MissingReferences
import RecordGraph.Proofs.ValidatedRelations

/-!
Errors that an upsert holds back. A record whose create statement compiles has an update statement
too. Where only the update compiles, what fails is related data: the first related record without
an identity of its own or, if there is none, the first relation to a field that holds no records.
-/

namespace RecordGraph

open Statement Number

/-! Related records with their paths -/

def FieldValue.located (field : String) : FieldValue → List (String × Record)
  | .record schema entries => [(field, ⟨schema, entries⟩)]
  | .array items => items.zipIdx.filterMap fun item =>
      item.1.asRecord?.map fun r => (field ++ "[" ++ natText item.2 ++ "]", r)
  | _ => []

def Record.located (r : Record) : List (String × Record) :=
  r.schema.fields.flatMap fun f => ((r.get? f.1).getD .null).located f.1

namespace Related

theorem locateItems_eq (field : String) (index : Nat) (items : List FieldValue) :
    locateItems field index items = (items.zipIdx index).filterMap fun item =>
      item.1.asRecord?.map fun r => (field ++ "[" ++ natText item.2 ++ "]", r) := by
  induction items generalizing index with
  | nil => rfl
  | cons v rest ih =>
    cases v <;> simp only [locateItems, List.zipIdx_cons, List.filterMap_cons,
      FieldValue.asRecord?, Option.map_some, Option.map_none, ih]

end Related

theorem FieldValue.map_located (v : FieldValue) (field : String) :
    (v.located field).map (·.2) = v.records := by
  cases v with
  | array items =>
    rw [FieldValue.located, ← Related.locateItems_eq, Related.locateItems_records]
    rfl
  | _ => rfl

namespace Layout.Bound

variable {b : Layout.Bound}

theorem locate_eq (hb : b.shape.isStructural = true)
    (hcheck : b.shape.checkValue b.value = .ok ()) :
    Related.locate b = b.value.located b.name := by
  obtain ⟨name, ⟨kind, nullable, nullableItems⟩, value⟩ := b
  cases kind <;> simp only [FieldShape.isStructural, ShapeKind.isStructural, Bool.false_eq_true]
    at hb
  all_goals
    cases value <;> simp_all [FieldShape.checkValue, Related.locate, FieldValue.located,
      FieldValue.isNull, Related.locateItems_eq]

theorem located_eq_nil (hb : b.shape.isStructural = false)
    (hcheck : b.shape.checkValue b.value = .ok ()) : b.value.located b.name = [] := by
  have hrecords := b.value.map_located b.name
  rw [records_eq_nil hb hcheck] at hrecords
  exact List.map_eq_nil_iff.1 hrecords

end Layout.Bound

theorem Related.flatMap_locate {record : Record} {bound : List Layout.Bound}
    (hfits : ∀ b ∈ bound, b.Fits record) :
    (bound.filter (·.shape.isStructural)).flatMap locate =
      bound.flatMap fun b => b.value.located b.name := by
  induction bound with
  | nil => rfl
  | cons b rest ih =>
    obtain ⟨⟨-, hcheck⟩, hrest⟩ := List.forall_mem_cons.1 hfits
    cases hb : b.shape.isStructural with
    | true => simp [hb, ih hrest, b.locate_eq hb hcheck]
    | false => simp [hb, ih hrest, b.located_eq_nil hb hcheck]

theorem Record.located_eq {record : Record} {layout : Layout} {bound : List Layout.Bound}
    (hlayout : Layout.classify record.schema = .ok layout)
    (hbound : layout.bind record = .ok bound) :
    record.located = (bound.filter (·.shape.isStructural)).flatMap Related.locate := by
  have hfits := Record.bound_fits hbound
  calc record.located
      = (record.schema.fields.map (·.1)).flatMap fun name =>
          ((record.get? name).getD .null).located name := by
        rw [located, List.flatMap_map]
    _ = bound.flatMap fun b => b.value.located b.name := by
        rw [← Record.names_bound hlayout hbound, List.flatMap_map]
        refine List.flatMap_congr fun b hb => ?_
        rw [(hfits b hb).1, Option.getD_some]
    _ = (bound.filter (·.shape.isStructural)).flatMap Related.locate :=
        (Related.flatMap_locate hfits).symm

namespace CompilerSettings

variable {s : CompilerSettings}

/-- A related record can be matched: its values fit its schema, and it has an identity. -/
def Addressable (s : CompilerSettings) (x : Record) : Prop :=
  ∃ layout bound i, Layout.classify x.schema = .ok layout ∧ layout.bind x = .ok bound ∧
    Identity.ofRecord? s.labelField s.keyField x = some i

/-- The error of a related record that cannot be matched. -/
inductive Refuses (s : CompilerSettings) (path : String) (x : Record) : CompileError → Prop
  | unclassified {i : Inconsistency} (h : Layout.classify x.schema = .error i) :
      Refuses s path x (.inconsistent i)
  | unfit {layout : Layout} {i : Inconsistency} (hlayout : Layout.classify x.schema = .ok layout)
      (h : layout.bind x = .error i) :
      Refuses s path x (.inconsistent ⟨path ++ "." ++ i.field, i.reason⟩)
  | unlabelled {layout : Layout} {bound : List Layout.Bound}
      (hlayout : Layout.classify x.schema = .ok layout) (hbound : layout.bind x = .ok bound)
      (h : Identity.labelOf? s.labelField x = none) :
      Refuses s path x (.missingIdentity path s.labelField)
  | unkeyed {layout : Layout} {bound : List Layout.Bound} {label : String}
      (hlayout : Layout.classify x.schema = .ok layout) (hbound : layout.bind x = .ok bound)
      (hlabel : Identity.labelOf? s.labelField x = some label)
      (h : Identity.keyOf? s.keyField x = none) :
      Refuses s path x (.missingIdentity path s.keyField)

end CompilerSettings

namespace Layout

theorem checkNested_eq_ok_iff {layout : Layout} {x : Record} {path : String} {u : Unit} :
    layout.checkNested x path = .ok u ↔ ∃ bound, layout.bind x = .ok bound := by
  unfold checkNested
  cases layout.bind x <;> simp

theorem checkNested_eq_error_iff {layout : Layout} {x : Record} {path : String}
    {cause : Inconsistency} :
    layout.checkNested x path = .error cause ↔
      ∃ i, layout.bind x = .error i ∧ cause = ⟨path ++ "." ++ i.field, i.reason⟩ := by
  unfold checkNested
  cases layout.bind x <;> simp [eq_comm]

end Layout

theorem Identity.require_eq_error_iff {labelField keyField path : String} {x : Record}
    {e : CompileError} :
    require labelField keyField x path = .error e ↔
      (labelOf? labelField x = none ∧ e = .missingIdentity path labelField) ∨
      ((labelOf? labelField x).isSome = true ∧ keyOf? keyField x = none ∧
        e = .missingIdentity path keyField) := by
  unfold require ofRecord?
  cases labelOf? labelField x <;> cases keyOf? keyField x <;> simp [eq_comm]

namespace Related

variable {s : CompilerSettings} {path : String} {x : Record}

theorem identify_eq_error_iff {e : CompileError} :
    identify s (path, x) = .error e ↔ s.Refuses path x e := by
  simp only [identify, bind_eq_error, mapError_eq_ok, mapError_eq_error,
    Layout.checkNested_eq_ok_iff, Layout.checkNested_eq_error_iff, Identity.require_eq_error_iff]
  constructor
  · rintro (⟨i, hi, rfl⟩ | ⟨layout, hlayout, ⟨_, ⟨i, hi, rfl⟩, rfl⟩ | ⟨_, ⟨bound, hbound⟩, h⟩⟩)
    · exact .unclassified hi
    · exact .unfit hlayout hi
    · obtain ⟨hlabel, rfl⟩ | ⟨hlabel, hkey, rfl⟩ := h
      · exact .unlabelled hlayout hbound hlabel
      · obtain ⟨label, hlabel⟩ := Option.isSome_iff_exists.1 hlabel
        exact .unkeyed hlayout hbound hlabel hkey
  · rintro (hi | ⟨hlayout, hi⟩ | ⟨hlayout, hbound, hlabel⟩ | ⟨hlayout, hbound, hlabel, hkey⟩)
    · exact .inl ⟨_, hi, rfl⟩
    · exact .inr ⟨_, hlayout, .inl ⟨_, ⟨_, hi, rfl⟩, rfl⟩⟩
    · exact .inr ⟨_, hlayout, .inr ⟨(), ⟨_, hbound⟩, .inl ⟨hlabel, rfl⟩⟩⟩
    · exact .inr ⟨_, hlayout, .inr ⟨(), ⟨_, hbound⟩, .inr ⟨by rw [hlabel]; rfl, hkey, rfl⟩⟩⟩

theorem identify_ok_iff (path : String) :
    (∃ i, identify s (path, x) = .ok i) ↔ s.Addressable x := by
  simp only [identify, bind_eq_ok, mapError_eq_ok, Layout.checkNested_eq_ok_iff]
  constructor
  · rintro ⟨i, layout, hlayout, _, ⟨bound, hbound⟩, h⟩
    exact ⟨layout, bound, i, hlayout, hbound, Identity.ofRecord?_of_require h⟩
  · rintro ⟨layout, bound, i, hlayout, hbound, h⟩
    exact ⟨i, layout, hlayout, (), ⟨bound, hbound⟩, by rw [Identity.require, h]⟩

theorem checks_identify (l : Located) :
    Checks (fun l => s.Addressable l.2) (fun e l => s.Refuses l.1 l.2 e) [l] (identify s l) :=
  .single (identify_ok_iff l.1) fun _ => identify_eq_error_iff

theorem checks_matchRecords (next : Nat) (located : List Located) :
    Checks (fun l => s.Addressable l.2) (fun e l => s.Refuses l.1 l.2 e) located
      (matchRecords s next located) := by
  induction located generalizing next with
  | nil => exact .ok _ _ _
  | cons l rest ih =>
    refine (checks_identify l).bind fun i hi => ?_
    obtain ⟨t, ht⟩ := literal_of_isKey (identify_eq_ok hi).2.2 s.escape
    rw [ht]
    exact (ih (next + 1)).map _

theorem checks_ofBound (next : Nat) (bound : List Layout.Bound) :
    Checks (fun l => s.Addressable l.2) (fun e l => s.Refuses l.1 l.2 e)
      ((bound.filter (·.shape.isStructural)).flatMap locate) (ofBound s next bound) := by
  induction bound generalizing next with
  | nil => exact .ok _ _ _
  | cons b rest ih =>
    unfold ofBound
    cases hb : b.shape.isStructural with
    | true =>
      rw [List.filter_cons_of_pos (by simpa using hb), List.flatMap_cons, if_pos rfl]
      exact (checks_matchRecords next (locate b)).bind fun found _ => (ih _).map _
    | false =>
      rw [List.filter_cons_of_neg (by simp [hb]), if_neg (by simp)]
      exact ih next

theorem checks_ofRecord {record : Record} {layout : Layout} {bound : List Layout.Bound}
    (hlayout : Layout.classify record.schema = .ok layout)
    (hbound : layout.bind record = .ok bound) :
    Checks (fun l => s.Addressable l.2) (fun e l => s.Refuses l.1 l.2 e) record.located
      (ofRecord s layout record) := by
  rw [ofRecord, hbound, Record.located_eq hlayout hbound]
  exact (checks_ofBound 1 bound).map byField

theorem isSome_matchesOf?_iff (related : Related) (field : String) :
    (related.matchesOf? field).isSome = true ↔ field ∈ related.bindings.map (·.1) := by
  simp [matchesOf?]

theorem checks_edgeClauses (related : Related) (node : String) (relations : List Relation) :
    Checks (fun r => r.field ∈ related.bindings.map (·.1))
      (fun e r => r.field ∉ related.bindings.map (·.1) ∧ e = .unknownTarget r.field) relations
      (related.edgeClauses node relations) := by
  induction relations with
  | nil => exact .ok _ _ _
  | cons r rest ih =>
    have hfield := isSome_matchesOf?_iff related r.field
    unfold edgeClauses
    cases hfound : related.matchesOf? r.field with
    | none =>
      have hunknown : r.field ∉ related.bindings.map (·.1) := by simpa [hfound] using hfield
      exact .cons_of_fail hunknown fun e => by simp [hunknown, eq_comm]
    | some found =>
      have hknown : r.field ∈ related.bindings.map (·.1) := by simpa [hfound] using hfield
      exact .cons_of_pass hknown (fun e h => h.1 hknown) (ih.map _)

end Related

namespace CompilerSettings

variable {s : CompilerSettings} {record : Record} {relations : List Relation}
  {identity : Identity}

/-- An error of related data: that of the first related record that cannot be matched or, where all
of them can, that of the first relation to a field that is not structural. -/
inductive Blames (s : CompilerSettings) (record : Record) (relations : List Relation) :
    CompileError → Prop
  | related {e : CompileError}
      (h : First (fun l => s.Addressable l.2) (fun l => s.Refuses l.1 l.2 e) record.located) :
      Blames s record relations e
  | target {layout : Layout} {before after : List Relation} {r : Relation}
      (hlocated : ∀ l ∈ record.located, s.Addressable l.2)
      (hlayout : Layout.classify record.schema = .ok layout)
      (hsplit : relations = before ++ r :: after)
      (hbefore : ∀ q ∈ before, q.field ∈ layout.structuralFields)
      (h : r.field ∉ layout.structuralFields) :
      Blames s record relations (.relation (.unknownTarget r.field))

theorem properties_ok_of_compileUpdate (hidentity : s.identityOf record = .ok identity)
    {update : CompiledStatement} (h : s.compileUpdate record identity = .ok update) :
    s.validate = .ok () ∧ ∃ layout bound texts, Layout.classify record.schema = .ok layout ∧
      layout.bind record = .ok bound ∧
      s.properties layout record .property s.createNulls true = .ok texts := by
  simp only [compileUpdate, bind_eq_ok, layoutOf, mapError_eq_ok, properties] at h
  obtain ⟨_, hvalid, layout, hlayout, _, ⟨bound, hbound, hrendered⟩, -⟩ := h
  have hliterals := renderProperties_ok_iff.1 ⟨_, hrendered⟩
  obtain ⟨-, -, hget, hkey⟩ := Identity.require_eq_ok hidentity
  have hall : ∀ b ∈ bound.filter (s.isProperty true),
      b.shape.isStructural = false ∧ ∃ t, literal s.escape b.value = .ok t := by
    intro b hb
    obtain ⟨hb, hproperty⟩ := List.mem_filter.1 hb
    by_cases hname : b.name = s.keyField
    · have hvalue : b.value = identity.keyValue := by
        have hfits := (Record.bound_fits hbound b hb).1
        rw [hname, hget] at hfits
        exact (Option.some.inj hfits).symm
      refine ⟨?_, hvalue ▸ literal_of_isKey hkey s.escape⟩
      simp only [isProperty, Bool.and_eq_true, Bool.not_eq_true'] at hproperty
      exact hproperty.1.1
    · refine hliterals b (List.mem_filter.2 ⟨hb, ?_⟩)
      simpa [isProperty, hname] using hproperty
  obtain ⟨texts, htexts⟩ := renderProperties_ok_iff.2 hall
  refine ⟨hvalid, layout, bound, texts, hlayout, hbound, ?_⟩
  simp only [properties, bind_eq_ok, mapError_eq_ok]
  exact ⟨bound, hbound, htexts⟩

theorem mem_fields_related {layout : Layout} {related : Related}
    (hlayout : Layout.classify record.schema = .ok layout)
    (h : Related.ofRecord s layout record = .ok related) (field : String) :
    field ∈ related.bindings.map (·.1) ↔ field ∈ layout.structuralFields := by
  have hrelated : s.related record = .ok related :=
    (related_eq_ok_iff hlayout).2 (Related.ofRecord_eq_ok_iff.1 h)
  have hfields := congrArg (List.map Prod.fst) (bindings_related hlayout hrelated)
  rw [List.map_map, List.map_map, Function.comp_def, Function.comp_def, List.map_id'] at hfields
  rw [hfields, List.mem_eraseDups]

theorem compileCreate_eq_error_iff (hidentity : s.identityOf record = .ok identity)
    {update : CompiledStatement} (h : s.compileUpdate record identity = .ok update)
    {e : CompileError} :
    s.compileCreate record relations = .error e ↔ s.Blames record relations e := by
  obtain ⟨hvalid, layout, bound, texts, hlayout, hbound, htexts⟩ :=
    properties_ok_of_compileUpdate hidentity h
  have hlayoutOf : layoutOf record.schema = .ok layout := by
    rw [layoutOf, hlayout]
    rfl
  have hrecord := Related.checks_ofRecord (s := s) hlayout hbound
  have hsteps : s.compileCreate record relations = .error e ↔
      Related.ofRecord s layout record = .error e ∨
      ∃ related, Related.ofRecord s layout record = .ok related ∧
        ∃ cause, related.edgeClauses s.nodeAlias relations = .error cause ∧ .relation cause = e := by
    simp only [compileCreate, bind_eq_error, hvalid, hlayoutOf, hidentity, htexts, reduceCtorEq,
      false_or, Except.ok.injEq, exists_eq_left', mapError_eq_error, pure, Except.pure, and_false,
      exists_false, or_false]
    simp
  rw [hsteps, hrecord.error_iff]
  constructor
  · rintro (hfirst | ⟨related, hrelated, cause, hedges, rfl⟩)
    · exact .related hfirst
    · have hlocated := hrecord.ok_iff.1 ⟨related, hrelated⟩
      simp only [(related.checks_edgeClauses s.nodeAlias relations).error_iff,
        mem_fields_related hlayout hrelated] at hedges
      obtain ⟨before, r, after, hsplit, hbefore, hunknown, rfl⟩ := hedges
      exact .target hlocated hlayout hsplit hbefore hunknown
  · rintro (hfirst | ⟨hlocated, hlayout', hsplit, hbefore, hunknown⟩)
    · exact .inl hfirst
    · obtain rfl := Except.ok.inj (hlayout.symm.trans hlayout')
      obtain ⟨related, hrelated⟩ := hrecord.ok_iff.2 hlocated
      refine .inr ⟨related, hrelated, _, ?_, rfl⟩
      simp only [(related.checks_edgeClauses s.nodeAlias relations).error_iff,
        mem_fields_related hlayout hrelated]
      exact ⟨_, _, _, hsplit, hbefore, hunknown, rfl⟩

end CompilerSettings

theorem PreparedUpsert.create_of_write {τ : Type} [Transaction τ] {p : PreparedUpsert} {tx : τ}
    {e : CompileError} (h : (p.write tx).1 = .error (.compile e)) : p.create = .error e := by
  have hnode : ∀ (tx : τ) c, (p.writeNode tx c).1 ≠ .error (.compile e) := by
    intro tx c
    unfold writeNode
    split <;> simp
  have hsingle : ∀ nodes, singleNode nodes p.identity.keyField p.identity.keyValue ≠
      .error (.compile e) := by
    intro nodes
    unfold singleNode
    split <;> simp
  unfold write at h
  split at h
  · simp at h
  · rename_i nodes tx' _
    split at h
    · rename_i cause hcause
      simp only [Except.error.injEq] at h
      exact absurd (h ▸ hcause) (hsingle nodes)
    · split at h
      · simp at h
      · rename_i cause _ hcause
        simp only [Except.error.injEq] at h
        exact absurd (by rw [hcause, h]) (hnode tx' p.update)
    · split at h
      · rename_i cause hcreate
        simp only [Except.error.injEq, UpsertError.compile.injEq] at h
        rw [hcreate, h]
      · rename_i create _
        split at h
        · simp at h
        · rename_i cause _ hcause
          simp only [Except.error.injEq] at h
          exact absurd (by rw [hcause, h]) (hnode tx' create)

namespace CompilerSettings

variable {s : CompilerSettings} {record : Record} {relations : List Relation}

theorem compile_of_upsert {σ τ : Type} [Engine σ τ] [Transaction τ] {session : σ}
    {e : CompileError} (h : (s.upsert session record relations).1 = .error (.compile e)) :
    s.prepareUpsert record relations = .error e ∨
      ∃ p, s.prepareUpsert record relations = .ok p ∧ p.create = .error e := by
  unfold upsert at h
  cases hprepared : s.prepareUpsert record relations with
  | error cause =>
    simp only [hprepared, Except.error.injEq, UpsertError.compile.injEq] at h
    exact .inl (h ▸ rfl)
  | ok p =>
    simp only [hprepared] at h
    split at h
    · simp at h
    · rename_i tx _
      split at h
      · rename_i cause _ hwrite
        simp only [Except.error.injEq] at h
        have hresult : (p.write tx).1 = .error (.compile e) := by rw [hwrite, h]
        exact .inr ⟨p, rfl, PreparedUpsert.create_of_write hresult⟩
      · split at h <;> simp at h

/-- A create that compiles has an update that does. Where only the update compiles, the error is one
of related data, and so is every error that an upsert holds back, whatever the engine. -/
theorem held_errors (s : CompilerSettings) (record : Record) (relations : List Relation) :
    (∀ c, s.compileCreate record relations = .ok c →
      ∃ identity update, s.identityOf record = .ok identity ∧
        s.compileUpdate record identity = .ok update) ∧
    (∀ identity update, s.identityOf record = .ok identity →
      s.compileUpdate record identity = .ok update →
      ∀ e, s.compileCreate record relations = .error e ↔ s.Blames record relations e) ∧
    ∀ (σ τ : Type) [Engine σ τ] [Transaction τ] (session : σ) (e : CompileError),
      (s.upsert session record relations).1 = .error (.compile e) →
      s.prepareUpsert record relations = .error e ∨
        (∃ p, s.prepareUpsert record relations = .ok p ∧ p.create = .error e) ∧
          s.Blames record relations e := by
  refine ⟨fun c hcreate => ?_, fun identity update hidentity hupdate e =>
    compileCreate_eq_error_iff hidentity hupdate, fun σ τ _ _ session e hupsert => ?_⟩
  · obtain ⟨identity, layout, bound, hcreates⟩ := creates_of_compileCreate hcreate
    obtain ⟨update, hupdate⟩ := hcreates.compileUpdate_ok
    exact ⟨identity, update, hcreates.identified, hupdate⟩
  · refine (compile_of_upsert hupsert).imp_right fun ⟨p, hprepared, hcreate⟩ => ?_
    obtain ⟨hidentity, hupdate, hheld⟩ := prepareUpsert_eq_ok hprepared
    exact ⟨⟨p, hprepared, hcreate⟩,
      (compileCreate_eq_error_iff hidentity hupdate).1 (hheld ▸ hcreate)⟩

end CompilerSettings

namespace Sample

def attendeeSchema : RecordSchema :=
  ⟨"Attendee", [("type", .string), ("uid", .nullable .long)]⟩

def attendee (uid : FieldValue) : FieldValue :=
  .record attendeeSchema [("type", .string "Attendee"), ("uid", uid)]

def reception : Record :=
  ⟨⟨"Reception", [("type", .string), ("uid", .string),
      ("guests", .array (.nullable (.ofRecord attendeeSchema)))]⟩,
    [("type", .string "Reception"), ("uid", .string "p1"),
      ("guests", .array [attendee (.long 1), .null, attendee .null])]⟩

end Sample

theorem held_errors_reception :
    (∃ p, CompilerSettings.default.prepareUpsert Sample.reception [] = .ok p ∧
      p.create = .error (.missingIdentity "guests[2]" "uid")) ∧
    CompilerSettings.default.Blames Sample.reception [] (.missingIdentity "guests[2]" "uid") := by
  obtain ⟨p, hprepared, hcreate⟩ : ∃ p, CompilerSettings.default.prepareUpsert Sample.reception [] =
      .ok p ∧ p.create = .error (.missingIdentity "guests[2]" "uid") := ⟨_, rfl, rfl⟩
  obtain ⟨hidentity, hupdate, hheld⟩ := CompilerSettings.prepareUpsert_eq_ok hprepared
  exact ⟨⟨p, hprepared, hcreate⟩, ((CompilerSettings.default.held_errors Sample.reception []).2.1 _ _
    hidentity hupdate _).1 (hheld ▸ hcreate)⟩

end RecordGraph
