import RecordGraph.Proofs.DecodedValues
import RecordGraph.Proofs.RecordFields

/-!
JSON forms of schemas. A simple schema is its name, a union the array of its members, and arrays
and records are objects. Any form may be wrapped in an object as its type, and objects may hold
other names besides. Reading accepts exactly the forms of schemas in which no record repeats a
field name, and reads each of them as its schema.
-/

namespace RecordGraph.Schema

/-- No record in a schema, at any depth, has two fields of one name. -/
inductive DistinctFields : Schema → Prop
  | simple {s : Schema} (h : s.isSimple = true) : DistinctFields s
  | array {items : Schema} (h : DistinctFields items) : DistinctFields (.array items)
  | record {name : String} {fields : List (String × Schema)}
      (distinct : (fields.map (·.1)).Nodup) (h : ∀ f ∈ fields, DistinctFields f.2) :
      DistinctFields (.record name fields)
  | union {members : List Schema} (h : ∀ s ∈ members, DistinctFields s) :
      DistinctFields (.union members)

def nameOf? (node : Json) : Option String :=
  (node.field? "name").bind Json.asString?

/-- A JSON value writes a schema. Of an object only the names that its type calls for count. -/
inductive Form : Schema → Json → Prop
  | simple {s : Schema} (h : s.isSimple = true) : Form s (.string s.typeName)
  | union {members : List Schema} {nodes : List Json} (length : members.length = nodes.length)
      (h : ∀ p ∈ members.zip nodes, Form p.1 p.2) : Form (.union members) (.array nodes)
  | array {items : Schema} {entries : List (String × Json)} {node : Json}
      (type : (Json.object entries).field? "type" = some (.string "array"))
      (listed : (Json.object entries).field? "items" = some node) (h : Form items node) :
      Form (.array items) (.object entries)
  | record {name : String} {fields : List (String × Schema)} {entries : List (String × Json)}
      {nodes types : List Json}
      (type : (Json.object entries).field? "type" = some (.string "record"))
      (named : nameOf? (.object entries) = some name)
      (listed : (Json.object entries).field? "fields" = some (.array nodes))
      (names : nodes.map nameOf? = fields.map fun f => some f.1)
      (typed : nodes.map (Json.field? "type") = types.map some)
      (h : ∀ p ∈ fields.zip types, Form p.1.2 p.2) : Form (.record name fields) (.object entries)
  | wrapped {s : Schema} {entries : List (String × Json)} {inner : Json}
      (type : (Json.object entries).field? "type" = some inner) (h : Form s inner) :
      Form s (.object entries)

/-- A JSON value holds a record with two fields of one name, at any depth where schemas stand. -/
inductive RepeatsField : Json → Prop
  | here {entries : List (String × Json)} {nodes : List Json}
      (type : (Json.object entries).field? "type" = some (.string "record"))
      (listed : (Json.object entries).field? "fields" = some (.array nodes))
      (repeated : ¬ (nodes.filterMap nameOf?).Nodup) : RepeatsField (.object entries)
  | field {entries : List (String × Json)} {nodes : List Json} {node inner : Json}
      (type : (Json.object entries).field? "type" = some (.string "record"))
      (listed : (Json.object entries).field? "fields" = some (.array nodes)) (hnode : node ∈ nodes)
      (typed : node.field? "type" = some inner) (h : RepeatsField inner) :
      RepeatsField (.object entries)
  | items {entries : List (String × Json)} {node : Json}
      (type : (Json.object entries).field? "type" = some (.string "array"))
      (listed : (Json.object entries).field? "items" = some node) (h : RepeatsField node) :
      RepeatsField (.object entries)
  | member {nodes : List Json} {node : Json} (hnode : node ∈ nodes) (h : RepeatsField node) :
      RepeatsField (.array nodes)
  | wrapped {entries : List (String × Json)} {inner : Json}
      (type : (Json.object entries).field? "type" = some inner) (h : RepeatsField inner) :
      RepeatsField (.object entries)

theorem forall₂_types {R : String × Schema → Json → Prop} {fields : List (String × Schema)}
    {nodes types : List Json} (names : nodes.map nameOf? = fields.map fun f => some f.1)
    (typed : nodes.map (Json.field? "type") = types.map some)
    (h : ∀ p ∈ fields.zip types, R p.1 p.2) : List.Forall₂ R fields types := by
  have hnames := congrArg List.length names
  have htypes := congrArg List.length typed
  simp only [List.length_map] at hnames htypes
  exact List.forall₂_iff_zip.2 ⟨hnames.symm.trans htypes, h _⟩

/-! Distinct names -/

theorem distinctFields_array_iff {items : Schema} :
    (array items).DistinctFields ↔ items.DistinctFields := by
  constructor
  · rintro (h | h)
    · cases h
    · exact h
  · exact .array

theorem distinctFields_union_iff {members : List Schema} :
    (union members).DistinctFields ↔ ∀ s ∈ members, s.DistinctFields := by
  constructor
  · rintro (h | _ | _ | h)
    · cases h
    · exact h
  · exact .union

theorem distinctFields_record_iff {name : String} {fields : List (String × Schema)} :
    (record name fields).DistinctFields ↔
      (∀ f ∈ fields, f.2.DistinctFields) ∧ (fields.map (·.1)).Nodup := by
  constructor
  · rintro (h | _ | ⟨distinct, h⟩)
    · cases h
    · exact ⟨h, distinct⟩
  · exact fun ⟨h, distinct⟩ => .record distinct h

/-! Forms are read as their schemas -/

/-- A reading gives `x` if names are distinct as told, and otherwise refuses a repeated field. -/
structure ReadsIf {α : Type} (distinct : Prop) (x : α) (result : Except SchemaError α) : Prop where
  ok : distinct → result = .ok x
  refused : ¬ distinct → ∃ record field, result = .error (.duplicateField record field)

namespace ReadsIf

variable {α β : Type} {p q : Prop} {x : α} {y : β} {result : Except SchemaError α}

theorem of_iff (h : ReadsIf p x result) (hiff : p ↔ q) : ReadsIf q x result :=
  ⟨fun hq => h.ok (hiff.2 hq), fun hq => h.refused (mt hiff.1 hq)⟩

theorem bind {f : α → Except SchemaError β} (h : ReadsIf p x result) (hf : ReadsIf q y (f x)) :
    ReadsIf (p ∧ q) y (result >>= f) := by
  constructor
  · rintro ⟨hp, hq⟩
    exact bind_eq_ok.2 ⟨x, h.ok hp, hf.ok hq⟩
  · intro hpq
    by_cases hp : p
    · obtain ⟨record, field, herror⟩ := hf.refused fun hq => hpq ⟨hp, hq⟩
      exact ⟨record, field, bind_eq_error.2 (.inr ⟨x, h.ok hp, herror⟩)⟩
    · obtain ⟨record, field, herror⟩ := h.refused hp
      exact ⟨record, field, bind_eq_error.2 (.inl herror)⟩

theorem map (h : ReadsIf p x result) (f : α → β) : ReadsIf p (f x) (result.map f) := by
  constructor
  · exact fun hp => map_eq_ok.2 ⟨x, h.ok hp, rfl⟩
  · intro hp
    obtain ⟨record, field, herror⟩ := h.refused hp
    exact ⟨record, field, map_eq_error.2 herror⟩

end ReadsIf

theorem readsIf_ofFields (name : String) (fields : List (String × Schema)) :
    ReadsIf (fields.map (·.1)).Nodup ⟨name, fields⟩ (RecordSchema.ofFields name fields) := by
  constructor
  · exact fun h => RecordSchema.ofFields_eq_ok_iff.2 ⟨rfl, h⟩
  · intro h
    cases hfields : RecordSchema.ofFields name fields with
    | ok r =>
      obtain ⟨rfl, hdistinct⟩ := RecordSchema.ofFields_eq_ok_iff.1 hfields
      exact absurd hdistinct h
    | error e =>
      unfold RecordSchema.ofFields at hfields
      split at hfields
      · obtain rfl := Except.error.inj hfields
        exact ⟨_, _, rfl⟩
      · cases hfields

theorem readsIf_members {members : List Schema} {nodes : List Json}
    (h : List.Forall₂ (fun s j => ReadsIf s.DistinctFields s (ofJson j)) members nodes) :
    ReadsIf (∀ s ∈ members, s.DistinctFields) members (ofMembers nodes) := by
  induction h with
  | nil =>
    rw [ofMembers]
    exact ⟨fun _ => rfl, fun h => absurd (by simp) h⟩
  | @cons s j members nodes hs _ ih =>
    rw [ofMembers]
    exact (hs.bind (ih.map (s :: ·))).of_iff List.forall_mem_cons.symm

theorem readsIf_fields (record : String) {fields : List (String × Schema)} {nodes types : List Json}
    (names : nodes.map nameOf? = fields.map fun f => some f.1)
    (typed : nodes.map (Json.field? "type") = types.map some)
    (h : List.Forall₂ (fun f j => ReadsIf f.2.DistinctFields f.2 (ofJson j)) fields types) :
    ReadsIf (∀ f ∈ fields, f.2.DistinctFields) fields (ofFields record nodes) := by
  induction h generalizing nodes with
  | nil =>
    obtain rfl := List.map_eq_nil_iff.1 names
    rw [ofFields]
    exact ⟨fun _ => rfl, fun h => absurd (by simp) h⟩
  | @cons f j fields types hf _ ih =>
    obtain ⟨node, rest, rfl, hname, hnames⟩ := List.map_eq_cons_iff.1 names
    obtain ⟨htype, htypes⟩ := List.cons.inj typed
    have hfield : ofFields record (node :: rest) = ofJson j >>= fun s =>
        (ofFields record rest).map ((f.1, s) :: ·) := by
      rw [nameOf?] at hname
      rw [ofFields, hname]
      simp only
      split
      · rename_i hnone
        rw [htype] at hnone
        cases hnone
      · rename_i inner hinner
        obtain rfl := Option.some.inj (htype.symm.trans hinner)
        rfl
    rw [hfield]
    exact (hf.bind ((ih hnames htypes).map (f :: ·))).of_iff (by rw [List.forall_mem_cons])

theorem ofTypeName_typeName {s : Schema} (h : s.isSimple = true) :
    ofTypeName s.typeName = .ok s := by
  cases s with
  | array | record | union => cases h
  | _ => rfl

theorem ofTypeName_eq_ok {name : String} {s : Schema} (h : ofTypeName name = .ok s) :
    s.isSimple = true ∧ s.typeName = name := by
  unfold ofTypeName at h
  split at h
  all_goals first
    | cases h
      exact ⟨rfl, rfl⟩
    | cases h

theorem not_form_of_typeName {s : Schema} {name : String} (h : s.Form (.string name)) :
    s.isSimple = true ∧ s.typeName = name := by
  cases h with
  | simple hs => exact ⟨hs, rfl⟩

theorem Form.ne_word {s : Schema} {j : Json} (h : s.Form j) :
    j ≠ .string "record" ∧ j ≠ .string "array" := by
  constructor
  all_goals
    rintro rfl
    obtain ⟨hs, hname⟩ := not_form_of_typeName h
    cases s with
    | array | record | union => cases hs
    | _ => exact absurd hname (by decide)

/-! What reading makes of an object -/

section Object

variable {entries : List (String × Json)} {name : String} {nodes : List Json} {node inner : Json}

theorem ofJson_record (type : (Json.object entries).field? "type" = some (.string "record"))
    (named : nameOf? (.object entries) = some name)
    (listed : (Json.object entries).field? "fields" = some (.array nodes)) :
    ofJson (.object entries) =
      ofFields name nodes >>= fun fields => (RecordSchema.ofFields name fields).map ofRecord := by
  rw [ofJson]
  split
  · simp_all
  · rw [nameOf?] at named
    rw [named]
    simp only
    split
    · simp_all
      rfl
    · simp_all
  · simp_all
  · simp_all

theorem ofJson_array (type : (Json.object entries).field? "type" = some (.string "array"))
    (listed : (Json.object entries).field? "items" = some node) :
    ofJson (.object entries) = (ofJson node).map array := by
  rw [ofJson]
  split
  · simp_all
  · simp_all
  · split
    · simp_all
    · simp_all
  · simp_all

theorem ofJson_wrapped (type : (Json.object entries).field? "type" = some inner)
    (hrecord : inner ≠ .string "record") (harray : inner ≠ .string "array") :
    ofJson (.object entries) = ofJson inner := by
  rw [ofJson]
  split
  · simp_all
  · simp_all
  · simp_all
  · simp_all

end Object

/-- The step from parts to a whole: each form is read as its schema, or refused for a repeated
field name and nothing else. -/
theorem readsIf_of_form {s : Schema} {j : Json} (h : s.Form j) :
    ReadsIf s.DistinctFields s (ofJson j) := by
  induction h with
  | @simple s hs =>
    rw [ofJson]
    exact ⟨fun _ => ofTypeName_typeName hs, fun hne => absurd (.simple hs) hne⟩
  | union length _ ih =>
    rw [ofJson]
    have hmembers := readsIf_members (List.forall₂_iff_zip.2 ⟨length, ih _⟩)
    exact (hmembers.map _).of_iff distinctFields_union_iff.symm
  | array type listed _ ih =>
    rw [ofJson_array type listed]
    exact (ih.map _).of_iff distinctFields_array_iff.symm
  | @record name fields entries nodes types type named listed names typed _ ih =>
    rw [ofJson_record type named listed]
    have hfields := readsIf_fields name names typed (forall₂_types names typed ih)
    exact (hfields.bind ((readsIf_ofFields name fields).map ofRecord)).of_iff
      distinctFields_record_iff.symm
  | wrapped type h ih =>
    rwa [ofJson_wrapped type h.ne_word.1 h.ne_word.2]

/-! Whatever is read is a form -/

theorem ofMembers_eq_ok {nodes : List Json} {members : List Schema}
    (h : ofMembers nodes = .ok members) :
    List.Forall₂ (fun s j => ofJson j = .ok s) members nodes := by
  induction nodes generalizing members with
  | nil =>
    rw [ofMembers] at h
    cases h
    exact .nil
  | cons node rest ih =>
    simp only [ofMembers, bind_eq_ok, pure_eq_ok] at h
    obtain ⟨s, hs, more, hmore, rfl⟩ := h
    exact .cons hs (ih hmore)

theorem ofFields_eq_ok {record : String} {nodes : List Json} {fields : List (String × Schema)}
    (h : ofFields record nodes = .ok fields) :
    ∃ types, nodes.map nameOf? = fields.map (fun f => some f.1) ∧
      nodes.map (Json.field? "type") = types.map some ∧
      List.Forall₂ (fun f j => ofJson j = .ok f.2) fields types := by
  induction nodes generalizing fields with
  | nil =>
    rw [ofFields] at h
    cases h
    exact ⟨[], rfl, rfl, .nil⟩
  | cons node rest ih =>
    rw [ofFields] at h
    split at h
    · cases h
    · rename_i name hname
      split at h
      · cases h
      · rename_i inner hinner
        simp only [bind_eq_ok, pure_eq_ok] at h
        obtain ⟨s, hs, more, hmore, rfl⟩ := h
        obtain ⟨types, hnames, htypes, hread⟩ := ih hmore
        refine ⟨inner :: types, ?_, ?_, .cons hs hread⟩
        · rw [List.map_cons, List.map_cons, hnames, nameOf?, hname]
        · rw [List.map_cons, List.map_cons, htypes, hinner]

theorem sizeOf_of_mem_types {nodes types : List Json} {j : Json}
    (typed : nodes.map (Json.field? "type") = types.map some) (hj : j ∈ types) :
    sizeOf j < sizeOf nodes := by
  have hmem : some j ∈ nodes.map (Json.field? "type") := typed ▸ List.mem_map_of_mem hj
  obtain ⟨node, hnode, htype⟩ := List.mem_map.1 hmem
  exact Nat.lt_trans (sizeOf_of_field? htype) (List.sizeOf_lt_of_mem hnode)

theorem ofJson_object_eq_ok {entries : List (String × Json)} {s : Schema}
    (h : ofJson (.object entries) = .ok s) :
    (∃ name nodes fields, (Json.object entries).field? "type" = some (.string "record") ∧
      nameOf? (.object entries) = some name ∧
      (Json.object entries).field? "fields" = some (.array nodes) ∧
      ofFields name nodes = .ok fields ∧ (fields.map (·.1)).Nodup ∧ s = .record name fields) ∨
    (∃ node items, (Json.object entries).field? "type" = some (.string "array") ∧
      (Json.object entries).field? "items" = some node ∧ ofJson node = .ok items ∧
      s = .array items) ∨
    ∃ inner, (Json.object entries).field? "type" = some inner ∧ ofJson inner = .ok s := by
  rw [ofJson] at h
  split at h
  · cases h
  · rename_i type
    split at h
    · cases h
    · rename_i name named
      split at h
      · rename_i nodes listed
        obtain ⟨fields, hfields, hrecord⟩ := bind_eq_ok.1 h
        obtain ⟨r, hr, rfl⟩ := map_eq_ok.1 hrecord
        obtain ⟨rfl, hdistinct⟩ := RecordSchema.ofFields_eq_ok_iff.1 hr
        exact .inl ⟨name, nodes, fields, type, named, listed, hfields, hdistinct, rfl⟩
      · cases h
  · rename_i type
    split at h
    · cases h
    · rename_i node listed
      obtain ⟨items, hitems, rfl⟩ := map_eq_ok.1 h
      exact .inr (.inl ⟨node, items, type, listed, hitems, rfl⟩)
  · rename_i inner _ _ type
    exact .inr (.inr ⟨inner, type, h⟩)

theorem forms_of_reads {α : Type} {part : α → Schema} {xs : List α} {nodes : List Json}
    (hread : List.Forall₂ (fun x j => ofJson j = .ok (part x)) xs nodes)
    (ih : ∀ j ∈ nodes, ∀ s, ofJson j = .ok s → s.DistinctFields ∧ s.Form j) :
    (∀ x ∈ xs, (part x).DistinctFields) ∧ ∀ p ∈ xs.zip nodes, (part p.1).Form p.2 := by
  constructor
  · intro x hx
    obtain ⟨j, hj, hs⟩ := exists_of_mem_of_forall₂ hread.flip hx
    exact (ih j hj _ hs).1
  · intro p hp
    have hs : ofJson p.2 = .ok (part p.1) := (List.forall₂_iff_zip.1 hread).2 hp
    exact (ih p.2 (List.of_mem_zip hp).2 _ hs).2

theorem distinct_form_of_ofJson {j : Json} {s : Schema} (h : ofJson j = .ok s) :
    s.DistinctFields ∧ s.Form j := by
  match j with
  | .string name =>
    rw [ofJson] at h
    obtain ⟨hs, rfl⟩ := ofTypeName_eq_ok h
    exact ⟨.simple hs, .simple hs⟩
  | .array nodes =>
    rw [ofJson] at h
    obtain ⟨members, hmembers, rfl⟩ := map_eq_ok.1 h
    have hread := ofMembers_eq_ok hmembers
    have hparts : ∀ j ∈ nodes, ∀ s, ofJson j = .ok s → s.DistinctFields ∧ s.Form j :=
      fun j hj s hs =>
        have hlt := List.sizeOf_lt_of_mem hj
        distinct_form_of_ofJson hs
    obtain ⟨hdistinct, hforms⟩ := forms_of_reads hread hparts
    exact ⟨.union hdistinct, .union hread.length_eq hforms⟩
  | .object entries =>
    obtain ⟨name, nodes, fields, type, named, listed, hfields, hnames, rfl⟩ |
      ⟨node, items, type, listed, hitems, rfl⟩ | ⟨inner, type, hinner⟩ := ofJson_object_eq_ok h
    · obtain ⟨types, names, typed, hread⟩ := ofFields_eq_ok hfields
      have hparts : ∀ j ∈ types, ∀ s, ofJson j = .ok s → s.DistinctFields ∧ s.Form j :=
        fun j hj s hs =>
          have hlt := sizeOf_of_mem_types typed hj
          distinct_form_of_ofJson hs
      obtain ⟨hdistinct, hforms⟩ := forms_of_reads hread hparts
      exact ⟨.record hnames hdistinct, .record type named listed names typed hforms⟩
    · obtain ⟨hdistinct, hform⟩ := distinct_form_of_ofJson hitems
      exact ⟨.array hdistinct, .array type listed hform⟩
    · obtain ⟨hdistinct, hform⟩ := distinct_form_of_ofJson hinner
      exact ⟨hdistinct, .wrapped type hform⟩
  | .null | .bool _ | .number _ =>
    rw [ofJson] at h
    · cases h
    all_goals simp
termination_by sizeOf j
decreasing_by
  · simp only [Json.array.sizeOf_spec]
    omega
  · have hlisted := sizeOf_of_field? listed
    simp only [Json.array.sizeOf_spec] at hlisted
    omega
  · exact sizeOf_of_field? listed
  · exact sizeOf_of_field? type

/-! Repeated field names -/

section Object

variable {entries : List (String × Json)} {s : Schema}

theorem Form.of_record (h : s.Form (.object entries))
    (type : (Json.object entries).field? "type" = some (.string "record")) :
    ∃ name fields nodes types, s = .record name fields ∧
      (Json.object entries).field? "fields" = some (.array nodes) ∧
      nodes.map nameOf? = fields.map (fun f => some f.1) ∧
      nodes.map (Json.field? "type") = types.map some ∧
      List.Forall₂ (fun f j => f.2.Form j) fields types := by
  cases h with
  | array type' => simp [type] at type'
  | record _ _ listed names typed h =>
    exact ⟨_, _, _, _, rfl, listed, names, typed, forall₂_types names typed h⟩
  | wrapped type' h =>
    obtain rfl := Option.some.inj (type.symm.trans type')
    exact absurd rfl h.ne_word.1

theorem Form.of_array (h : s.Form (.object entries))
    (type : (Json.object entries).field? "type" = some (.string "array")) :
    ∃ items node, s = .array items ∧ (Json.object entries).field? "items" = some node ∧
      items.Form node := by
  cases h with
  | array _ listed h => exact ⟨_, _, rfl, listed, h⟩
  | record type' => simp [type] at type'
  | wrapped type' h =>
    obtain rfl := Option.some.inj (type.symm.trans type')
    exact absurd rfl h.ne_word.2

end Object

theorem RepeatsField.ne_string {j : Json} (h : RepeatsField j) (name : String) :
    j ≠ .string name := by
  cases h <;> simp

theorem not_distinct_of_repeats {j : Json} (h : RepeatsField j) {s : Schema} (hform : s.Form j) :
    ¬ s.DistinctFields := by
  intro hdistinct
  induction h generalizing s with
  | here type listed repeated =>
    obtain ⟨name, fields, nodes, types, rfl, listed', names, -, -⟩ := hform.of_record type
    obtain rfl := Json.array.inj (Option.some.inj (listed'.symm.trans listed))
    apply repeated
    have hnames : List.filterMap nameOf? nodes = fields.map (·.1) :=
      calc List.filterMap nameOf? nodes
          = (List.map nameOf? nodes).filterMap id := by rw [List.filterMap_map, Function.id_comp]
        _ = fields.map (·.1) := by
          rw [names, List.filterMap_map, ← List.filterMap_eq_map]
          rfl
    rw [hnames]
    exact (distinctFields_record_iff.1 hdistinct).2
  | @field _ _ node inner type listed hnode typed _ ih =>
    obtain ⟨name, fields, nodes, types, rfl, listed', -, typed', hforms⟩ := hform.of_record type
    obtain rfl := Json.array.inj (Option.some.inj (listed'.symm.trans listed))
    have hinner : some inner ∈ types.map some :=
      typed' ▸ typed ▸ List.mem_map_of_mem (f := Json.field? "type") hnode
    obtain ⟨f, hf, hform⟩ := exists_of_mem_of_forall₂ hforms (by simpa using hinner)
    exact ih hform ((distinctFields_record_iff.1 hdistinct).1 f hf)
  | items type listed _ ih =>
    obtain ⟨items, node, rfl, listed', hitems⟩ := hform.of_array type
    obtain rfl := Option.some.inj (listed.symm.trans listed')
    exact ih hitems (distinctFields_array_iff.1 hdistinct)
  | member hnode _ ih =>
    cases hform with
    | union length h =>
      obtain ⟨s, hs, hform⟩ := exists_of_mem_of_forall₂ (List.forall₂_iff_zip.2 ⟨length, h _⟩) hnode
      exact ih hform (distinctFields_union_iff.1 hdistinct s hs)
  | wrapped type h ih =>
    cases hform with
    | array type' => exact absurd (Option.some.inj (type.symm.trans type')) (h.ne_string _)
    | record type' => exact absurd (Option.some.inj (type.symm.trans type')) (h.ne_string _)
    | wrapped type' hinner =>
      obtain rfl := Option.some.inj (type.symm.trans type')
      exact ih hinner hdistinct

/-! The form that schemas are written in -/

theorem membersJson_eq (members : List Schema) : membersJson members = members.map toJson := by
  induction members with
  | nil => rfl
  | cons s rest ih => rw [membersJson, ih, List.map_cons]

theorem fieldsJson_eq (fields : List (String × Schema)) :
    fieldsJson fields = fields.map fun f =>
      .object [("name", .string f.1), ("type", toJson f.2)] := by
  induction fields with
  | nil => rfl
  | cons f rest ih => rw [fieldsJson, ih, List.map_cons]

theorem form_toJson (s : Schema) : s.Form s.toJson := by
  induction s using nested_induction with
  | simple s hs =>
    have hname : s.toJson = .string s.typeName := by
      cases s with
      | array | record | union => cases hs
      | _ => rfl
    rw [hname]
    exact .simple hs
  | array items ih =>
    rw [toJson]
    exact .array rfl rfl ih
  | record name fields ih =>
    rw [toJson, fieldsJson_eq]
    have hforms : List.Forall₂ (fun f j => f.2.Form j) fields (fields.map fun f => f.2.toJson) :=
      List.forall₂_map_right_iff.2 (List.forall₂_same.2 ih)
    refine .record rfl rfl rfl ?_ ?_ fun p hp => (List.forall₂_iff_zip.1 hforms).2 hp
    · rw [List.map_map]
      rfl
    · rw [List.map_map, List.map_map]
      rfl
  | union members ih =>
    rw [toJson, membersJson_eq]
    have hforms : List.Forall₂ Form members (members.map toJson) :=
      List.forall₂_map_right_iff.2 (List.forall₂_same.2 ih)
    exact .union hforms.length_eq fun p hp => (List.forall₂_iff_zip.1 hforms).2 hp

/-- Reading accepts the forms of schemas whose records name their fields apart, as these schemas,
and what it accepts it reads again from the form that the result is written in. A repeated field
name is all that a form of a schema can be refused for, and at whatever depth it stands in a JSON
value, the value is refused. -/
theorem ofJson_forms :
    (∀ s j, ofJson j = .ok s ↔ s.DistinctFields ∧ s.Form j) ∧
    (∀ (s : Schema) j, s.Form j → ¬ s.DistinctFields →
      ∃ record field, ofJson j = .error (.duplicateField record field)) ∧
    (∀ s : Schema, s.Form s.toJson) ∧
    (∀ s j, ofJson j = .ok s → ofJson s.toJson = .ok s) ∧
    ∀ j, RepeatsField j → ∃ e, ofJson j = .error e := by
  refine ⟨fun s j => ⟨distinct_form_of_ofJson, fun h => (readsIf_of_form h.2).ok h.1⟩,
    fun s j hform => (readsIf_of_form hform).refused, form_toJson, fun s j h => ?_,
    fun j hrepeats => ?_⟩
  · exact (readsIf_of_form s.form_toJson).ok (distinct_form_of_ofJson h).1
  · cases h : ofJson j with
    | error e => exact ⟨e, rfl⟩
    | ok s =>
      obtain ⟨hdistinct, hform⟩ := distinct_form_of_ofJson h
      exact absurd hdistinct (not_distinct_of_repeats hrepeats hform)

end RecordGraph.Schema

namespace RecordGraph

namespace Sample

def musician (second : String) : Schema :=
  .record "Musician" [("uid", .long), (second, .float)]

def band (second : String) : Schema :=
  .record "Band" [("uid", .string), ("musicians", .nullable (.array (musician second)))]

def musicianForm (second : String) : Json :=
  .object [("type", .string "record"), ("name", .string "Musician"), ("fields", .array [
    .object [("name", .string "uid"), ("type", .string "long")],
    .object [("name", .string second), ("default", .null), ("type", .string "float")]])]

def musiciansForm (second : String) : Json :=
  .array [.string "null",
    .object [("type", .object [("items", musicianForm second), ("type", .string "array")])]]

def bandForm (second : String) : Json :=
  .object [("doc", .string "wrapped"), ("type", .object [("name", .string "Band"), ("fields", .array [
      .object [("name", .string "uid"),
        ("type", .object [("items", .string "int"), ("type", .string "string")])],
      .object [("type", musiciansForm second), ("name", .string "musicians")]]),
    ("type", .string "record")])]

theorem form_musician (second : String) : (musician second).Form (musicianForm second) := by
  have hfields : List.Forall₂ (fun (f : String × Schema) j => f.2.Form j)
      [("uid", .long), (second, .float)] _ :=
    .cons (.simple rfl) (.cons (.simple rfl) .nil)
  exact .record rfl rfl rfl rfl (by rfl) fun p hp => (List.forall₂_iff_zip.1 hfields).2 hp

theorem form_musicians (second : String) :
    (Schema.nullable (.array (musician second))).Form (musiciansForm second) := by
  have hitems : (Schema.array (musician second)).Form
      (.object [("items", musicianForm second), ("type", .string "array")]) :=
    .array rfl rfl (form_musician second)
  have hmembers : List.Forall₂ Schema.Form [.null, .array (musician second)]
      [.string "null", .object [("type", _)]] :=
    .cons (.simple rfl) (.cons (.wrapped rfl hitems) .nil)
  exact .union rfl fun p hp => (List.forall₂_iff_zip.1 hmembers).2 hp

theorem form_band (second : String) : (band second).Form (bandForm second) := by
  have huid : Schema.string.Form (.object [("items", .string "int"), ("type", .string "string")]) :=
    .wrapped rfl (.simple rfl)
  have hfields : List.Forall₂ (fun (f : String × Schema) j => f.2.Form j)
      [("uid", .string), ("musicians", .nullable (.array (musician second)))] _ :=
    .cons huid (.cons (form_musicians second) .nil)
  exact .wrapped rfl (.record rfl rfl rfl rfl (by rfl) fun p hp =>
    (List.forall₂_iff_zip.1 hfields).2 hp)

theorem distinct_band : (band "born").DistinctFields := by
  have hmusician : (musician "born").DistinctFields :=
    .record (by decide) (List.forall_mem_cons.2 ⟨.simple rfl, by simpa using .simple rfl⟩)
  have hmusicians : (Schema.nullable (.array (musician "born"))).DistinctFields :=
    .union (List.forall_mem_cons.2 ⟨.simple rfl, by simpa using .array hmusician⟩)
  exact .record (by decide) (List.forall_mem_cons.2 ⟨.simple rfl, by simpa using hmusicians⟩)

theorem repeats_band : Schema.RepeatsField (bandForm "uid") := by
  have hmusician : Schema.RepeatsField (musicianForm "uid") := .here rfl rfl (by decide)
  have hmusicians : Schema.RepeatsField (musiciansForm "uid") :=
    .member (List.mem_cons_of_mem _ List.mem_cons_self) (.wrapped rfl (.items rfl rfl hmusician))
  exact .wrapped rfl (.field rfl rfl (List.mem_cons_of_mem _ List.mem_cons_self) rfl hmusicians)

end Sample

theorem ofJson_forms_band :
    Schema.ofJson (Sample.bandForm "born") = .ok (Sample.band "born") ∧
    Schema.ofJson (Sample.band "born").toJson = .ok (Sample.band "born") ∧
    (∃ record field, Schema.ofJson (Sample.bandForm "uid") = .error (.duplicateField record field)) ∧
    ∃ e, Schema.ofJson (Sample.bandForm "uid") = .error e := by
  obtain ⟨hread, hrefused, -, hagain, hrepeats⟩ := Schema.ofJson_forms
  have hband := (hread _ _).2 ⟨Sample.distinct_band, Sample.form_band "born"⟩
  have huid := Sample.form_band "uid"
  exact ⟨hband, hagain _ _ hband,
    hrefused _ _ huid (Schema.not_distinct_of_repeats Sample.repeats_band huid),
    hrepeats _ Sample.repeats_band⟩

end RecordGraph
