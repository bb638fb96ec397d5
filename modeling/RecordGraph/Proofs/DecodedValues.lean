import RecordGraph.Proofs.BuiltRecords
import RecordGraph.Record.Json

/-!
Values decoded from JSON. A schema says which JSON values fit it and what each becomes;
decoding succeeds exactly on those that fit and gives what the schema says. An object
becomes a record with every field name of its schema, in schema order, and a union takes
the first member that its value fits.
-/

namespace RecordGraph

section Related

variable {α β : Type} {R : α → β → Prop}

theorem exists_of_mem_of_forall₂ {xs : List α} {ys : List β} (h : List.Forall₂ R xs ys) {y : β}
    (hy : y ∈ ys) : ∃ x ∈ xs, R x y := by
  induction h with
  | nil => cases hy
  | @cons x _ _ _ hxy _ ih =>
    rcases List.mem_cons.1 hy with rfl | hmore
    · exact ⟨x, by simp, hxy⟩
    · obtain ⟨x', hx', hxy'⟩ := ih hmore
      exact ⟨x', by simp [hx'], hxy'⟩

theorem find?_rel_of_forall₂ {xs : List α} {ys : List β} (h : List.Forall₂ R xs ys)
    {p : α → Bool} {q : β → Bool} (agree : ∀ x y, R x y → p x = q y) :
    Option.Rel R (xs.find? p) (ys.find? q) := by
  induction h with
  | nil => exact .none
  | @cons x y _ _ hxy _ ih =>
    rw [List.find?_cons, List.find?_cons, agree x y hxy]
    cases q y with
    | true => exact .some hxy
    | false => exact ih

theorem eq_of_first {p : α → Prop} {before after before' after' : List α} {x x' : α}
    (heq : before ++ x :: after = before' ++ x' :: after') (hbefore : ∀ y ∈ before, ¬ p y)
    (hx : p x) (hbefore' : ∀ y ∈ before', ¬ p y) (hx' : p x') : x = x' := by
  obtain ⟨as, rfl, has⟩ | ⟨as, rfl, has⟩ := List.append_eq_append_iff.1 heq
  · cases as with
    | nil => exact (List.cons.inj has).1
    | cons a as =>
      obtain rfl := (List.cons.inj has).1
      exact absurd hx (hbefore' x (by simp))
  · cases as with
    | nil => exact (List.cons.inj has).1.symm
    | cons a as =>
      obtain rfl := (List.cons.inj has).1
      exact absurd hx' (hbefore x' (by simp))

end Related

namespace Schema

@[elab_as_elim]
theorem nested_induction {P : Schema → Prop} (simple : ∀ s, s.isSimple = true → P s)
    (array : ∀ items, P items → P (.array items))
    (record : ∀ name fields, (∀ f ∈ fields, P f.2) → P (.record name fields))
    (union : ∀ members, (∀ s ∈ members, P s) → P (.union members)) (s : Schema) : P s :=
  match s with
  | .null => simple _ rfl
  | .boolean => simple _ rfl
  | .int => simple _ rfl
  | .long => simple _ rfl
  | .float => simple _ rfl
  | .double => simple _ rfl
  | .string => simple _ rfl
  | .array items => array items (nested_induction simple array record union items)
  | .record name fields =>
    record name fields fun f _ => nested_induction simple array record union f.2
  | .union members =>
    union members fun s _ => nested_induction simple array record union s
termination_by sizeOf s
decreasing_by
  · simp
  · rename_i hf
    have hlt := List.sizeOf_lt_of_mem hf
    obtain ⟨n, s⟩ := f
    simp only [Prod.mk.sizeOf_spec] at hlt
    simp only [Schema.record.sizeOf_spec]
    omega
  · rename_i hs
    have hlt := List.sizeOf_lt_of_mem hs
    simp only [Schema.union.sizeOf_spec]
    omega

/-- A JSON value fits a schema. -/
inductive Fits : Schema → Json → Prop
  | null : Fits .null .null
  | boolean (b : Bool) : Fits .boolean (.bool b)
  | int {i : Int} (h : -2 ^ 31 ≤ i ∧ i < 2 ^ 31) : Fits .int (.number (.whole i))
  | long {i : Int} (h : -2 ^ 63 ≤ i ∧ i < 2 ^ 63) : Fits .long (.number (.whole i))
  | float (n : JsonNumber) : Fits .float (.number n)
  | double (n : JsonNumber) : Fits .double (.number n)
  | string (t : String) : Fits .string (.string t)
  | array {items : Schema} {values : List Json} (h : ∀ j ∈ values, Fits items j) :
      Fits (.array items) (.array values)
  | record {r : RecordSchema} {members : List (String × Json)}
      (declared : ∀ m ∈ members, ∃ s, r.field? m.1 = some s)
      (fit : ∀ m ∈ members, ∀ s, r.field? m.1 = some s → Fits s m.2) :
      Fits (.record r.name r.fields) (.object members)
  | unionNull {members : List Schema} (h : .null ∈ members) : Fits (.union members) .null
  | union {members : List Schema} {s : Schema} {j : Json} (hs : s ∈ members) (hne : s ≠ .null)
      (h : Fits s j) : Fits (.union members) j

/-- The value that a JSON value becomes under a schema. Only the last member of a name counts in
an object, and a name that the schema repeats is left without a value. A union leaves the choice
to its first member that fits. -/
inductive Decodes : Schema → Json → FieldValue → Prop
  | null : Decodes .null .null .null
  | boolean (b : Bool) : Decodes .boolean (.bool b) (.boolean b)
  | int (i : Int32) : Decodes .int (.number (.whole i.toInt)) (.int i)
  | long (i : Int64) : Decodes .long (.number (.whole i.toInt)) (.long i)
  | float (n : JsonNumber) : Decodes .float (.number n) (.float (n.toDouble.convert .single))
  | double (n : JsonNumber) : Decodes .double (.number n) (.double n.toDouble)
  | string (t : String) : Decodes .string (.string t) (.string t)
  | array {items : Schema} {values : List Json} {vs : List FieldValue}
      (length : vs.length = values.length) (h : ∀ p ∈ values.zip vs, Decodes items p.1 p.2) :
      Decodes (.array items) (.array values) (.array vs)
  | record {r : RecordSchema} {members : List (String × Json)}
      {entries : List (String × FieldValue)}
      (names : entries.map (·.1) = (r.fields.map (·.1)).eraseDups)
      (absent : ∀ e ∈ entries, (Json.object members).field? e.1 = none → e.2 = .null)
      (repeated : ∀ e ∈ entries, r.Repeats e.1 → e.2 = .null)
      (present : ∀ e ∈ entries, ¬ r.Repeats e.1 → ∀ j s,
        (Json.object members).field? e.1 = some j → r.field? e.1 = some s → Decodes s j e.2) :
      Decodes (.record r.name r.fields) (.object members) (.record r entries)
  | unionNull {members : List Schema} (h : .null ∈ members) : Decodes (.union members) .null .null
  | union {before after : List Schema} {s : Schema} {j : Json} {v : FieldValue}
      (first : ∀ t ∈ before, ¬ (t ≠ .null ∧ t.Fits j)) (hne : s ≠ .null) (fit : s.Fits j)
      (hnull : j = .null → .null ∉ before ++ s :: after) (h : Decodes s j v) :
      Decodes (.union (before ++ s :: after)) j v

theorem Fits.record_iff {r : RecordSchema} {members : List (String × Json)} :
    (Schema.record r.name r.fields).Fits (.object members) ↔
      ∀ m ∈ members, ∃ s, r.field? m.1 = some s ∧ s.Fits m.2 := by
  constructor
  · intro h m hm
    obtain ⟨name, fields⟩ := r
    cases h with
    | record declared fit =>
      obtain ⟨s, hs⟩ := declared m hm
      exact ⟨s, hs, fit m hm s hs⟩
  · intro h
    refine .record (fun m hm => ?_) fun m hm s hs => ?_
    · obtain ⟨s, hs, -⟩ := h m hm
      exact ⟨s, hs⟩
    · obtain ⟨s', hs', hfit⟩ := h m hm
      obtain rfl := Option.some.inj (hs.symm.trans hs')
      exact hfit

theorem isNull_iff (s : Schema) : s.isNull = true ↔ s = .null := by
  cases s <;> simp [isNull]

end Schema

namespace JsonNumber

theorem toInt32?_eq_some_iff {n : JsonNumber} {i : Int32} :
    n.toInt32? = some i ↔ n = .whole i.toInt := by
  cases n with
  | float x => simp [toInt32?]
  | whole k =>
    simp only [toInt32?, whole.injEq]
    constructor
    · intro h
      split at h
      · rename_i hk
        rw [← Option.some.inj h, Int32.toInt_ofInt_of_le hk.1 (Int.lt_add_one_of_le hk.2)]
      · cases h
    · rintro rfl
      rw [if_pos ⟨i.minValue_le_toInt, i.toInt_le⟩, Int32.ofInt_toInt]

theorem toInt64?_eq_some_iff {n : JsonNumber} {i : Int64} :
    n.toInt64? = some i ↔ n = .whole i.toInt := by
  cases n with
  | float x => simp [toInt64?]
  | whole k =>
    simp only [toInt64?, whole.injEq]
    constructor
    · intro h
      split at h
      · rename_i hk
        rw [← Option.some.inj h, Int64.toInt_ofInt_of_le hk.1 (Int.lt_add_one_of_le hk.2)]
      · cases h
    · rintro rfl
      rw [if_pos ⟨i.minValue_le_toInt, i.toInt_le⟩, Int64.ofInt_toInt]

end JsonNumber

namespace FieldValue

theorem exists_decodeEach_iff {decode : String → Json → Except SchemaError FieldValue}
    {Q : Json → Prop} (h : ∀ field j, (∃ v, decode field j = .ok v) ↔ Q j) (field : String)
    (index : Nat) (values : List Json) :
    (∃ vs, decodeEach decode field index values = .ok vs) ↔ ∀ j ∈ values, Q j := by
  induction values generalizing index with
  | nil => simp [decodeEach]
  | cons j rest ih =>
    rw [List.forall_mem_cons, ← h, ← ih (index + 1)]
    simp only [decodeEach, bind_eq_ok, pure_eq_ok]
    constructor
    · rintro ⟨_, v, hv, more, hmore, rfl⟩
      exact ⟨⟨v, hv⟩, more, hmore⟩
    · rintro ⟨⟨v, hv⟩, more, hmore⟩
      exact ⟨_, v, hv, more, hmore, rfl⟩

theorem decodeEach_eq_ok {decode : String → Json → Except SchemaError FieldValue}
    {field : String} {index : Nat} {values : List Json} {vs : List FieldValue}
    (h : decodeEach decode field index values = .ok vs) :
    List.Forall₂ (fun j v => ∃ f, decode f j = .ok v) values vs := by
  induction values generalizing index vs with
  | nil =>
    cases h
    exact .nil
  | cons j rest ih =>
    simp only [decodeEach, bind_eq_ok, pure_eq_ok] at h
    obtain ⟨v, hv, more, hmore, rfl⟩ := h
    exact .cons ⟨_, hv⟩ (ih hmore)

theorem decodeMembers_eq_ok_iff {record : String}
    {decode : String → Json → Option (Except SchemaError FieldValue)}
    {members : List (String × Json)} {given : List (String × FieldValue)} :
    decodeMembers record decode members = .ok given ↔
      List.Forall₂ (fun m g => g.1 = m.1 ∧ decode m.1 m.2 = some (.ok g.2)) members given := by
  induction members generalizing given with
  | nil => simp [decodeMembers, eq_comm]
  | cons m rest ih =>
    obtain ⟨name, j⟩ := m
    rw [List.forall₂_cons_left_iff]
    cases hdecode : decode name j with
    | none => simp [decodeMembers, hdecode]
    | some result =>
      simp only [decodeMembers, hdecode, bind_eq_ok, pure_eq_ok, ih]
      constructor
      · rintro ⟨v, rfl, more, hmore, rfl⟩
        exact ⟨(name, v), more, ⟨rfl, rfl⟩, hmore, rfl⟩
      · rintro ⟨⟨n, v⟩, more, ⟨rfl, hv⟩, hmore, rfl⟩
        exact ⟨v, Option.some.inj hv, more, hmore, rfl⟩

theorem decodeField_eq (r : RecordSchema) (name : String) (j : Json) :
    decodeField r.fields name j = (r.field? name).map fun s => decode name s j := by
  obtain ⟨record, fields⟩ := r
  induction fields with
  | nil => rfl
  | cons f rest ih =>
    obtain ⟨n, s⟩ := f
    simp only [RecordSchema.field?] at ih ⊢
    by_cases hn : n = name
    · simp [decodeField, hn]
    · simp [decodeField, hn, ih]

theorem decodeField_eq_some_ok_iff {r : RecordSchema} {name : String} {j : Json}
    {v : FieldValue} : decodeField r.fields name j = some (.ok v) ↔
      ∃ s, r.field? name = some s ∧ decode name s j = .ok v := by
  rw [decodeField_eq, Option.map_eq_some_iff]

def decodeMember? (field : String) (j : Json) (s : Schema) : Option FieldValue :=
  if s.isNull then none else (decode field s j).toOption

theorem decodeMember?_eq_some_iff {field : String} {j : Json} {s : Schema} {v : FieldValue} :
    decodeMember? field j s = some v ↔ s ≠ .null ∧ decode field s j = .ok v := by
  unfold decodeMember?
  cases hs : s.isNull with
  | true => simp [(s.isNull_iff).1 hs]
  | false =>
    have hne : s ≠ .null := fun h => by simp [h, Schema.isNull] at hs
    cases decode field s j <;> simp [hne, Except.toOption]

theorem decodeUnion_eq (field : String) (members : List Schema) (j : Json) :
    decodeUnion field members j = members.findSome? (decodeMember? field j) := by
  induction members with
  | nil => rfl
  | cons s rest ih =>
    rw [decodeUnion, List.findSome?_cons, decodeMember?]
    cases s.isNull with
    | true => simpa using ih
    | false => cases decode field s j <;> simp [ih, Except.toOption]

theorem any_isNull_iff (members : List Schema) :
    members.any Schema.isNull = true ↔ .null ∈ members := by
  simp only [List.any_eq_true, Schema.isNull_iff, exists_eq_right]

theorem decode_union_eq_ok_iff {field : String} {members : List Schema} {j : Json}
    {v : FieldValue} : decode field (.union members) j = .ok v ↔
      (j = .null ∧ .null ∈ members ∧ v = .null) ∨
      (j = .null → .null ∉ members) ∧ members.findSome? (decodeMember? field j) = some v := by
  rw [← decodeUnion_eq]
  cases j with
  | null =>
    by_cases hmem : .null ∈ members
    · simp [decode, (any_isNull_iff members).2 hmem, hmem, eq_comm]
    · have hany : members.any Schema.isNull = false := by
        simpa [hmem] using any_isNull_iff members
      cases hfirst : decodeUnion field members .null <;> simp [decode, hany, hmem, hfirst]
  | _ => cases hfirst : decodeUnion field members _ <;> simp [decode, hfirst]

theorem decode_simple_eq_ok_iff (field : String) {s : Schema} {j : Json} {v : FieldValue}
    (hs : s.isSimple = true) : decode field s j = .ok v ↔ s.Decodes j v := by
  constructor
  · intro h
    cases s with
    | int =>
      cases j with
      | number n =>
        simp only [decode] at h
        split at h
        · rename_i i hi
          obtain rfl := JsonNumber.toInt32?_eq_some_iff.1 hi
          cases h
          exact .int i
        · cases h
      | _ => cases h
    | long =>
      cases j with
      | number n =>
        simp only [decode] at h
        split at h
        · rename_i i hi
          obtain rfl := JsonNumber.toInt64?_eq_some_iff.1 hi
          cases h
          exact .long i
        · cases h
      | _ => cases h
    | array | record | union => cases hs
    | _ =>
      cases j <;> cases h
      constructor
  · intro h
    cases h with
    | int i => simp [decode, JsonNumber.toInt32?_eq_some_iff.2 rfl]
    | long i => simp [decode, JsonNumber.toInt64?_eq_some_iff.2 rfl]
    | array | record | unionNull | union => cases hs
    | _ => rfl

theorem exists_decodes_simple_iff {s : Schema} {j : Json} (hs : s.isSimple = true) :
    (∃ v, s.Decodes j v) ↔ s.Fits j := by
  constructor
  · rintro ⟨v, h⟩
    cases h with
    | int i => exact .int ⟨i.le_toInt, i.toInt_lt⟩
    | long i => exact .long ⟨i.le_toInt, i.toInt_lt⟩
    | array | record | unionNull | union => cases hs
    | _ => constructor
  · intro h
    cases h with
    | @int k hk =>
      rw [← Int32.toInt_ofInt_of_le hk.1 hk.2]
      exact ⟨_, .int _⟩
    | @long k hk =>
      rw [← Int64.toInt_ofInt_of_le hk.1 hk.2]
      exact ⟨_, .long _⟩
    | array | record | unionNull | union => cases hs
    | _ => exact ⟨_, by constructor⟩

/-- What a member of an object becomes under the schema declared for its name. -/
def MemberDecodes (r : RecordSchema) (m : String × Json) (g : String × FieldValue) : Prop :=
  g.1 = m.1 ∧ ∃ s, r.field? m.1 = some s ∧ decode m.1 s m.2 = .ok g.2

theorem decode_record_eq_ok_iff {field : String} {r : RecordSchema}
    {members : List (String × Json)} {v : FieldValue} :
    decode field (.record r.name r.fields) (.object members) = .ok v ↔
      ∃ given, List.Forall₂ (MemberDecodes r) members given ∧
        v = .record r (Record.settledEntries r given) := by
  have hmembers (given : List (String × FieldValue)) :
      decodeMembers r.name (fun f j => decodeField r.fields f j) members = .ok given ↔
        List.Forall₂ (MemberDecodes r) members given := by
    simp only [decodeMembers_eq_ok_iff, decodeField_eq_some_ok_iff]
    rfl
  constructor
  · intro h
    obtain ⟨given, hgiven, hbuild⟩ := bind_eq_ok.1 h
    obtain ⟨_, hr, rfl⟩ := map_eq_ok.1 hbuild
    obtain ⟨-, rfl⟩ := Record.build_eq_ok_iff.1 hr
    exact ⟨given, (hmembers given).1 hgiven, rfl⟩
  · rintro ⟨given, hgiven, rfl⟩
    have hdeclared : ∀ g ∈ given, g.1 ∈ r.fields.map (·.1) := by
      intro g hg
      obtain ⟨m, -, hname, s, hs, -⟩ := exists_of_mem_of_forall₂ hgiven hg
      exact RecordSchema.exists_field?_iff.1 ⟨s, hname ▸ hs⟩
    have hbuild := Record.build_eq_ok_iff.2 ⟨hdeclared, rfl⟩
    exact bind_eq_ok.2 ⟨given, (hmembers given).2 hgiven, map_eq_ok.2 ⟨_, hbuild, rfl⟩⟩

theorem valueFor_of_forall₂ {r : RecordSchema} {members : List (String × Json)}
    {given : List (String × FieldValue)} (h : List.Forall₂ (MemberDecodes r) members given)
    (name : String) :
    ((Json.object members).field? name = none → Record.valueFor given name = .null) ∧
      ∀ j, (Json.object members).field? name = some j →
        ∃ s, r.field? name = some s ∧ decode name s j = .ok (Record.valueFor given name) := by
  have hlast := find?_rel_of_forall₂ (List.forall₂_reverse_iff.2 h)
    (p := fun m => m.1 = name) (q := fun g => g.1 = name) fun m g hmg => by rw [hmg.1]
  have hfield : (Json.object members).field? name =
      (members.reverse.find? fun m => m.1 = name).map (·.2) := rfl
  have hvalue : Record.valueFor given name =
      ((given.reverse.find? fun g => g.1 = name).map (·.2)).getD .null := rfl
  have hfound : ∀ m, (members.reverse.find? fun m => m.1 = name) = some m → m.1 = name :=
    fun m hm => by simpa using List.find?_some hm
  rw [hfield, hvalue]
  generalize (members.reverse.find? fun m => m.1 = name) = last at hlast hfound ⊢
  generalize (given.reverse.find? fun g => g.1 = name) = value at hlast ⊢
  cases hlast with
  | none => simp
  | @some m g hmg =>
    obtain ⟨-, s, hs, hdecode⟩ := hmg
    obtain rfl := hfound m rfl
    refine ⟨by simp, ?_⟩
    rintro j ⟨⟩
    exact ⟨s, hs, hdecode⟩

end FieldValue

open FieldValue

namespace Schema

theorem exists_decode_iff (s : Schema) (field : String) (j : Json) :
    (∃ v, decode field s j = .ok v) ↔ s.Fits j := by
  induction s using Schema.nested_induction generalizing field j with
  | simple s hs =>
    simp only [decode_simple_eq_ok_iff field hs]
    exact exists_decodes_simple_iff hs
  | array items ih =>
    cases j with
    | array values =>
      have heach : (∃ vs, decodeEach (fun f j => decode f items j) field 0 values = .ok vs) ↔
          ∀ j ∈ values, items.Fits j := exists_decodeEach_iff ih field 0 values
      constructor
      · rintro ⟨v, hv⟩
        obtain ⟨vs, hvs, -⟩ := map_eq_ok.1 hv
        exact .array (heach.1 ⟨vs, hvs⟩)
      · rintro ⟨⟩
        rename_i hvalues
        obtain ⟨vs, hvs⟩ := heach.2 hvalues
        exact ⟨_, map_eq_ok.2 ⟨vs, hvs, rfl⟩⟩
    | _ =>
      constructor
      · rintro ⟨v, hv⟩
        cases hv
      · rintro ⟨⟩
  | record name fields ih =>
    cases j with
    | object members =>
      let r : RecordSchema := ⟨name, fields⟩
      have hfield {n : String} {s : Schema} (hs : r.field? n = some s) (f : String) (j : Json) :
          (∃ v, decode f s j = .ok v) ↔ s.Fits j :=
        ih (n, s) (RecordSchema.mem_fields_of_field? hs) f j
      have hmember (m : String × Json) : (∃ g, MemberDecodes r m g) ↔
          ∃ s, r.field? m.1 = some s ∧ s.Fits m.2 := by
        constructor
        · rintro ⟨g, -, s, hs, hdecode⟩
          exact ⟨s, hs, (hfield hs m.1 m.2).1 ⟨_, hdecode⟩⟩
        · rintro ⟨s, hs, hfit⟩
          obtain ⟨v, hv⟩ := (hfield hs m.1 m.2).2 hfit
          exact ⟨(m.1, v), rfl, s, hs, hv⟩
      calc (∃ v, decode field (.record r.name r.fields) (.object members) = .ok v)
          ↔ ∃ given, List.Forall₂ (MemberDecodes r) members given := by
            simp only [decode_record_eq_ok_iff, exists_comm (α := FieldValue), exists_and_left,
              exists_eq, and_true]
        _ ↔ ∀ m ∈ members, ∃ g, MemberDecodes r m g := exists_forall₂_iff
        _ ↔ ∀ m ∈ members, ∃ s, r.field? m.1 = some s ∧ s.Fits m.2 := by simp only [hmember]
        _ ↔ Fits (.record r.name r.fields) (.object members) := Fits.record_iff.symm
    | _ =>
      constructor
      · rintro ⟨v, hv⟩
        cases hv
      · rintro ⟨⟩
  | union members ih =>
    simp only [decode_union_eq_ok_iff]
    constructor
    · rintro ⟨v, ⟨rfl, hnull, -⟩ | ⟨-, hfirst⟩⟩
      · exact .unionNull hnull
      · obtain ⟨s, hs, hmember⟩ := List.exists_of_findSome?_eq_some hfirst
        obtain ⟨hne, hdecode⟩ := decodeMember?_eq_some_iff.1 hmember
        exact .union hs hne ((ih s hs field j).1 ⟨v, hdecode⟩)
    · intro h
      by_cases hnull : j = .null ∧ .null ∈ members
      · exact ⟨_, .inl ⟨hnull.1, hnull.2, rfl⟩⟩
      · cases h with
        | unionNull hmem => exact absurd ⟨rfl, hmem⟩ hnull
        | @union _ s _ hs hne hfit =>
          obtain ⟨v, hv⟩ := (ih s hs field j).2 hfit
          have hsome : (members.findSome? (decodeMember? field j)).isSome := by
            rw [List.findSome?_isSome_iff]
            exact ⟨s, hs, by rw [decodeMember?_eq_some_iff.2 ⟨hne, hv⟩]; rfl⟩
          obtain ⟨v', hv'⟩ := Option.isSome_iff_exists.1 hsome
          exact ⟨v', .inr ⟨fun hj hmem => hnull ⟨hj, hmem⟩, hv'⟩⟩

theorem decodes_of_decode {s : Schema} {field : String} {j : Json} {v : FieldValue}
    (h : decode field s j = .ok v) : s.Decodes j v := by
  induction s using Schema.nested_induction generalizing field j v with
  | simple s hs => exact (decode_simple_eq_ok_iff field hs).1 h
  | array items ih =>
    cases j with
    | array values =>
      obtain ⟨vs, hvs, rfl⟩ := map_eq_ok.1 h
      obtain ⟨hlength, hzip⟩ := List.forall₂_iff_zip.1 (decodeEach_eq_ok hvs)
      refine .array hlength.symm fun p hp => ?_
      obtain ⟨f, hf⟩ := hzip hp
      exact ih hf
    | _ => cases h
  | record name fields ih =>
    cases j with
    | object members =>
      obtain ⟨given, hgiven, rfl⟩ := (decode_record_eq_ok_iff (r := ⟨name, fields⟩)).1 h
      refine .record (r := ⟨name, fields⟩) (Record.names_settledEntries _ _)
        (fun e he hnone => ?_) (fun e he hrepeats => ?_) fun e he honce j s hj hs => ?_
      · rw [Record.eq_settled_of_mem he, Record.settled, (valueFor_of_forall₂ hgiven e.1).1 hnone,
          ite_self]
      · rw [Record.eq_settled_of_mem he, Record.settled, if_pos hrepeats]
      · obtain ⟨s', hs', hdecode⟩ := (valueFor_of_forall₂ hgiven e.1).2 j hj
        obtain rfl := Option.some.inj (hs.symm.trans hs')
        rw [Record.eq_settled_of_mem he, Record.settled, if_neg honce]
        exact ih (e.1, s) (RecordSchema.mem_fields_of_field? hs) hdecode
    | _ => cases h
  | union members ih =>
    obtain ⟨rfl, hnull, rfl⟩ | ⟨hnull, hfirst⟩ := decode_union_eq_ok_iff.1 h
    · exact .unionNull hnull
    · obtain ⟨before, s, after, rfl, hmember, hbefore⟩ := List.findSome?_eq_some_iff.1 hfirst
      obtain ⟨hne, hdecode⟩ := decodeMember?_eq_some_iff.1 hmember
      refine .union ?_ hne ((s.exists_decode_iff field j).1 ⟨v, hdecode⟩) hnull
        (ih s (by simp) hdecode)
      rintro t ht ⟨htne, hfit⟩
      obtain ⟨w, hw⟩ := (t.exists_decode_iff field j).2 hfit
      have hsome := decodeMember?_eq_some_iff.2 ⟨htne, hw⟩
      rw [hbefore t ht] at hsome
      cases hsome

theorem Decodes.union_iff {members : List Schema} {j : Json} {v : FieldValue} :
    (Schema.union members).Decodes j v ↔ (j = .null ∧ .null ∈ members ∧ v = .null) ∨
      (j = .null → .null ∉ members) ∧ ∃ before s after, members = before ++ s :: after ∧
        (∀ t ∈ before, ¬ (t ≠ .null ∧ t.Fits j)) ∧ (s ≠ .null ∧ s.Fits j) ∧ s.Decodes j v := by
  constructor
  · intro h
    cases h with
    | unionNull hmem => exact .inl ⟨rfl, hmem, rfl⟩
    | union first hne fit hnull h => exact .inr ⟨hnull, _, _, _, rfl, first, ⟨hne, fit⟩, h⟩
  · rintro (⟨rfl, hmem, rfl⟩ | ⟨hnull, _, _, _, rfl, first, ⟨hne, fit⟩, h⟩)
    · exact .unionNull hmem
    · exact .union first hne fit hnull h

theorem exists_field?_of_names {r : RecordSchema} {entries : List (String × FieldValue)}
    (names : entries.map (·.1) = (r.fields.map (·.1)).eraseDups) {e : String × FieldValue}
    (he : e ∈ entries) : ∃ s, r.field? e.1 = some s :=
  RecordSchema.exists_field?_iff.2 (List.mem_eraseDups.1 (names ▸ List.mem_map_of_mem he))

theorem Decodes.unique {s : Schema} {j : Json} {v w : FieldValue} (hv : s.Decodes j v)
    (hw : s.Decodes j w) : v = w := by
  induction s using Schema.nested_induction generalizing j v w with
  | simple s hs =>
    have hdecode := (decode_simple_eq_ok_iff "" hs).2 hv
    rw [(decode_simple_eq_ok_iff "" hs).2 hw] at hdecode
    exact (Except.ok.inj hdecode).symm
  | array items ih =>
    cases hv with
    | array hvs hv =>
      cases hw with
      | array hws hw =>
        have hv := List.forall₂_iff_zip (R := items.Decodes).2 ⟨hvs.symm, hv _⟩
        have hw := List.forall₂_iff_zip (R := items.Decodes).2 ⟨hws.symm, hw _⟩
        have hunique : Relator.RightUnique items.Decodes := fun _ _ _ hv hw => ih hv hw
        exact congrArg _ (List.right_unique_forall₂' hunique hv hw)
  | record name fields ih =>
    cases hv with
    | @record r members entries names absent repeated present =>
      obtain ⟨name, fields⟩ := r
      cases hw with
      | @record r _ entries' names' absent' repeated' present' =>
        congr 1
        -- Entry by entry: the names agree, and by its name an entry is null or decodes.
        have hnames := names.trans names'.symm
        have hlength : entries.length = entries'.length := by
          simpa using congrArg List.length hnames
        refine List.ext_getElem hlength fun i hi hi' => ?_
        have hname : entries[i].1 = entries'[i].1 := by
          simpa [hi, hi'] using congrArg (fun l => l[i]?) hnames
        refine Prod.ext hname ?_
        have he := List.getElem_mem hi
        have he' := List.getElem_mem hi'
        by_cases hrepeats : r.Repeats entries[i].1
        · rw [repeated _ he hrepeats, repeated' _ he' (hname ▸ hrepeats)]
        cases hj : (Json.object members).field? entries[i].1 with
        | none => rw [absent _ he hj, absent' _ he' (hname ▸ hj)]
        | some j =>
          obtain ⟨s, hs⟩ := exists_field?_of_names names he
          exact ih (entries[i].1, s) (RecordSchema.mem_fields_of_field? hs)
            (present _ he hrepeats j s hj hs)
            (present' _ he' (hname ▸ hrepeats) j s (hname ▸ hj) (hname ▸ hs))
  | union members ih =>
    obtain ⟨rfl, hnull, rfl⟩ | ⟨hnull, before, s, after, rfl, first, hs, hv⟩ :=
      Decodes.union_iff.1 hv
    · obtain ⟨-, -, rfl⟩ | ⟨hnull', -⟩ := Decodes.union_iff.1 hw
      · rfl
      · exact absurd hnull (hnull' rfl)
    · obtain ⟨rfl, hnull', -⟩ | ⟨-, before', s', after', heq, first', hs', hw⟩ :=
        Decodes.union_iff.1 hw
      · exact absurd hnull' (hnull rfl)
      · obtain rfl := eq_of_first heq first hs first' hs'
        exact ih s (by simp) hv hw

end Schema

theorem FieldValue.decode_eq_ok_iff (field : String) {s : Schema} {j : Json} {v : FieldValue} :
    decode field s j = .ok v ↔ s.Fits j ∧ s.Decodes j v := by
  constructor
  · intro h
    exact ⟨(s.exists_decode_iff field j).1 ⟨v, h⟩, s.decodes_of_decode h⟩
  · rintro ⟨hfit, hv⟩
    obtain ⟨w, hw⟩ := (s.exists_decode_iff field j).2 hfit
    rw [hw, hv.unique (s.decodes_of_decode hw)]

theorem Record.ofJson_eq_ok_iff {schema : RecordSchema} {j : Json} {r : Record} :
    ofJson schema j = .ok r ↔
      (Schema.ofRecord schema).Fits j ∧ (Schema.ofRecord schema).Decodes j (.ofRecord r) := by
  rw [← decode_eq_ok_iff schema.name]
  have hrecord : ∀ r', FieldValue.ofRecord r' = .ofRecord r ↔ r' = r := by
    intro r'
    obtain ⟨_, _⟩ := r
    obtain ⟨_, _⟩ := r'
    simp [FieldValue.ofRecord]
  cases j with
  | object members =>
    have hdecode : decode schema.name (.ofRecord schema) (.object members) =
        (ofJson schema (.object members)).map .ofRecord := by
      simp only [ofJson, Schema.ofRecord, decode]
      cases decodeMembers schema.name (fun f j => decodeField schema.fields f j) members <;> rfl
    rw [hdecode, map_eq_ok]
    simp only [hrecord, exists_eq_right]
  | _ => exact iff_of_false nofun nofun

namespace FieldValue

/-- A value at some depth in another. -/
inductive Within (x : FieldValue) : FieldValue → Prop
  | self : Within x x
  | item {items : List FieldValue} {v : FieldValue} (hv : v ∈ items) (h : Within x v) :
      Within x (.array items)
  | entry {schema : RecordSchema} {entries : List (String × FieldValue)}
      {e : String × FieldValue} (he : e ∈ entries) (h : Within x e.2) :
      Within x (.record schema entries)

theorem names_of_within {s : Schema} {j : Json} {v : FieldValue} (h : s.Decodes j v)
    {r : RecordSchema} {entries : List (String × FieldValue)}
    (hwithin : (record r entries).Within v) :
    entries.map (·.1) = (r.fields.map (·.1)).eraseDups := by
  induction h with
  | array length _ ih =>
    cases hwithin with
    | item hv hwithin =>
      obtain ⟨j, hj⟩ := exists_of_mem_of_forall₂ (List.forall₂_iff_zip.2 ⟨length.symm, ih _⟩) hv
      exact hj.2 hwithin
  | @record r' members _ names absent repeated _ ih =>
    cases hwithin with
    | self => exact names
    | @entry _ _ e he hwithin =>
      -- A record stands in an entry that is not null, so the object has a value for its name.
      have hnull : e.2 ≠ .null := by
        intro hnull
        rw [hnull] at hwithin
        cases hwithin
      have honce : ¬ r'.Repeats e.1 := fun h => hnull (repeated e he h)
      obtain ⟨j, hj⟩ := Option.ne_none_iff_exists'.1 fun h => hnull (absent e he h)
      obtain ⟨s, hs⟩ := Schema.exists_field?_of_names names he
      exact ih e he honce j s hj hs hwithin
  | union _ _ _ _ _ ih => exact ih hwithin
  | _ => cases hwithin

/-- Decoding accepts exactly the JSON that fits the schema, and what it then gives is the
one value that the schema says: of the schema's kind, a list with its items in order, a union's
value as its first fitting member. Every record in it, at any depth, has each name of its schema
once and in order, and so exactly the fields of the schema if their names are distinct. -/
theorem decode_accepts (field : String) (s : Schema) (j : Json) :
    ((∃ v, decode field s j = .ok v) ↔ s.Fits j) ∧
    (∀ v, decode field s j = .ok v ↔ s.Fits j ∧ s.Decodes j v) ∧
    ∀ v, decode field s j = .ok v → ∀ r entries, (record r entries).Within v →
      entries.map (·.1) = (r.fields.map (·.1)).eraseDups ∧
        (r.Distinct → entries.map (·.1) = r.fields.map (·.1)) := by
  refine ⟨s.exists_decode_iff field j, fun _ => decode_eq_ok_iff field, ?_⟩
  intro v hv r entries hwithin
  have hnames := names_of_within (s.decodes_of_decode hv) hwithin
  exact ⟨hnames, fun hdistinct => hnames.trans (eraseDups_eq_self hdistinct)⟩

end FieldValue

namespace Sample

def playerSchema : RecordSchema :=
  ⟨"Player", [("uid", .string), ("age", .nullable .int), ("tags", .array .string)]⟩

def playerJson : Json :=
  .object [("tags", .array [.string "a", .string "b"]), ("uid", .string "u1")]

def player : FieldValue :=
  .record playerSchema
    [("uid", .string "u1"), ("age", .null), ("tags", .array [.string "a", .string "b"])]

def twinSchema : RecordSchema :=
  ⟨"Twin", [("a", .int), ("a", .int)]⟩

end Sample

theorem decode_accepts_player :
    (Schema.nullable (.ofRecord Sample.playerSchema)).Decodes Sample.playerJson Sample.player ∧
      ¬ (Schema.nullable (.ofRecord Sample.playerSchema)).Fits
        (.object [("age", .number (.whole 5000000000))]) := by
  constructor
  · exact (((FieldValue.decode_accepts "player" _ _).2.1 _).1 rfl).2
  · intro h
    obtain ⟨v, hv⟩ := (FieldValue.decode_accepts "player" _ _).1.2 h
    cases hv

/-- A repeated name gets one entry, not one for each field, and loses the value given for it. -/
theorem decode_repeated_name :
    (Schema.ofRecord Sample.twinSchema).Fits (.object [("a", .number (.whole 1))]) ∧
    FieldValue.decode "twin" (.ofRecord Sample.twinSchema) (.object [("a", .number (.whole 1))]) =
      .ok (.record Sample.twinSchema [("a", .null)]) ∧
    [("a", FieldValue.null)].map (·.1) ≠ Sample.twinSchema.fields.map (·.1) := by
  refine ⟨Schema.Fits.record_iff.2 fun m hm => ?_, rfl, by decide⟩
  obtain rfl := List.mem_singleton.1 hm
  exact ⟨.int, rfl, .int (by decide)⟩

end RecordGraph
