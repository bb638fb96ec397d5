import RecordGraph.Proofs.RecordFields
import RecordGraph.Record.Builder

/-!
Records built by calls. Building fails with the first name that the schema does not have. Else
the record has every name of the schema once, in the order of the fields: with the last value
that was set for it, or null if none was. A name that the schema repeats ends with null too,
since its first field takes the value out and its last one, finding none, writes over it.
The order of calls for different fields does not matter.
-/

namespace RecordGraph

namespace RecordBuilder

@[simp] theorem given_setAll (b : RecordBuilder) (calls : List (String × FieldValue)) :
    (b.setAll calls).given = b.given ++ calls := by
  induction calls generalizing b with
  | nil => simp [setAll]
  | cons c rest ih =>
    have hset : b.setAll (c :: rest) = (b.set c.1 c.2).setAll rest := rfl
    simp [hset, ih, set]

@[simp] theorem schema_setAll (b : RecordBuilder) (calls : List (String × FieldValue)) :
    (b.setAll calls).schema = b.schema := by
  induction calls generalizing b with
  | nil => rfl
  | cons c rest ih => exact ih (b.set c.1 c.2)

theorem supply_eq (schema : RecordSchema) (supplied : Slots FieldValue)
    (calls : List (String × FieldValue)) :
    supply schema supplied calls =
      match calls.find? (fun c => (schema.field? c.1).isNone) with
      | some c => .error (.unknownField schema.name c.1)
      | none => .ok (calls.foldl (fun s c => s.write c.1 c.2) supplied) := by
  induction calls generalizing supplied with
  | nil => rfl
  | cons c rest ih =>
    rw [supply]
    cases h : schema.field? c.1 <;> simp [h, ih]

theorem names_takeFields (fields : List (String × Schema)) (supplied : Slots FieldValue) :
    (takeFields fields supplied).map (·.1) = fields.map (·.1) := by
  induction fields generalizing supplied with
  | nil => rfl
  | cons f rest ih => simp [takeFields, ih]

theorem find?_takeFields (fields : List (String × Schema)) (supplied : Slots FieldValue)
    (name : String) :
    (takeFields fields supplied).reverse.find? (fun e => e.1 = name) =
      if name ∈ fields.map (·.1) then
        some (name, if List.Duplicate name (fields.map (·.1)) then .null
          else (supplied.get? name).getD .null)
      else none := by
  induction fields generalizing supplied with
  | nil => rfl
  | cons f rest ih =>
    rw [takeFields, List.reverse_cons, List.find?_append, ih, Slots.get?_takeOut,
      Slots.takeOut_fst]
    by_cases hname : f.1 = name
    · subst hname
      by_cases hrest : f.1 ∈ rest.map (·.1)
      · simp [hrest]
      · simp [hrest]
    · by_cases hrest : name ∈ rest.map (·.1) <;>
        simp [hrest, hname, Ne.symm hname, List.duplicate_cons_iff]

end RecordBuilder

namespace Record

variable {schema : RecordSchema} {calls calls' : List (String × FieldValue)} {name : String}
  {value : FieldValue}

def valueFor (given : List (String × FieldValue)) (name : String) : FieldValue :=
  ((given.reverse.find? (fun e => e.1 = name)).map (·.2)).getD .null

def settled (schema : RecordSchema) (given : List (String × FieldValue)) (name : String) :
    FieldValue :=
  if schema.Repeats name then .null else valueFor given name

/-- The entries that a built record has. -/
def settledEntries (schema : RecordSchema) (given : List (String × FieldValue)) :
    List (String × FieldValue) :=
  (schema.fields.map (·.1)).eraseDups.map fun n => (n, settled schema given n)

@[simp] theorem names_settledEntries (schema : RecordSchema)
    (given : List (String × FieldValue)) :
    (settledEntries schema given).map (·.1) = (schema.fields.map (·.1)).eraseDups := by
  simp [settledEntries, Function.comp_def]

theorem eq_settled_of_mem {given : List (String × FieldValue)} {e : String × FieldValue}
    (he : e ∈ settledEntries schema given) : e.2 = settled schema given e.1 := by
  obtain ⟨n, -, rfl⟩ := List.mem_map.1 he
  rfl

theorem entries_takeFields (schema : RecordSchema) (given : List (String × FieldValue)) :
    (Slots.ofList (RecordBuilder.takeFields schema.fields (Slots.ofList given))).entries =
      settledEntries schema given := by
  rw [Slots.entries_eq_map _ .null, Slots.names_ofList, RecordBuilder.names_takeFields]
  refine List.map_congr_left fun n hn => congrArg (Prod.mk n) ?_
  rw [Slots.get?_ofList, RecordBuilder.find?_takeFields, if_pos (List.mem_eraseDups.1 hn), settled,
    Slots.get?_ofList]
  rfl

theorem build_eq (schema : RecordSchema) (given : List (String × FieldValue)) :
    build schema given =
      match given.find? (fun c => (schema.field? c.1).isNone) with
      | some c => .error (.unknownField schema.name c.1)
      | none => .ok ⟨schema, settledEntries schema given⟩ := by
  rw [build, RecordBuilder.build, RecordBuilder.schema_setAll, RecordBuilder.given_setAll,
    RecordBuilder.supply_eq]
  cases hunknown : given.find? (fun c => (schema.field? c.1).isNone) with
  | some c => simp [Record.builder, hunknown]
  | none =>
    rw [← entries_takeFields]
    simp [Record.builder, hunknown]; rfl

theorem build_eq_ok_iff {r : Record} : build schema calls = .ok r ↔
    (∀ c ∈ calls, c.1 ∈ schema.fields.map (·.1)) ∧
      r = ⟨schema, settledEntries schema calls⟩ := by
  rw [build_eq]
  cases hunknown : calls.find? (fun c => (schema.field? c.1).isNone) with
  | some c =>
    have hnone := List.find?_some hunknown
    refine iff_of_false nofun fun h => ?_
    obtain ⟨s, hs⟩ := RecordSchema.exists_field?_iff.2 (h.1 c (List.mem_of_find?_eq_some hunknown))
    simp [hs] at hnone
  | none =>
    have hall : ∀ c ∈ calls, c.1 ∈ schema.fields.map (·.1) := fun c hc => by
      have hsome := List.find?_eq_none.1 hunknown c hc
      exact RecordSchema.exists_field?_iff.1 (Option.ne_none_iff_exists'.1 (by simpa using hsome))
    rw [Except.ok.injEq, eq_comm]
    exact (and_iff_right hall).symm

theorem build_eq_error_iff {e : SchemaError} : build schema calls = .error e ↔
    First (fun c => c.1 ∈ schema.fields.map (·.1))
      (fun c => c.1 ∉ schema.fields.map (·.1) ∧ e = .unknownField schema.name c.1) calls := by
  have hfound : build schema calls = .error e ↔
      ∃ c, calls.find? (fun c => (schema.field? c.1).isNone) = some c ∧
        e = .unknownField schema.name c.1 := by
    rw [build_eq]
    cases calls.find? (fun c => (schema.field? c.1).isNone) <;> simp [eq_comm]
  have hunknown (c : String × FieldValue) :
      (schema.field? c.1).isNone = true ↔ c.1 ∉ schema.fields.map (·.1) := by
    rw [Option.isNone_iff_eq_none, RecordSchema.field?_eq_none_iff]
  simp only [hfound, List.find?_eq_some_iff_append, Bool.not_eq_true', ← Bool.not_eq_true,
    hunknown, not_not]
  constructor
  · rintro ⟨c, ⟨hc, before, after, hsplit, hbefore⟩, he⟩
    exact ⟨before, c, after, hsplit, hbefore, hc, he⟩
  · rintro ⟨before, c, after, hsplit, hbefore, hc, he⟩
    exact ⟨c, ⟨hc, before, after, hsplit, hbefore⟩, he⟩

/-- What calls leave in a field: the value of the last call for it, or null if there is none. -/
def Leaves (calls : List (String × FieldValue)) (name : String) (value : FieldValue) : Prop :=
  (∃ before after, calls = before ++ (name, value) :: after ∧ name ∉ after.map (·.1)) ∨
    name ∉ calls.map (·.1) ∧ value = .null

theorem find?_reverse_eq_none_iff :
    calls.reverse.find? (fun c => c.1 = name) = none ↔ name ∉ calls.map (·.1) := by
  rw [find?_name_eq_none_iff, List.map_reverse, List.mem_reverse]

theorem leaves_valueFor (calls : List (String × FieldValue)) (name : String) :
    Leaves calls name (valueFor calls name) := by
  unfold valueFor
  cases hlast : calls.reverse.find? (fun c => c.1 = name) with
  | none => exact .inr ⟨find?_reverse_eq_none_iff.1 hlast, rfl⟩
  | some c =>
    obtain ⟨hc, later, earlier, hsplit, hlater⟩ := List.find?_eq_some_iff_append.1 hlast
    obtain rfl : c.1 = name := by simpa using hc
    refine .inl ⟨earlier.reverse, later.reverse, ?_, ?_⟩
    · simpa using List.reverse_eq_iff.1 hsplit
    · exact find?_reverse_eq_none_iff.1 (by simpa [List.find?_eq_none] using hlater)

theorem valueFor_eq_iff : valueFor calls name = value ↔ Leaves calls name value := by
  constructor
  · rintro rfl
    exact leaves_valueFor calls name
  · rintro (⟨before, after, rfl, hafter⟩ | ⟨hname, rfl⟩)
    · simp [valueFor, List.find?_append, find?_reverse_eq_none_iff.2 hafter]
    · simp [valueFor, find?_reverse_eq_none_iff.2 hname]

theorem entries_eq_iff {fields : List (String × Schema)} {entries : List (String × FieldValue)} :
    (entries = fields.map fun f => (f.1, valueFor calls f.1)) ↔
      entries.map (·.1) = fields.map (·.1) ∧ ∀ e ∈ entries, Leaves calls e.1 e.2 := by
  simp only [← valueFor_eq_iff]
  constructor
  · rintro rfl
    refine ⟨by simp, fun e he => ?_⟩
    obtain ⟨f, -, rfl⟩ := List.mem_map.1 he
    rfl
  · rintro ⟨hnames, hvalues⟩
    calc entries
        = entries.map fun e => (e.1, valueFor calls e.1) := by
          rw [List.map_congr_left fun e he => by rw [hvalues e he], List.map_id']
      _ = (entries.map (·.1)).map fun n => (n, valueFor calls n) := by simp
      _ = fields.map fun f => (f.1, valueFor calls f.1) := by
          rw [hnames]
          simp

/-- A record that calls on a builder for its schema come to. -/
def Built (r : Record) : Prop :=
  ∃ given, build r.schema given = .ok r

theorem Built.get?_of_repeats {r : Record} (h : r.Built) {name : String}
    (hname : r.schema.Repeats name) : r.get? name = some .null := by
  obtain ⟨given, hr⟩ := h
  obtain ⟨-, heq⟩ := build_eq_ok_iff.1 hr
  have hentries : r.entries = settledEntries r.schema given := congrArg Record.entries heq
  have hmem : name ∈ r.entries.map (·.1) := by
    rw [hentries, names_settledEntries, List.mem_eraseDups]
    exact hname.mem
  obtain ⟨e, he⟩ := exists_find?_name_iff.2 hmem
  have hvalue := eq_settled_of_mem (hentries ▸ List.mem_of_find?_eq_some he)
  obtain rfl : e.1 = name := by simpa using List.find?_some he
  rw [get?, he, Option.map_some, hvalue, settled, if_pos hname]

theorem settledEntries_eq (h : schema.Distinct) (given : List (String × FieldValue)) :
    settledEntries schema given = schema.fields.map fun f => (f.1, valueFor given f.1) := by
  rw [settledEntries, eraseDups_eq_self h, List.map_map]
  refine List.map_congr_left fun f _ => ?_
  simp [settled, h.not_repeats]

theorem build_eq_ok_iff_leaves (h : schema.Distinct) {r : Record} : build schema calls = .ok r ↔
    (∀ c ∈ calls, c.1 ∈ schema.fields.map (·.1)) ∧ r.schema = schema ∧
      r.entries.map (·.1) = schema.fields.map (·.1) ∧ ∀ e ∈ r.entries, Leaves calls e.1 e.2 := by
  obtain ⟨schema', entries⟩ := r
  rw [build_eq_ok_iff, settledEntries_eq h, Record.mk.injEq, entries_eq_iff]

theorem exists_build_error_iff : (∃ e, build schema calls = .error e) ↔
    ∃ c ∈ calls, c.1 ∉ schema.fields.map (·.1) := by
  simp only [exists_error_iff, build_eq_ok_iff, exists_and_left, exists_eq, and_true, not_forall,
    exists_prop]

/-- The same calls in another order, which for each field is the order they had. -/
def Reordered (calls calls' : List (String × FieldValue)) : Prop :=
  ∀ name, calls.filter (fun c => c.1 = name) = calls'.filter (fun c => c.1 = name)

theorem Reordered.mem_iff (h : Reordered calls calls') (c : String × FieldValue) :
    c ∈ calls ↔ c ∈ calls' := by
  have hmem (l : List (String × FieldValue)) : c ∈ l ↔ c ∈ l.filter (fun d => d.1 = c.1) := by
    simp
  rw [hmem calls, hmem calls', h c.1]

theorem Reordered.valueFor_eq (h : Reordered calls calls') (name : String) :
    valueFor calls name = valueFor calls' name := by
  unfold valueFor
  rw [← List.getLast?_filter, ← List.getLast?_filter, h name]

theorem Reordered.build_eq_ok_iff (h : Reordered calls calls') {r : Record} :
    build schema calls = .ok r ↔ build schema calls' = .ok r := by
  simp only [Record.build_eq_ok_iff, settledEntries, settled, h.mem_iff, h.valueFor_eq]

end Record

/-- A sequence of calls builds a record exactly when every call is for a field of the schema; it
fails with the first name that is none. The record has the fields of the schema in their order,
each with the value of the last call for it or null, and it is the same in whatever order the
calls for different fields are made. -/
theorem RecordBuilder.build_of_calls {name : String} {fields : List (String × Schema)}
    {schema : RecordSchema} (hschema : RecordSchema.ofFields name fields = .ok schema)
    (calls : List (String × FieldValue)) :
    ((∃ e, ((Record.builder schema).setAll calls).build = .error e) ↔
      ∃ c ∈ calls, c.1 ∉ fields.map (·.1)) ∧
    (∀ e, ((Record.builder schema).setAll calls).build = .error e ↔
      First (fun c => c.1 ∈ fields.map (·.1))
        (fun c => c.1 ∉ fields.map (·.1) ∧ e = .unknownField name c.1) calls) ∧
    (∀ r, ((Record.builder schema).setAll calls).build = .ok r ↔
      (∀ c ∈ calls, c.1 ∈ fields.map (·.1)) ∧ r.schema = schema ∧
        r.entries.map (·.1) = fields.map (·.1) ∧ ∀ e ∈ r.entries, Record.Leaves calls e.1 e.2) ∧
    ∀ calls', Record.Reordered calls calls' → ∀ r,
      ((Record.builder schema).setAll calls).build = .ok r ↔
        ((Record.builder schema).setAll calls').build = .ok r := by
  obtain ⟨rfl, hdistinct⟩ := RecordSchema.ofFields_eq_ok_iff.1 hschema
  exact ⟨Record.exists_build_error_iff, fun _ => Record.build_eq_error_iff,
    fun _ => Record.build_eq_ok_iff_leaves hdistinct, fun _ h _ => h.build_eq_ok_iff⟩

namespace Sample

def ticketSchema : RecordSchema :=
  ⟨"Ticket", [("type", .string), ("uid", .string), ("seat", .nullable .int), ("gate", .string)]⟩

def ticketCalls : List (String × FieldValue) :=
  [("type", .string "Ticket"), ("uid", .string "t0"), ("uid", .string "t1"), ("seat", .int 7)]

def ticketReordered : List (String × FieldValue) :=
  [("seat", .int 7), ("uid", .string "t0"), ("type", .string "Ticket"), ("uid", .string "t1")]

def ticket : Record :=
  ⟨ticketSchema,
    [("type", .string "Ticket"), ("uid", .string "t1"), ("seat", .int 7), ("gate", .null)]⟩

theorem ticketCalls_reordered : Record.Reordered ticketCalls ticketReordered := by
  intro name
  by_cases htype : "type" = name
  · simp [ticketCalls, ticketReordered, ← htype]
  by_cases huid : "uid" = name
  · simp [ticketCalls, ticketReordered, ← huid]
  · simp [ticketCalls, ticketReordered, List.filter_cons, htype, huid]

end Sample

theorem build_of_calls_ticket :
    RecordSchema.ofFields "Ticket" Sample.ticketSchema.fields = .ok Sample.ticketSchema ∧
    ((Record.builder Sample.ticketSchema).setAll Sample.ticketCalls).build = .ok Sample.ticket ∧
    ((Record.builder Sample.ticketSchema).setAll Sample.ticketReordered).build =
      .ok Sample.ticket ∧
    ((Record.builder Sample.ticketSchema).setAll
      (Sample.ticketCalls ++ [("row", .int 3), ("class", .null)])).build =
        .error (.unknownField "Ticket" "row") := by
  have hschema :
      RecordSchema.ofFields "Ticket" Sample.ticketSchema.fields = .ok Sample.ticketSchema := rfl
  have hticket :
      ((Record.builder Sample.ticketSchema).setAll Sample.ticketCalls).build =
        .ok Sample.ticket := rfl
  refine ⟨hschema, hticket, ?_, ?_⟩
  · exact ((RecordBuilder.build_of_calls hschema _).2.2.2 _ Sample.ticketCalls_reordered _).1
      hticket
  · refine ((RecordBuilder.build_of_calls hschema _).2.1 _).2
      ⟨Sample.ticketCalls, _, _, rfl, ?_, ?_, rfl⟩ <;>
    simp [Sample.ticketCalls, Sample.ticketSchema]

end RecordGraph
