import RecordGraph.Proofs.UpdateStatement

/-!
Statements that match by key, read back as their schema describes them. An update sets
one property for each field of the schema that is neither structural nor label nor key, in
schema order; a lookup for any value that has a literal is one match and changes nothing.
-/

namespace RecordGraph

open Dialect Statement

mutual

/-- Values with a literal: no record and no number that is not finite stands in them. -/
def FieldValue.isWritable : FieldValue → Bool
  | .float x => x.isFinite
  | .double x => x.isFinite
  | .array items => isWritableAll items
  | .record _ _ => false
  | _ => true

def FieldValue.isWritableAll : List FieldValue → Bool
  | [] => true
  | v :: rest => v.isWritable && isWritableAll rest

end

namespace Statement

mutual

theorem literal_ok_iff (escape : Escape) : (v : FieldValue) →
    ((∃ t, literal escape v = .ok t) ↔ v.isWritable = true)
  | .float x => by simpa only [literal, FieldValue.isWritable] using floatLiteral_ok_iff x
  | .double x => by simpa only [literal, FieldValue.isWritable] using floatLiteral_ok_iff x
  | .array items => by
    rw [FieldValue.isWritable, ← literals_ok_iff escape items, literal]
    cases literals escape items <;> simp [Except.map]
  | .record _ _ => by simp [literal, FieldValue.isWritable]
  | .null | .boolean _ | .int _ | .long _ | .string _ => by simp [literal, FieldValue.isWritable]

theorem literals_ok_iff (escape : Escape) : (items : List FieldValue) →
    ((∃ ts, literals escape items = .ok ts) ↔ FieldValue.isWritableAll items = true)
  | [] => by simp [literals, FieldValue.isWritableAll]
  | v :: rest => by
    rw [FieldValue.isWritableAll, Bool.and_eq_true, ← literal_ok_iff escape v,
      ← literals_ok_iff escape rest, literals]
    cases literal escape v <;> cases literals escape rest <;>
      simp [bind, Except.bind, pure, Except.pure]

end

end Statement

theorem Layout.bindFields_classifyFields {record : Record} {fields : List (String × Schema)}
    {shapes : List (String × FieldShape)} {bound : List Bound}
    (hshapes : classifyFields fields = .ok shapes) (hbound : bindFields record shapes = .ok bound) :
    List.Forall₂ (fun (b : Bound) (f : String × Schema) => b.name = f.1 ∧
      FieldShape.ofSchema f.2 = .ok b.shape ∧ record.get? f.1 = some b.value) bound fields := by
  induction fields generalizing shapes bound with
  | nil =>
    obtain rfl := Except.ok.inj hshapes
    obtain rfl := Except.ok.inj hbound
    exact .nil
  | cons f rest ih =>
    obtain ⟨name, schema⟩ := f
    simp only [classifyFields, FieldShape.classify, bind_eq_ok, pure_eq_ok,
      mapError_eq_ok] at hshapes
    obtain ⟨shape, hshape, more, hmore, rfl⟩ := hshapes
    unfold bindFields at hbound
    split at hbound
    · simp at hbound
    · rename_i value hvalue
      simp only [bind_eq_ok, pure_eq_ok] at hbound
      obtain ⟨_, -, rest', hrest, rfl⟩ := hbound
      exact .cons ⟨rfl, hshape, hvalue⟩ (ih hmore hrest)

namespace CompilerSettings

variable {s : CompilerSettings} {record : Record}

def assigns (s : CompilerSettings) (field : String × Schema) : Bool :=
  (FieldShape.ofSchema field.2).toOption.any (!·.isStructural) &&
    field.1 != s.labelField && field.1 != s.keyField

def assigned (record : Record) (name : String) : PropertyValue :=
  let value := (record.get? name).getD .null
  if value.isBlank then .null else value.stored

def assignedFields (s : CompilerSettings) (record : Record) : List (String × PropertyValue) :=
  (record.schema.fields.filter s.assigns).map fun f => (f.1, assigned record f.1)

theorem updatedEntries_eq {layout : Layout} {bound : List Layout.Bound}
    (hlayout : Layout.classify record.schema = .ok layout)
    (hbound : layout.bind record = .ok bound) :
    s.updatedEntries record = s.assignedFields record := by
  obtain ⟨shapes, hshapes, rfl⟩ := map_eq_ok.1 hlayout
  have hfields := Layout.bindFields_classifyFields hshapes hbound
  rw [updatedEntries, Record.boundFields_eq hlayout hbound, assignedFields]
  generalize record.schema.fields = fields at hfields
  clear hbound
  induction hfields with
  | nil => rfl
  | @cons b f rest fields hb more ih =>
    obtain ⟨hname, hshape, hvalue⟩ := hb
    have hassigns : s.isProperty false b = s.assigns f := by
      simp [isProperty, assigns, hshape, hname, Except.toOption]
    have hassigned : assigned record f.1 = if b.value.isBlank then .null else b.value.stored := by
      simp [assigned, hvalue]
    rw [List.filter_cons, List.filter_cons, hassigns]
    split
    · rw [List.map_cons, ← ih, hassigned, ← hname]
      rfl
    · exact ih

theorem compileKeyLookup_ok_iff (keyField : String) (value : FieldValue) :
    (∃ c, s.compileKeyLookup keyField value = .ok c) ↔
      value.isBlank = false ∧ value.isWritable = true := by
  rw [compileKeyLookup, ← literal_ok_iff s.escape value, keyLiteral]
  cases hblank : value.isBlank <;> cases hliteral : literal s.escape value <;>
    simp [bind, Except.bind, Except.mapError, pure, Except.pure]

/-- Update and lookup texts are read back as one match by key alone; the update then sets its
fields in schema order, the lookup is read-only. -/
theorem parse_keyStatements (hs : s.escape = .cypher) :
    (∀ record identity c, s.identityOf record = .ok identity →
      s.compileUpdate record identity = .ok c →
      Dialect.parse c.text = .ok
        ⟨.matchNode ⟨s.nodeAlias, [], Dict.ofList [(s.keyField, s.keyOf record)]⟩ ::
          (s.assignedFields record).map fun e => .set ⟨s.nodeAlias, e.1, e.2⟩, s.nodeAlias⟩) ∧
    ∀ keyField value, value.isBlank = false → value.isWritable = true →
      ∃ c st, s.compileKeyLookup keyField value = .ok c ∧ Dialect.parse c.text = .ok st ∧
        st = ⟨[.matchNode ⟨"n", [], Dict.ofList [(keyField, value.stored)]⟩], "n"⟩ ∧
        st.isReadOnly = true := by
  constructor
  · intro record identity c hidentity hupdate
    obtain ⟨layout, bound, hlayout, hbound⟩ := bound_of_compileUpdate hupdate
    rw [parse_compileUpdate hs hidentity hupdate, updateStatement,
      updatedEntries_eq hlayout hbound, keyPattern]
  · intro keyField value hblank hwritable
    obtain ⟨c, hc⟩ := (compileKeyLookup_ok_iff (s := s) keyField value).2 ⟨hblank, hwritable⟩
    exact ⟨c, _, hc, parse_compileKeyLookup hs hc, rfl, rfl⟩

end CompilerSettings

namespace Sample

def words : Record :=
  ⟨⟨"Words", [("type", .string), ("uid", .string), ("SET", .string), ("m.x", .nullable .long),
      ("RETURN m", .array .string), ("lead", .ofRecord personSchema)]⟩,
    [("type", .string "Words"), ("uid", .string "' SET"), ("SET", .string ""), ("m.x", .null),
      ("RETURN m", .array [.string "", .string "SET m.x=1"]), ("lead", person 7)]⟩

end Sample

theorem parse_keyStatements_words :
    (∃ c, CompilerSettings.default.compileUpdate Sample.words ⟨"words", "uid", .string "' SET"⟩ =
        .ok c ∧
      Dialect.parse c.text = .ok
        ⟨[.matchNode ⟨"m", [], Dict.ofList [("uid", .string "' SET")]⟩, .set ⟨"m", "SET", .null⟩,
          .set ⟨"m", "m.x", .null⟩,
          .set ⟨"m", "RETURN m", .list [.string "", .string "SET m.x=1"]⟩], "m"⟩) ∧
    ∃ c, CompilerSettings.default.compileKeyLookup "a`) RETURN n" (.array [.boolean true, .long 3]) =
        .ok c ∧
      Dialect.parse c.text = .ok
        ⟨[.matchNode ⟨"n", [], Dict.ofList [("a`) RETURN n", .list [.boolean true, .integer 3])]⟩],
          "n"⟩ := by
  obtain ⟨hupdate, hlookup⟩ :=
    CompilerSettings.parse_keyStatements (s := CompilerSettings.default) rfl
  obtain ⟨c, st, hcompiled, hparse, rfl, -⟩ := hlookup "a`) RETURN n"
    (.array [.boolean true, .long 3]) rfl rfl
  exact ⟨⟨_, rfl, hupdate Sample.words ⟨"words", "uid", .string "' SET"⟩ _ rfl rfl⟩, c, hcompiled,
    hparse⟩

end RecordGraph
