import RecordGraph.Proofs.HeldErrors

/-!
Errors of related records. Compilation stops at the first related record, in schema order and then
index order, that cannot be matched. Its error names it by its path, with the label or key that it
lacks or with the first of its fields that does not fit. Only a related record whose schema has no
layout goes unnamed: the error then tells a field of that schema and not where the record stands.
-/

namespace RecordGraph

namespace Layout

def Accepts (x : Record) (f : String × FieldShape) : Prop :=
  ∃ v, x.get? f.1 = some v ∧ f.2.checkValue v = .ok ()

def Declines (x : Record) (i : Inconsistency) (f : String × FieldShape) : Prop :=
  f.1 = i.field ∧ (x.get? f.1 = none ∧ i.reason = .missingField ∨
    ∃ v, x.get? f.1 = some v ∧ f.2.checkValue v = .error i.reason)

theorem checks_bindFields (x : Record) (fields : List (String × FieldShape)) :
    Checks (Accepts x) (Declines x) fields (bindFields x fields) := by
  induction fields with
  | nil => exact .ok _ _ _
  | cons f rest ih =>
    obtain ⟨name, shape⟩ := f
    unfold bindFields
    cases hvalue : x.get? name with
    | none =>
      refine .cons_of_fail ?_ fun i => ?_
      · rintro ⟨v, hv, -⟩
        simp [hvalue] at hv
      · obtain ⟨field, reason⟩ := i
        simp [Declines, hvalue, eq_comm]
    | some v =>
      simp only [FieldShape.check]
      cases hcheck : shape.checkValue v with
      | error reason =>
        refine .cons_of_fail ?_ fun i => ?_
        · rintro ⟨v', hv', hok⟩
          obtain rfl := Option.some.inj (hvalue.symm.trans hv')
          simp [hcheck] at hok
        · obtain ⟨field, reason'⟩ := i
          simp [Declines, hvalue, hcheck, eq_comm]
      | ok u =>
        refine .cons_of_pass ⟨v, hvalue, hcheck⟩ (fun i => ?_) (ih.map _)
        rintro ⟨-, ⟨hnone, -⟩ | ⟨v', hv', herror⟩⟩
        · simp [hvalue] at hnone
        · obtain rfl := Option.some.inj (hvalue.symm.trans hv')
          simp [hcheck] at herror

end Layout

namespace CompilerSettings

variable {s : CompilerSettings} {record x : Record} {path : String} {e : CompileError}

/-- An error names the related record at `path`: as one that lacks its label or its key, or by the
first of its fields that does not fit. -/
inductive Names (s : CompilerSettings) (path : String) (x : Record) : CompileError → Prop
  | label (h : Identity.labelOf? s.labelField x = none) :
      Names s path x (.missingIdentity path s.labelField)
  | key (hlabel : (Identity.labelOf? s.labelField x).isSome = true)
      (h : Identity.keyOf? s.keyField x = none) : Names s path x (.missingIdentity path s.keyField)
  | field {layout : Layout} {i : Inconsistency} (hlayout : Layout.classify x.schema = .ok layout)
      (h : First (Layout.Accepts x) (Layout.Declines x i) layout.fields) :
      Names s path x (.inconsistent ⟨path ++ "." ++ i.field, i.reason⟩)

theorem Refuses.not_addressable (h : s.Refuses path x e) : ¬ s.Addressable x := by
  intro haddressable
  obtain ⟨i, hi⟩ := (Related.identify_ok_iff path).2 haddressable
  rw [Related.identify_eq_error_iff.2 h] at hi
  cases hi

theorem Refuses.names (h : s.Refuses path x e) {layout : Layout}
    (hlayout : Layout.classify x.schema = .ok layout) : s.Names path x e := by
  cases h with
  | unclassified herror =>
    rw [hlayout] at herror
    cases herror
  | unfit hlayout h => exact .field hlayout (((Layout.checks_bindFields x _).error_iff _).1 h)
  | unlabelled _ _ h => exact .label h
  | unkeyed _ _ hlabel h => exact .key (by rw [hlabel]; rfl) h

theorem Refuses.eq_of_classify (h : s.Refuses path x e) {i : Inconsistency}
    (herror : Layout.classify x.schema = .error i) : e = .inconsistent i := by
  cases h with
  | unclassified h => rw [Except.error.inj (h.symm.trans herror)]
  | unfit hlayout | unlabelled hlayout | unkeyed hlayout =>
    rw [herror] at hlayout
    cases hlayout

theorem related_eq {layout : Layout} (hlayout : Layout.classify record.schema = .ok layout) :
    s.related record = Related.ofRecord s layout record := by
  rw [related, layoutOf, hlayout]
  rfl

theorem compileCreate_of_related_error {identity : Identity} (hvalid : s.validate = .ok ())
    (hidentity : s.identityOf record = .ok identity) {layout : Layout}
    (hlayout : Layout.classify record.schema = .ok layout) (h : s.related record = .error e)
    (relations : List Relation) : s.compileCreate record relations = .error e := by
  rw [related_eq hlayout] at h
  have hlayoutOf : layoutOf record.schema = .ok layout := mapError_eq_ok.2 hlayout
  simp [compileCreate, bind_eq_error, hvalid, hlayoutOf, hidentity, h]

/-- Where the record itself binds, its related records are matched unless one of them cannot be, and
then the error is that of the first, whose schema decides how it reads: if it has a layout the error
names the record by its path, and otherwise it is the bare error of the schema. A create with valid
settings and an identity of its own ends in the same error. -/
theorem related_errors {layout : Layout} {bound : List Layout.Bound}
    (hlayout : Layout.classify record.schema = .ok layout)
    (hbound : layout.bind record = .ok bound) :
    ((∃ e, s.related record = .error e) ↔ ∃ l ∈ record.located, ¬ s.Addressable l.2) ∧
    ∀ e, s.related record = .error e →
      First (fun l => s.Addressable l.2) (fun l => ¬ s.Addressable l.2 ∧
        ((∃ layout, Layout.classify l.2.schema = .ok layout) → s.Names l.1 l.2 e) ∧
        ∀ i, Layout.classify l.2.schema = .error i → e = .inconsistent i) record.located ∧
      ∀ relations identity, s.validate = .ok () → s.identityOf record = .ok identity →
        s.compileCreate record relations = .error e := by
  have hchecks := Related.checks_ofRecord (s := s) hlayout hbound
  rw [← related_eq hlayout] at hchecks
  refine ⟨?_, fun e he => ⟨?_, fun relations identity hvalid hidentity =>
    compileCreate_of_related_error hvalid hidentity hlayout he relations⟩⟩
  · rw [exists_error_iff, hchecks.ok_iff]
    simp
  · exact ((hchecks.error_iff e).1 he).imp fun l _ h =>
      ⟨h.not_addressable, fun ⟨_, hclassified⟩ => h.names hclassified,
        fun _ herror => h.eq_of_classify herror⟩

end CompilerSettings

namespace Sample

def gala : Record :=
  ⟨reception.schema, [("type", .string "Reception"), ("uid", .string "p2"),
    ("guests", .array [attendee (.long 1), .null, attendee (.boolean true), attendee .null])]⟩

def employee : Record :=
  let organisation : RecordSchema := ⟨"Org", [("type", .string), ("uid", .string), ("tags", .null)]⟩
  ⟨⟨"Employee", [("type", .string), ("uid", .string), ("tags", .string),
      ("company", .ofRecord organisation)]⟩,
    [("type", .string "Employee"), ("uid", .string "e1"), ("tags", .string "vip"),
      ("company", .record organisation [("type", .string "Org"), ("uid", .string "o1"),
        ("tags", .null)])]⟩

end Sample

theorem related_errors_gala :
    (∃ layout bound, Layout.classify Sample.gala.schema = .ok layout ∧
      layout.bind Sample.gala = .ok bound) ∧
    (∃ l ∈ Sample.gala.located, ¬ CompilerSettings.default.Addressable l.2) ∧
    CompilerSettings.default.compileCreate Sample.gala [] =
      .error (.inconsistent ⟨"guests[2].uid", .mismatch (.scalar .long) "boolean"⟩) := by
  obtain ⟨layout, bound, hlayout, hbound⟩ : ∃ layout bound,
      Layout.classify Sample.gala.schema = .ok layout ∧ layout.bind Sample.gala = .ok bound :=
    ⟨_, _, rfl, rfl⟩
  obtain ⟨hfails, herrors⟩ := CompilerSettings.default.related_errors hlayout hbound
  have herror : CompilerSettings.default.related Sample.gala =
      .error (.inconsistent ⟨"guests[2].uid", .mismatch (.scalar .long) "boolean"⟩) := rfl
  exact ⟨⟨layout, bound, hlayout, hbound⟩, hfails.1 ⟨_, herror⟩,
    (herrors _ herror).2 [] _ rfl rfl⟩

theorem unnamed_employee :
    (∃ layout bound, Layout.classify Sample.employee.schema = .ok layout ∧
      layout.bind Sample.employee = .ok bound) ∧
    ∃ e, CompilerSettings.default.related Sample.employee = .error e ∧
      CompilerSettings.default.compileCreate Sample.employee [] = .error e ∧
      ∀ l ∈ Sample.employee.located, (∀ field, e ≠ .missingIdentity l.1 field) ∧
        ∀ field reason, e ≠ .inconsistent ⟨l.1 ++ "." ++ field, reason⟩ := by
  refine ⟨⟨_, _, rfl, rfl⟩, .inconsistent ⟨"tags", .typedNull⟩, rfl, rfl, fun l hl => ?_⟩
  obtain rfl : l = ("company", _) := List.mem_singleton.1 hl
  refine ⟨fun field => by simp, fun field reason h => ?_⟩
  simp only [CompileError.inconsistent.injEq, Inconsistency.mk.injEq] at h
  have hhead := congrArg (fun t => t.toList.head?) h.1
  simp at hhead

end RecordGraph
