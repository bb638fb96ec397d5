import RecordGraph.Proofs.BuiltRecords
import RecordGraph.Proofs.RelatedErrors

/-!
Alignment of related records. One pass over the fields of a record counts its related records and
gives each of them an alias, a match under its field and a clause. The three stay in step, whatever
mixture of records, lists and nulls the fields hold.
-/

namespace RecordGraph

def RecordSchema.structuralFields (schema : RecordSchema) : List String :=
  (schema.fields.filter fun f =>
    (FieldShape.ofSchema f.2).toOption.any (·.isStructural)).map (·.1)

namespace Layout

theorem structuralFields_classifyFields {fields : List (String × Schema)}
    {shapes : List (String × FieldShape)} (h : classifyFields fields = .ok shapes) :
    (shapes.filter fun f => f.2.isStructural).map (·.1) =
      (fields.filter fun f =>
        (FieldShape.ofSchema f.2).toOption.any (·.isStructural)).map (·.1) := by
  induction fields generalizing shapes with
  | nil =>
    obtain rfl := Except.ok.inj h
    rfl
  | cons f rest ih =>
    obtain ⟨name, schema⟩ := f
    simp only [classifyFields, FieldShape.classify, bind_eq_ok, pure_eq_ok, mapError_eq_ok] at h
    obtain ⟨shape, hshape, more, hmore, rfl⟩ := h
    cases hstruct : shape.isStructural <;>
      simp [hshape, hstruct, Except.toOption, ih hmore]

theorem structuralFields_eq {schema : RecordSchema} {layout : Layout}
    (hlayout : classify schema = .ok layout) :
    layout.structuralFields = schema.structuralFields := by
  obtain ⟨shapes, hshapes, rfl⟩ := map_eq_ok.1 hlayout
  exact structuralFields_classifyFields hshapes

end Layout

def CompilerSettings.Writes (s : CompilerSettings) (m : Match) (clause : String) : Prop :=
  ∃ literal, Statement.literal s.escape m.identity.keyValue = .ok literal ∧
    clause = Statement.matchKeyClause m.node m.identity.keyField literal

namespace Related

variable {s : CompilerSettings}

/-- The match and the clause of a related record that has a number in the count. -/
structure Numbers (s : CompilerSettings) (found : Match × String) (l : Located × Nat) : Prop where
  node : found.1.node = matchAlias l.2
  identity : s.Identifies found.1.identity l.1.2
  clause : s.Writes found.1 found.2

theorem numbers_matchRecords {next : Nat} {located : List Located} {found : List (Match × String)}
    (h : matchRecords s next located = .ok found) :
    List.Forall₂ (Numbers s) found (located.zipIdx next) := by
  induction located generalizing next found with
  | nil =>
    obtain rfl := Except.ok.inj h
    exact .nil
  | cons l rest ih =>
    simp only [matchRecords, bind_eq_ok, pure_eq_ok, mapError_eq_ok] at h
    obtain ⟨i, hi, literal, hliteral, more, hmore, rfl⟩ := h
    exact .cons ⟨rfl, identifies_of_identify hi, literal, hliteral, rfl⟩ (ih hmore)

theorem numbers_ofBound {next : Nat} {bound : List Layout.Bound} {related : Related}
    (h : ofBound s next bound = .ok related) :
    ∃ found, related.bindings.flatMap (·.2) = found.map (·.1) ∧
      related.clauses = found.map (·.2) ∧
      List.Forall₂ (Numbers s) found
        (((bound.filter (·.shape.isStructural)).flatMap locate).zipIdx next) := by
  induction bound generalizing next related with
  | nil =>
    obtain rfl := Except.ok.inj h
    exact ⟨[], rfl, rfl, .nil⟩
  | cons b rest ih =>
    unfold ofBound at h
    split at h
    · rename_i hstruct
      simp only [bind_eq_ok, pure_eq_ok] at h
      obtain ⟨own, hown, others, hothers, rfl⟩ := h
      obtain ⟨found, hbindings, hclauses, hnumbers⟩ := ih hothers
      rw [length_matchRecords hown] at hnumbers
      refine ⟨own ++ found, by simp [hbindings], by simp [hclauses], ?_⟩
      rw [List.filter_cons_of_pos (by simpa using hstruct), List.flatMap_cons, List.zipIdx_append]
      exact List.rel_append (numbers_matchRecords hown) hnumbers
    · rename_i hstruct
      rw [List.filter_cons_of_neg (by simpa using hstruct)]
      exact ih h

theorem aliases_of_numbers {next : Nat} {located : List Located} {found : List (Match × String)}
    (h : List.Forall₂ (Numbers s) found (located.zipIdx next)) :
    found.map (·.1.node) = (List.range' next found.length).map matchAlias := by
  have hnodes : found.map (·.1.node) = (located.zipIdx next).map fun l => matchAlias l.2 := by
    rw [← List.forall₂_eq_eq_eq, List.forall₂_map_left_iff, List.forall₂_map_right_iff]
    exact h.imp fun _ _ hfound => hfound.node
  have hlength : found.length = located.length := by
    rw [h.length_eq, List.length_zipIdx]
  calc found.map (·.1.node)
      = ((located.zipIdx next).map (·.2)).map matchAlias := by
        rw [hnodes, List.map_map]
        rfl
    _ = (List.range' next found.length).map matchAlias := by
        rw [List.zipIdx_map_snd, hlength]

theorem writes_of_numbers {found : List (Match × String)} {located : List (Located × Nat)}
    (h : List.Forall₂ (Numbers s) found located) :
    List.Forall₂ s.Writes (found.map (·.1)) (found.map (·.2)) := by
  induction h with
  | nil => exact .nil
  | cons hfound _ ih => exact .cons hfound.clause ih

end Related

namespace CompilerSettings

variable {s : CompilerSettings} {record : Record} {related : Related}

theorem length_matches_ofBound {layout : Layout} {bound : List Layout.Bound} {found : Related}
    (hbound : layout.bind record = .ok bound) (h : Related.ofBound s 1 bound = .ok found) :
    (found.bindings.flatMap (·.2)).length =
      (layout.structuralFields.map record.relatedCount).sum := by
  have hcounts := congrArg (List.map Prod.snd) (counts_ofBound hbound h)
  simp only [List.map_map, Function.comp_def] at hcounts
  rw [List.length_flatMap, hcounts]

theorem flatMap_byField (hbuilt : record.Built) {layout : Layout} {bound : List Layout.Bound}
    {found : Related} (hlayout : Layout.classify record.schema = .ok layout)
    (hbound : layout.bind record = .ok bound) (h : Related.ofBound s 1 bound = .ok found) :
    found.byField.bindings.flatMap (·.2) = found.bindings.flatMap (·.2) := by
  refine Slots.flatMap_ofList fun e he hrepeats => List.length_eq_zero_iff.1 ?_
  rw [fields_ofBound hbound h, Layout.structuralFields_eq hlayout] at hrepeats
  have hnull := hbuilt.get?_of_repeats (hrepeats.mono_sublist (List.filter_sublist.map _))
  rw [length_of_mem_ofBound hbound h he, Record.relatedCount, hnull]
  rfl

/-- The related records of a record are bound under its structural fields, each field once and with
as many matches as it holds records. All matches together stand for the related records in schema
order and then index order: they are numbered from one, have the records' identities, and each has
one clause, which matches the identity's key. Matching succeeds exactly if the record binds and each
of its related records binds and has an identity. -/
theorem related_aligned (s : CompilerSettings) (record : Record) :
    (∀ related, s.related record = .ok related →
      related.bindings.map (fun b => (b.1, b.2.length)) =
        record.schema.structuralFields.eraseDups.map
          (fun field => (field, record.relatedCount field)) ∧
      related.clauses.length = (record.schema.structuralFields.map record.relatedCount).sum ∧
      (record.Built →
        related.aliases = (List.range' 1
          (record.schema.structuralFields.map record.relatedCount).sum).map Related.matchAlias ∧
        List.Forall₂
          (fun m l => Identity.ofRecord? s.labelField s.keyField l.2 = some m.identity)
          (related.bindings.flatMap (·.2)) record.located ∧
        List.Forall₂ s.Writes (related.bindings.flatMap (·.2)) related.clauses)) ∧
    ((∃ related, s.related record = .ok related) ↔
      ∃ layout bound, Layout.classify record.schema = .ok layout ∧
        layout.bind record = .ok bound ∧ ∀ l ∈ record.located, s.Addressable l.2) := by
  refine ⟨fun related hrelated => ?_, ?_, ?_⟩
  · obtain ⟨layout, hlayout, -⟩ := bind_eq_ok.1 hrelated
    rw [layoutOf, mapError_eq_ok] at hlayout
    have hbindings := bindings_related hlayout hrelated
    obtain ⟨bound, hbound, found, hfound, rfl⟩ := (related_eq_ok_iff hlayout).1 hrelated
    obtain ⟨numbered, hmatches, hclauses, hnumbers⟩ := Related.numbers_ofBound hfound
    rw [← Record.located_eq hlayout hbound] at hnumbers
    have hcount := length_matches_ofBound hbound hfound
    rw [hmatches, List.length_map] at hcount
    rw [← Layout.structuralFields_eq hlayout]
    refine ⟨hbindings, ?_, fun hbuilt => ?_⟩
    · rw [Related.byField, hclauses, List.length_map, hcount]
    have hall := (flatMap_byField hbuilt hlayout hbound hfound).trans hmatches
    refine ⟨?_, ?_, ?_⟩
    · rw [Related.aliases, hall, List.map_map, ← hcount]
      exact Related.aliases_of_numbers hnumbers
    · rw [hall, List.forall₂_map_left_iff, ← List.zipIdx_map_fst 1 record.located,
        List.forall₂_map_right_iff]
      exact hnumbers.imp fun _ _ hfound => hfound.identity
    · rw [hall, Related.byField, hclauses]
      exact Related.writes_of_numbers hnumbers
  · rintro ⟨related, hrelated⟩
    obtain ⟨layout, hlayout, hrecord⟩ := bind_eq_ok.1 hrelated
    rw [layoutOf, mapError_eq_ok] at hlayout
    obtain ⟨bound, hbound, -⟩ := Related.ofRecord_eq_ok_iff.1 hrecord
    exact ⟨layout, bound, hlayout, hbound,
      (Related.checks_ofRecord hlayout hbound).ok_iff.1 ⟨related, hrecord⟩⟩
  · rintro ⟨layout, bound, hlayout, hbound, hlocated⟩
    rw [related_eq hlayout]
    exact (Related.checks_ofRecord hlayout hbound).ok_iff.2 hlocated

end CompilerSettings

namespace Sample

def orchestra : Record :=
  let person : Schema := .ofRecord singerSchema
  ⟨⟨"Orchestra", [("type", .string), ("uid", .string), ("conductor", person),
      ("soloists", .array person), ("players", .array (.nullable person)),
      ("patron", .nullable person)]⟩,
    [("type", .string "Orchestra"), ("uid", .string "o1"), ("conductor", singer 3),
      ("soloists", .array []), ("players", .array [singer 1, .null, singer 2]), ("patron", .null)]⟩

end Sample

theorem related_aligned_orchestra : Sample.orchestra.Built ∧
    ∃ related, CompilerSettings.default.related Sample.orchestra = .ok related ∧
      related.bindings.map (fun b => (b.1, b.2.length)) =
        [("conductor", 1), ("soloists", 0), ("players", 2), ("patron", 0)] ∧
      related.aliases = ["a1", "a2", "a3"] ∧
      List.Forall₂ CompilerSettings.default.Writes (related.bindings.flatMap (·.2))
        ["MATCH (a1 \x7buid:3\x7d)", "MATCH (a2 \x7buid:1\x7d)", "MATCH (a3 \x7buid:2\x7d)"] := by
  have hbuilt : Sample.orchestra.Built := ⟨Sample.orchestra.entries, rfl⟩
  obtain ⟨related, hrelated, htexts⟩ :
    ∃ related, CompilerSettings.default.related Sample.orchestra = .ok related ∧ related.clauses =
      ["MATCH (a1 \x7buid:3\x7d)", "MATCH (a2 \x7buid:1\x7d)", "MATCH (a3 \x7buid:2\x7d)"] :=
    ⟨_, rfl, by decide +kernel⟩
  obtain ⟨hbindings, -, haligned⟩ :=
    (CompilerSettings.default.related_aligned Sample.orchestra).1 related hrelated
  obtain ⟨haliases, -, hclauses⟩ := haligned hbuilt
  exact ⟨hbuilt, related, hrelated, hbindings, haliases, htexts ▸ hclauses⟩

end RecordGraph
