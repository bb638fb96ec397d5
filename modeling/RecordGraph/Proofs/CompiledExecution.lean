import RecordGraph.Proofs.MissingNode
import RecordGraph.Proofs.Scoping

/-!
Execution of compiled statements. They bind every alias once and before its use, so
none of them fails, except a create statement that would merge a node with a null in it:
where nulls are written, that is a record with a blank property, and the statement stops
at the first such name before anything has changed.
-/

namespace RecordGraph

open Dialect

namespace CompilerSettings

variable {s : CompilerSettings} {record : Record}

/-- A property other than the label that is null or the empty string. -/
def BlankProperty (s : CompilerSettings) (record : Record) (name : String) : Prop :=
  name ≠ s.labelField ∧ ∃ v, record.Holds name v ∧ v.isBlank = true

/-! Statements in scope -/

theorem scoped_updateStatement (s : CompilerSettings) (record : Record) (key : PropertyValue) :
    (s.updateStatement record key).Scoped := by
  refine ⟨⟨trivial, clausesScoped_of_forall fun c hc wider hwider => ?_⟩, by
    simp [updateStatement, Clause.binds?, keyPattern]⟩
  obtain ⟨e, -, rfl⟩ := List.mem_map.1 hc
  exact hwider (List.mem_singleton_self _)

theorem scoped_createStatement (hvalid : s.validate = .ok ()) (relations : List Relation)
    (hnull : ∀ e ∈ (s.createdPattern record).properties.entries, e.2.isNull = false) :
    (s.createStatement record relations).Scoped := by
  have hmatches : (record.related.map s.matchClauseOf).filterMap Clause.binds? =
      record.related.map (·.node) := by
    rw [List.filterMap_map, ← List.filterMap_eq_map]
    rfl
  have hfresh : s.nodeAlias ∉ record.related.map (·.node) := by
    intro hmem
    obtain ⟨x, hx, heq⟩ := List.mem_map.1 hmem
    exact node_ne_of_validate hvalid x hx heq
  constructor
  · rw [createStatement, clausesScoped_append, hmatches]
    refine ⟨clausesScoped_of_forall fun c hc _ _ => ?_, ⟨hfresh, hnull⟩,
      clausesScoped_of_forall fun c hc wider hwider => ?_⟩
    · obtain ⟨x, -, rfl⟩ := List.mem_map.1 hc
      trivial
    · obtain ⟨p, hp, rfl⟩ := List.mem_map.1 hc
      obtain ⟨r, -, hp⟩ := List.mem_flatMap.1 hp
      obtain ⟨x, hx, rfl⟩ := List.mem_map.1 hp
      have hnode := List.mem_map_of_mem (f := (·.node)) (List.mem_filter.1 hx).1
      exact ⟨hwider (List.mem_append_right _ (List.mem_singleton_self _)),
        hwider (List.mem_append_left _ hnode)⟩
  · simp [createStatement, createdPattern, Clause.binds?]

/-! Nulls in a created node -/

theorem Creates.null_createdPattern_iff {identity : Identity} {layout : Layout}
    {bound : List Layout.Bound} (h : s.Creates record identity layout bound)
    (hrecord : record.schema.Distinct) (name : String) :
    (∃ v, (name, v) ∈ (s.createdPattern record).properties.entries ∧ v.isNull = true) ↔
      s.createNulls = .writeNull ∧ s.BlankProperty record name := by
  have hentries : ∀ e, e ∈ (s.createdPattern record).properties.entries ↔
      e ∈ s.createdEntries record := fun _ =>
    Dict.mem_entries_ofList (s.nodup_createdEntries hrecord)
  simp only [hentries, h.mem_createdEntries_iff, BlankProperty]
  constructor
  · rintro ⟨w, ⟨v, hholds, hlabel, hw⟩, hnull⟩
    have hentry : (name, w) ∈ s.createdEntries record :=
      h.mem_createdEntries_iff.2 ⟨v, hholds, hlabel, hw⟩
    cases hnulls : s.createNulls with
    | dropNull => exact absurd (h.written_of_dropNull hnulls _ hentry) (by simp [hnull])
    | writeNull =>
      refine ⟨rfl, hlabel, v, hholds, ?_⟩
      by_contra hblank
      have hstored : v.stored = w := by simpa [hnulls, NullPolicy.written?, hblank] using hw
      rw [← hstored, hholds.isNull_stored h.classified h.binds] at hnull
      exact hblank (isBlank_of_isNull hnull)
  · rintro ⟨hnulls, hlabel, v, hholds, hblank⟩
    exact ⟨.null, ⟨v, hholds, hlabel, by simp [hnulls, NullPolicy.written?, hblank]⟩, rfl⟩

theorem run_createStatement_null {relations : List Relation} {e : String × PropertyValue}
    (h : (s.createdPattern record).properties.entries.find? (fun e => e.2.isNull) = some e)
    (g : Store) :
    (s.createStatement record relations).run g = (.error (.nullInMerge e.1), ⟨g, .zero⟩) := by
  rw [Statement.run, runClauses_createStatement]
  simp only [runClauses, Clause.run, mergePattern, h]

/-! Execution -/

section Execution

variable {g : Store} {relations : List Relation} {c : CompiledStatement}

theorem execute_update_ok (hs : s.escape = .cypher) (hg : g.WellFormed) {identity : Identity}
    (hidentity : s.identityOf record = .ok identity)
    (h : s.compileUpdate record identity = .ok c) :
    ∃ nodes, (execute c.text g).1 = .ok nodes := by
  rw [execute_of_parse (parse_compileUpdate hs hidentity h)]
  exact (s.scoped_updateStatement record _).run hg

theorem execute_create_ok (hs : s.escape = .cypher) (hg : g.WellFormed)
    (hrecord : record.schema.Distinct) (h : s.compileCreate record relations = .ok c)
    (hblank : ¬(s.createNulls = .writeNull ∧ ∃ name, s.BlankProperty record name)) :
    ∃ nodes, (execute c.text g).1 = .ok nodes := by
  obtain ⟨identity, layout, bound, hcreates⟩ := creates_of_compileCreate h
  have hwritten : ∀ e ∈ (s.createdPattern record).properties.entries, e.2.isNull = false := by
    intro e he
    by_contra hnull
    obtain ⟨hnulls, hname⟩ :=
      (hcreates.null_createdPattern_iff hrecord e.1).1 ⟨e.2, he, by simpa using hnull⟩
    exact hblank ⟨hnulls, e.1, hname⟩
  rw [execute_compileCreate hs hrecord h]
  exact (scoped_createStatement hcreates.valid relations hwritten).run hg

theorem execute_create_blank (hs : s.escape = .cypher) (hrecord : record.schema.Distinct)
    (h : s.compileCreate record relations = .ok c) (hnulls : s.createNulls = .writeNull)
    (hblank : ∃ name, s.BlankProperty record name) (g : Store) :
    ∃ name, s.BlankProperty record name ∧
      (∀ other, s.BlankProperty record other → name ≤ other) ∧
      execute c.text g = (.error (.nullInMerge name), g) := by
  obtain ⟨identity, layout, bound, hcreates⟩ := creates_of_compileCreate h
  have hnull := hcreates.null_createdPattern_iff hrecord
  -- Entries stand in key order, so the first null that stops the merge has the least name.
  have hfound : ((s.createdPattern record).properties.entries.find?
      (fun e => e.2.isNull)).isSome = true := by
    obtain ⟨name, hname⟩ := hblank
    obtain ⟨v, hv, hisNull⟩ := (hnull name).2 ⟨hnulls, hname⟩
    exact List.find?_isSome.2 ⟨(name, v), hv, hisNull⟩
  obtain ⟨e, hfind⟩ := Option.isSome_iff_exists.1 hfound
  have hisNull : e.2.isNull = true := by simpa using List.find?_some hfind
  refine ⟨e.1, ((hnull e.1).1 ⟨e.2, List.mem_of_find?_eq_some hfind, hisNull⟩).2,
    fun other hother => ?_, ?_⟩
  · obtain ⟨v, hv, hother⟩ := (hnull other).2 ⟨hnulls, hother⟩
    exact Dict.le_of_find? _ hfind hv hother
  · rw [execute_compileCreate hs hrecord h, run_createStatement_null hfind]

end Execution

/-- Compiled statements run to their end on every reachable store, except creates under the policy
that writes nulls of records with a blank property: these name the least one and change nothing. -/
theorem execute_compiled (s : CompilerSettings) (hs : s.escape = .cypher) {g : Store} (hg : g.Reachable) :
    (∀ record identity c, s.identityOf record = .ok identity →
      s.compileUpdate record identity = .ok c → ∃ nodes, (execute c.text g).1 = .ok nodes) ∧
    (∀ identity c, s.compileLookup identity = .ok c → ∃ nodes, (execute c.text g).1 = .ok nodes) ∧
    ∀ record relations c, record.schema.Distinct → s.compileCreate record relations = .ok c →
      ((s.createNulls = .writeNull ∧ ∃ name, s.BlankProperty record name) →
        ∃ name, s.BlankProperty record name ∧
          (∀ other, s.BlankProperty record other → name ≤ other) ∧
          execute c.text g = (.error (.nullInMerge name), g)) ∧
      (¬(s.createNulls = .writeNull ∧ ∃ name, s.BlankProperty record name) →
        ∃ nodes, (execute c.text g).1 = .ok nodes) := by
  refine ⟨fun record identity c hidentity h => execute_update_ok hs hg.wellFormed hidentity h,
    fun identity c h => ⟨_, congrArg Prod.fst (execute_lookup hs hg.wellFormed h)⟩,
    fun record relations c hrecord h => ⟨?_, execute_create_ok hs hg.wellFormed hrecord h⟩⟩
  rintro ⟨hnulls, hblank⟩
  exact execute_create_blank hs hrecord h hnulls hblank g

end CompilerSettings

namespace Sample

def nullWriting : CompilerSettings :=
  ⟨"type", "uid", "m", .cypher, .writeNull⟩

def note : Record :=
  ⟨⟨"Note", [("type", .string), ("uid", .string), ("title", .nullable .string),
      ("author", .string)]⟩,
    [("type", .string "Note"), ("uid", .string "n1"), ("title", .null), ("author", .string "")]⟩

theorem blankProperty_note {name : String} :
    nullWriting.BlankProperty note name ↔ name = "title" ∨ name = "author" := by
  constructor
  · rintro ⟨hlabel, v, ⟨schema, shape, hmem, -, -, hget⟩, hblank⟩
    simp only [note, List.mem_cons, Prod.mk.injEq, List.not_mem_nil, or_false] at hmem
    rcases hmem with ⟨rfl, -⟩ | ⟨rfl, -⟩ | ⟨rfl, -⟩ | ⟨rfl, -⟩
    · exact absurd rfl hlabel
    · obtain rfl : FieldValue.string "n1" = v := Option.some.inj hget
      exact absurd hblank (by decide)
    · exact .inl rfl
    · exact .inr rfl
  · rintro (rfl | rfl)
    · exact ⟨by decide, .null, ⟨.nullable .string, ⟨.scalar .string, true, false⟩, by simp [note],
        rfl, rfl, rfl⟩, rfl⟩
    · exact ⟨by decide, .string "", ⟨.string, ⟨.scalar .string, false, false⟩, by simp [note],
        rfl, rfl, rfl⟩, rfl⟩

end Sample

theorem execute_compiled_note : ∃ c refused updated found,
    CompilerSettings.default.compileCreate Sample.note [] = .ok c ∧
    (∃ nodes, (execute c.text Store.empty).1 = .ok nodes) ∧
    Sample.nullWriting.compileCreate Sample.note [] = .ok refused ∧
    execute refused.text (execute c.text Store.empty).2 =
      (.error (.nullInMerge "author"), (execute c.text Store.empty).2) ∧
    Sample.nullWriting.compileUpdate Sample.note ⟨"note", "uid", .string "n1"⟩ = .ok updated ∧
    (∃ nodes, (execute updated.text (execute c.text Store.empty).2).1 = .ok nodes) ∧
    Sample.nullWriting.compileLookup ⟨"note", "uid", .string "n1"⟩ = .ok found ∧
    ∃ nodes, (execute found.text (execute c.text Store.empty).2).1 = .ok nodes := by
  have hdistinct : Sample.note.schema.Distinct := by
    unfold RecordSchema.Distinct
    decide
  obtain ⟨c, hc⟩ : ∃ c, CompilerSettings.default.compileCreate Sample.note [] = .ok c := ⟨_, rfl⟩
  obtain ⟨refused, hrefused⟩ : ∃ c, Sample.nullWriting.compileCreate Sample.note [] = .ok c :=
    ⟨_, rfl⟩
  obtain ⟨-, -, hcreate⟩ := CompilerSettings.default.execute_compiled rfl Store.Reachable.empty
  have hcreated := (hcreate Sample.note [] c hdistinct hc).2 fun h => absurd h.1 (by decide)
  obtain ⟨hupdate, hlookup, hcreate⟩ :=
    Sample.nullWriting.execute_compiled rfl (Store.Reachable.empty.execute c.text)
  obtain ⟨name, hname, hleast, herror⟩ := (hcreate Sample.note [] refused hdistinct hrefused).1
    ⟨rfl, "title", Sample.blankProperty_note.2 (.inl rfl)⟩
  obtain rfl : name = "author" := by
    have hle := hleast "author" (Sample.blankProperty_note.2 (.inr rfl))
    rcases Sample.blankProperty_note.1 hname with rfl | rfl
    · exact absurd hle (by decide)
    · rfl
  exact ⟨c, refused, _, _, hc, hcreated, hrefused, herror, rfl, hupdate Sample.note _ _ rfl rfl, rfl,
    hlookup ⟨"note", "uid", .string "n1"⟩ _ rfl⟩

end RecordGraph
