import RecordGraph.Proofs.FailedUpsert
import RecordGraph.Proofs.SuccessfulUpsert

/-!
The two branches of an upsert side by side. A create writes what its null policy says, an
update clears null and the empty string alike. So the node that is made and the node that
is updated have the same value in every field, except that a create which leaves out nulls
keeps an empty string, and the next upsert of the same record takes it away.
-/

namespace RecordGraph

open Dialect

theorem FieldValue.isBlank_iff {v : FieldValue} :
    v.isBlank = true ↔ v.isNull = true ∨ v = .string "" := by
  cases v <;> simp [isBlank, isNull]

theorem Record.Holds.eq {r : Record} {name : String} {v w : FieldValue} (hv : r.Holds name v)
    (hw : r.Holds name w) : v = w := by
  obtain ⟨_, _, -, -, -, hv⟩ := hv
  obtain ⟨_, _, -, -, -, hw⟩ := hw
  exact Option.some.inj (hv.symm.trans hw)

namespace CompilerSettings

variable {s : CompilerSettings} {record : Record} {g : Store} {identity : Identity}
  {layout : Layout} {bound : List Layout.Bound}

theorem Creates.property?_createdNode (h : s.Creates record identity layout bound)
    (hrecord : record.schema.Distinct)
    (hwritten : ∀ e ∈ s.createdEntries record, e.2.isNull = false) {name : String}
    {v : FieldValue} (hv : record.Holds name v) (hlabel : name ≠ s.labelField) :
    (s.createdNode g record).property? name = s.createNulls.written? v := by
  refine Option.ext fun value => ?_
  rw [property?_createdNode_iff hrecord hwritten, h.mem_createdEntries_iff]
  constructor
  · rintro ⟨w, hw, -, hvalue⟩
    exact hv.eq hw ▸ hvalue
  · exact fun hvalue => ⟨v, hv, hlabel, hvalue⟩

theorem Creates.property?_assign_eq_iff (h : s.Creates record identity layout bound)
    (hrecord : record.schema.Distinct)
    (hwritten : ∀ e ∈ s.createdEntries record, e.2.isNull = false) (g : Store) (m : Node)
    {name : String} {v : FieldValue} (hv : s.Updates record name v) :
    (s.createdNode g record).property? name =
      (m.assign (s.updatedEntries record)).property? name ↔ v ≠ .string "" := by
  have hentry := (mem_updatedEntries (e := (name, if v.isBlank then .null else v.stored))
    h.classified h.binds).2 ⟨v, hv, rfl⟩
  have hnull := hv.1.isNull_stored h.classified h.binds
  have hwrites : ∀ w, s.createNulls.written? v = some w → w.isNull = false := fun w hw =>
    hwritten (name, w) (h.mem_createdEntries_iff.2 ⟨v, hv.1, hv.2.1, hw⟩)
  have hkeys : ((s.updatedEntries record).map (·.1)).Nodup := NullPolicy.nodup_entries hrecord _ _
  have hassigned := Node.property?_assign_of_mem m hkeys hentry
  rw [h.property?_createdNode hrecord hwritten hv.1 hv.2.1, hassigned]
  cases hblank : v.isBlank with
  | false =>
    have hvisible := mt FieldValue.isBlank_iff.2 (Bool.eq_false_iff.1 hblank)
    simp only [not_or, Bool.not_eq_true] at hvisible
    obtain ⟨hvalue, hne⟩ := hvisible
    cases hnulls : s.createNulls <;>
      simp [NullPolicy.written?, hblank, hvalue, hnull, hne]
  | true =>
    cases hnulls : s.createNulls with
    | writeNull =>
      -- A blank field would have been written as null, and the merge would have failed.
      have hfalse := hwrites .null (by simp [hnulls, NullPolicy.written?, hblank])
      simp [PropertyValue.isNull] at hfalse
    | dropNull =>
      rcases FieldValue.isBlank_iff.1 hblank with hvalue | rfl
      · have hne : v ≠ .string "" := by
          rintro rfl
          simp [FieldValue.isNull] at hvalue
        simp [NullPolicy.written?, hvalue, hne, PropertyValue.isNull]
      · simp [NullPolicy.written?, FieldValue.isNull, PropertyValue.isNull]

theorem Creates.properties_assign_eq_iff (h : s.Creates record identity layout bound)
    (hrecord : record.schema.Distinct)
    (hwritten : ∀ e ∈ s.createdEntries record, e.2.isNull = false) (g : Store) :
    ((s.createdNode g record).assign (s.updatedEntries record)).properties =
      (s.createdNode g record).properties ↔
        ∀ name v, s.Updates record name v → v ≠ .string "" := by
  have hfield : ∀ name v, s.Updates record name v →
      ((s.createdNode g record).property? name =
        ((s.createdNode g record).assign (s.updatedEntries record)).property? name ↔
          v ≠ .string "") := fun _ _ hv =>
    h.property?_assign_eq_iff hrecord hwritten g (s.createdNode g record) hv
  constructor
  · intro heq name v hv
    exact (hfield name v hv).1 (congrArg (Dict.get? · name) heq).symm
  · intro hne
    refine Dict.eq_of_get? fun name => ?_
    by_cases hname : ∃ v, s.Updates record name v
    · obtain ⟨v, hv⟩ := hname
      exact ((hfield name v hv).2 (hne name v hv)).symm
    · refine Node.property?_assign_of_notMem (s.createdNode g record) fun e he heq => ?_
      obtain ⟨v, hv, -⟩ := (mem_updatedEntries h.classified h.binds).1 he
      exact hname ⟨v, heq ▸ hv⟩

/-- The node that one graph has made and the node that another has updated agree on a field
exactly when it is not the empty string; and the next upsert of the record leaves the made node's
properties as they are exactly when no field is. -/
theorem created_eq_updated_iff (hs : s.escape = .cypher) (hfields : s.labelField ≠ s.keyField)
    (hr : record.Valid) {g₀ g₁ : Store} (hg₀ : g₀.WellFormed) (hg₁ : g₁.WellFormed)
    {relations : List Relation} {n₀ n₁ : GraphNode} {session₀ session₁ : MemorySession}
    (hcreated : s.upsert (⟨g₀, false⟩ : MemorySession) record relations =
      (.ok (.created n₀), session₀))
    (hupdated : s.upsert (⟨g₁, false⟩ : MemorySession) record relations =
      (.ok (.updated n₁), session₁)) :
    (∀ name v, s.Updates record name v →
      (n₀.property? name = n₁.property? name ↔ v ≠ .string "")) ∧
    ∀ n₂ session₂, s.upsert session₀ record relations = (.ok (.updated n₂), session₂) →
      (n₂.properties = n₀.properties ↔ ∀ name v, s.Updates record name v → v ≠ .string "") := by
  have hmade := made_of_upsert hs hfields hr hg₀ hcreated
  obtain ⟨c, hcreate⟩ := hmade.compiled
  obtain ⟨identity, layout, bound, hcreates⟩ := creates_of_compileCreate hcreate
  obtain rfl := hmade.node
  constructor
  · intro name v hv
    obtain ⟨m, -, rfl⟩ := found_of_upsert hs hg₁ hr.distinct hupdated
    exact hcreates.property?_assign_eq_iff hr.distinct hmade.written g₀ m hv
  · intro n₂ session₂ hagain
    have hwell := hg₀.steps ((s.createStatement record relations).changes_run g₀)
    rw [hmade.session] at hagain
    obtain ⟨m, hm, rfl⟩ := found_of_upsert hs hwell hr.distinct hagain
    have hmem := hmade.mem_matching hfields hr
    rw [hm, List.mem_singleton] at hmem
    subst hmem
    exact hcreates.properties_assign_eq_iff hr.distinct hmade.written g₀

end CompilerSettings

namespace Sample

def shown (labels : List String) (more : List (String × PropertyValue)) : GraphNode :=
  ⟨"0", labels, Dict.ofList (("uid", .string "7") :: more)⟩

def renamed : Store :=
  (Dialect.execute "MERGE (m:captain \x7buid:'7',name:'Bob'\x7d) RETURN m" Store.empty).2

theorem valid_named (name : String) : (named name).Valid := by
  refine ⟨?_, rfl⟩
  change (["type", "uid", "name"] : List String).Nodup
  decide

theorem updates_named {name field : String} {v : FieldValue} :
    CompilerSettings.default.Updates (named name) field v ↔ field = "name" ∧ v = .string name := by
  constructor
  · rintro ⟨⟨schema, shape, hmem, -, -, hget⟩, hlabel, hkey⟩
    simp only [named, List.mem_cons, Prod.mk.injEq, List.not_mem_nil, or_false] at hmem
    rcases hmem with ⟨rfl, -⟩ | ⟨rfl, -⟩ | ⟨rfl, -⟩
    · exact absurd rfl hlabel
    · exact absurd rfl hkey
    · exact ⟨rfl, (Option.some.inj hget).symm⟩
  · rintro ⟨rfl, rfl⟩
    exact ⟨⟨.string, ⟨.scalar .string, false, false⟩, by simp [named], rfl, rfl, rfl⟩,
      by decide, by decide⟩

end Sample

theorem created_eq_updated_named : ∃ n₀ n₁ n₂ session₀ session₁ session₂,
    CompilerSettings.default.upsert (⟨Store.empty, false⟩ : MemorySession) (Sample.named "Ann") [] =
      (.ok (.created n₀), session₀) ∧
    CompilerSettings.default.upsert (⟨Sample.renamed, false⟩ : MemorySession)
      (Sample.named "Ann") [] = (.ok (.updated n₁), session₁) ∧
    CompilerSettings.default.upsert session₀ (Sample.named "Ann") [] =
      (.ok (.updated n₂), session₂) ∧
    n₀.property? "name" = n₁.property? "name" ∧ n₂.properties = n₀.properties := by
  have hcreated : (CompilerSettings.default.upsert (⟨Store.empty, false⟩ : MemorySession)
      (Sample.named "Ann") []).1.toOption =
        some (.created (Sample.shown ["person"] [("name", .string "Ann")])) := by
    decide +kernel
  have hupdated : (CompilerSettings.default.upsert (⟨Sample.renamed, false⟩ : MemorySession)
      (Sample.named "Ann") []).1.toOption =
        some (.updated (Sample.shown ["captain"] [("name", .string "Ann")])) := by
    decide +kernel
  have hagain : (CompilerSettings.default.upsert (CompilerSettings.default.upsert
      (⟨Store.empty, false⟩ : MemorySession) (Sample.named "Ann") []).2
      (Sample.named "Ann") []).1.toOption =
        some (.updated (Sample.shown ["person"] [("name", .string "Ann")])) := by
    decide +kernel
  have hnonempty : ∀ field v, CompilerSettings.default.Updates (Sample.named "Ann") field v →
      v ≠ .string "" := by
    intro field v hv
    obtain ⟨-, rfl⟩ := Sample.updates_named.1 hv
    simp
  obtain ⟨hfield, hsecond⟩ := CompilerSettings.created_eq_updated_iff rfl (by decide)
    (Sample.valid_named "Ann") (Store.Reachable.empty).wellFormed
    (Store.Reachable.empty.execute _).wellFormed (eq_ok_of_toOption hcreated)
    (eq_ok_of_toOption hupdated)
  exact ⟨_, _, _, _, _, _, eq_ok_of_toOption hcreated, eq_ok_of_toOption hupdated,
    eq_ok_of_toOption hagain, (hfield _ _ (Sample.updates_named.2 ⟨rfl, rfl⟩)).2 (by simp),
    (hsecond _ _ (eq_ok_of_toOption hagain)).2 hnonempty⟩

/-- An empty name is written by the create and cleared by the next upsert of the same record. -/
theorem created_ne_updated_unnamed : CompilerSettings.default.validate = .ok () ∧
    CompilerSettings.default.escape = .cypher ∧
    CompilerSettings.default.labelField ≠ CompilerSettings.default.keyField ∧
    (Sample.named "").Valid ∧
    CompilerSettings.default.Updates (Sample.named "") "name" (.string "") ∧
    (CompilerSettings.default.upsert (⟨Store.empty, false⟩ : MemorySession)
      (Sample.named "") []).1.toOption =
        some (.created (Sample.shown ["person"] [("name", .string "")])) ∧
    (CompilerSettings.default.upsert (CompilerSettings.default.upsert
      (⟨Store.empty, false⟩ : MemorySession) (Sample.named "") []).2
      (Sample.named "") []).1.toOption =
        some (.updated (Sample.shown ["person"] [])) := by
  exact ⟨rfl, rfl, by decide, Sample.valid_named "", Sample.updates_named.2 ⟨rfl, rfl⟩,
    by decide +kernel, by decide +kernel⟩

end RecordGraph
