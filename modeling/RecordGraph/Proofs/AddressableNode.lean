import RecordGraph.Proofs.BranchAgreement
import RecordGraph.Proofs.RepeatedUpsert

/-!
The key of a new node. A create statement writes the key with the other properties, so the new
node is found by it. Settings that read label and key from one field are valid too, and the
properties leave out the label: then the new node has no key, and nothing finds it.
-/

namespace RecordGraph

open Dialect

namespace Dialect

variable {p : NodePattern}

/-- The second store has only nodes of the first and nodes made from the pattern. -/
def MadeFrom (p : NodePattern) (g g' : Store) : Prop :=
  ∀ n ∈ g'.nodes, n ∈ g.nodes ∨ ∃ id, n = Node.create id p.labels p.properties

theorem MadeFrom.trans {g g' g'' : Store} (h : MadeFrom p g g') (h' : MadeFrom p g' g'') :
    MadeFrom p g g'' := by
  intro n hn
  rcases h' n hn with hn | hmade
  · exact h n hn
  · exact .inr hmade

theorem madeFrom_mergePattern (p : NodePattern) (rows : List Row) (g : Progress) :
    MadeFrom p g.store (mergePattern p rows g).2.store := by
  unfold mergePattern
  split
  · exact fun _ => .inl
  · refine rel_mergeNodeRows (R := MadeFrom p) (fun _ _ => .inl) MadeFrom.trans (fun g n hn => ?_)
      rows g
    rcases nodes_findOrCreate p g with hnodes | hnodes
    · exact .inl (hnodes ▸ hn)
    · rw [hnodes, List.mem_append, List.mem_singleton] at hn
      exact hn.imp_right fun hn => ⟨_, hn⟩

end Dialect

namespace CompilerSettings

variable {s : CompilerSettings} {record : Record} {relations : List Relation} {g : Store}
  {identity : Identity} {layout : Layout} {bound : List Layout.Bound}

theorem Creates.key_createdPattern (h : s.Creates record identity layout bound)
    (hr : record.Valid) :
    (s.createdPattern record).properties.get? s.keyField =
      if s.labelField = s.keyField then none else some (s.keyOf record) := by
  have hkeys := s.nodup_createdEntries hr.distinct
  by_cases hfields : s.labelField = s.keyField
  · rw [if_pos hfields, Option.eq_none_iff_forall_ne_some]
    intro v hv
    rw [createdPattern, Dict.get?_ofList hkeys, h.mem_createdEntries_iff] at hv
    obtain ⟨_, -, hne, -⟩ := hv
    exact hne hfields.symm
  · rw [if_neg hfields, createdPattern, Dict.get?_ofList hkeys]
    exact h.key_mem_createdEntries hr rfl hfields

theorem mergeNode_mem_createStatement {p : NodePattern} :
    Clause.mergeNode p ∈ (s.createStatement record relations).clauses ↔
      p = s.createdPattern record := by
  simp [createStatement, matchClauseOf]

theorem matching_eq_nil_of_madeFrom {p : NodePattern} {g' : Store}
    (hkey : p.properties.get? s.keyField = none) {value : PropertyValue}
    (hmissing : g.matching s.keyField value = []) (hmade : MadeFrom p g g') :
    g'.matching s.keyField value = [] := by
  rw [List.eq_nil_iff_forall_not_mem] at hmissing ⊢
  intro n hn
  obtain ⟨hn, v, hv, hagrees⟩ := Store.mem_matching.1 hn
  rcases hmade n hn with hold | ⟨id, rfl⟩
  · exact hmissing n (Store.mem_matching.2 ⟨hold, v, hv, hagrees⟩)
  · have hentry := (List.mem_filter.1 (Dict.mem_of_get? _ hv)).1
    rw [Dict.get?_of_mem p.properties hentry] at hkey
    exact Option.some_ne_none _ hkey

variable {n : GraphNode} {session : MemorySession}

theorem matching_created (hs : s.escape = .cypher) (hr : record.Valid) (hg : g.WellFormed)
    (hitems : ∀ name items, record.Holds name (.array items) → ∀ v ∈ items, v.isNull = false)
    (h : s.upsert (⟨g, false⟩ : MemorySession) record relations = (.ok (.created n), session)) :
    ∃ g', session = ⟨g', false⟩ ∧ g'.WellFormed ∧
      (g'.matching s.keyField (s.keyOf record)).map GraphNode.ofNode =
        if s.labelField = s.keyField then [] else [n] := by
  obtain ⟨hmissing, c, _, _, hcreate, hrun, -, hsession⟩ |
    ⟨_, -, hupdated, -⟩ := upsert_eq_ok hs hg hr.distinct h
  case inr => exact UpsertOutcome.noConfusion hupdated
  refine ⟨_, hsession, hg.steps ((s.createStatement record relations).changes_run g), ?_⟩
  by_cases hfields : s.labelField = s.keyField
  · obtain ⟨_, _, _, hcreates⟩ := creates_of_compileCreate hcreate
    have hkey := hcreates.key_createdPattern hr
    obtain ⟨rows, g', hmerge, hnodes, -⟩ := run_createStatement_eq_ok hrun
    have hmade := madeFrom_mergePattern (s.createdPattern record) (s.choices g record.related)
      ⟨g, .zero⟩
    rw [hmerge] at hmade
    rw [if_pos hfields] at hkey ⊢
    rw [Store.matching, hnodes, ← Store.matching,
      matching_eq_nil_of_madeFrom hkey hmissing hmade, List.map_nil]
  · have hmade := made_of_upsert hs hfields hr hg h
    obtain ⟨m, hm, -⟩ := (hmade.keeps hs hfields hr hitems hg).found
    have hmem := hmade.mem_matching hfields hr
    rw [hm, List.mem_singleton] at hmem
    rw [if_neg hfields, hm, List.map_singleton, ← hmem, hmade.node]

/-- The create statement merges one node, with the record's key among its properties unless label
and key are read from one field. The node that an upsert has made is then the one that is found
by the record's own key; with one field for both, none is found. -/
theorem created_addressable (hs : s.escape = .cypher) (hr : record.Valid) {c : CompiledStatement}
    (hcreate : s.compileCreate record relations = .ok c) :
    (∃ st p, Dialect.parse c.text = .ok st ∧ (∀ q, .mergeNode q ∈ st.clauses ↔ q = p) ∧
      p.properties.get? s.keyField =
        if s.labelField = s.keyField then none else some (s.keyOf record)) ∧
    ∀ g n session, g.WellFormed →
      (∀ name items, record.Holds name (.array items) → ∀ v ∈ items, v.isNull = false) →
      s.upsert (⟨g, false⟩ : MemorySession) record relations = (.ok (.created n), session) →
      s.findByKey session s.keyField ((record.get? s.keyField).getD .null) =
        (.ok (if s.labelField = s.keyField then none else some n), session) := by
  obtain ⟨identity, layout, bound, hcreates⟩ := creates_of_compileCreate hcreate
  constructor
  · obtain ⟨d, rfl, hdraft, hnode⟩ := holds_compileCreate hs hr.distinct hcreate
    exact ⟨_, _, hdraft.parse hnode, fun _ => mergeNode_mem_createStatement,
      hcreates.key_createdPattern hr⟩
  · intro g n session hg hitems hupsert
    obtain ⟨g', rfl, hg', hmatching⟩ := matching_created hs hr hg hitems hupsert
    obtain ⟨-, -, hget, hkey⟩ := Identity.require_eq_ok hcreates.identified
    obtain ⟨lookup, hlookup⟩ := s.compileKeyLookup_of_isKey s.keyField hkey
    rw [hget, Option.getD_some, findByKey_eq hs hg' hlookup, ← keyOf_eq hcreates.identified,
      hmatching]
    by_cases hfields : s.labelField = s.keyField
    · rw [if_pos hfields, if_pos hfields, singleNode]
    · rw [if_neg hfields, if_neg hfields, singleNode]

end CompilerSettings

namespace Sample

def selfKeyed : CompilerSettings :=
  { CompilerSettings.default with keyField := "type" }

theorem items_named (name : String) : ∀ field items, (named name).Holds field (.array items) →
    ∀ v ∈ items, v.isNull = false := by
  rintro field items ⟨schema, shape, hmem, -, -, hget⟩
  simp only [named, List.mem_cons, Prod.mk.injEq, List.not_mem_nil, or_false] at hmem
  rcases hmem with ⟨rfl, -⟩ | ⟨rfl, -⟩ | ⟨rfl, -⟩
  all_goals exact FieldValue.noConfusion (Option.some.inj hget)

end Sample

theorem created_addressable_named : ∃ c n session,
    CompilerSettings.default.compileCreate (Sample.named "Ann") [] = .ok c ∧
    CompilerSettings.default.upsert (⟨Sample.crew, false⟩ : MemorySession) (Sample.named "Ann") [] =
      (.ok (.created n), session) ∧
    CompilerSettings.default.findByKey session "uid" (.string "7") = (.ok (some n), session) ∧
    ∃ st p, Dialect.parse c.text = .ok st ∧ .mergeNode p ∈ st.clauses ∧
      p.properties.get? "uid" = some (.string "7") := by
  have hcreated : (CompilerSettings.default.upsert (⟨Sample.crew, false⟩ : MemorySession)
      (Sample.named "Ann") []).1.toOption = some (.created ⟨"3", ["person"],
        Dict.ofList [("uid", .string "7"), ("name", .string "Ann")]⟩) := by
    decide +kernel
  obtain ⟨c, hcreate⟩ : ∃ c, CompilerSettings.default.compileCreate (Sample.named "Ann") [] =
    .ok c := ⟨_, rfl⟩
  obtain ⟨⟨st, p, hparse, hmerge, hkey⟩, hfind⟩ :=
    CompilerSettings.created_addressable rfl (Sample.valid_named "Ann") hcreate
  exact ⟨c, _, _, hcreate, eq_ok_of_toOption hcreated,
    hfind Sample.crew _ _ (Store.Reachable.empty.execute _).wellFormed (Sample.items_named "Ann")
      (eq_ok_of_toOption hcreated), st, p, hparse, (hmerge p).2 rfl, hkey⟩

theorem unaddressable_named : Sample.selfKeyed.validate = .ok () ∧
    Sample.selfKeyed.escape = .cypher ∧ (Sample.named "Ann").Valid ∧
    (∃ c, Sample.selfKeyed.compileCreate (Sample.named "Ann") [] = .ok c ∧
      Dialect.parse c.text = .ok ⟨[.mergeNode ⟨"m", ["person"],
        Dict.ofList [("uid", .string "7"), ("name", .string "Ann")]⟩], "m"⟩) ∧
    (Sample.selfKeyed.upsert (⟨Store.empty, false⟩ : MemorySession)
      (Sample.named "Ann") []).1.toOption =
        some (.created (Sample.shown ["person"] [("name", .string "Ann")])) ∧
    (Sample.selfKeyed.findByKey (Sample.selfKeyed.upsert (⟨Store.empty, false⟩ : MemorySession)
      (Sample.named "Ann") []).2 "type" (.string "Person")).1.toOption = some none := by
  exact ⟨rfl, rfl, Sample.valid_named "Ann", ⟨_, rfl, rfl⟩, by decide +kernel, by decide +kernel⟩

end RecordGraph
