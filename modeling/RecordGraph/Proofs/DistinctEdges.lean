import RecordGraph.Proofs.Operations

/-!
Edges made by statements. A merge creates an edge only where it finds none, so no two
edges have the same source, target and type. Rows that a merge has succeeded on stay
joined whatever happens later, and merging on them again, also with the pattern written
from its other end, changes nothing.
-/

namespace RecordGraph

open Dialect

def Edge.triple (e : Edge) : Nat × Nat × String :=
  (e.source, e.target, e.type)

theorem Edge.links_iff (e : Edge) (source target : Nat) (type : String) :
    e.links source target type = true ↔ e.triple = (source, target, type) := by
  simp [links, triple, and_assoc]

namespace Store

def ofExecutions (es : List Execution) : Store :=
  es.foldl execute empty

def DistinctEdges (s : Store) : Prop :=
  (s.edges.map Edge.triple).Nodup

namespace DistinctEdges

variable {s : Store}

theorem mergeEdge {g : Progress} (h : g.store.DistinctEdges) (p : RelationshipPattern)
    (left right : Nat) : (Dialect.mergeEdge p left right g).2.store.DistinctEdges := by
  unfold Dialect.mergeEdge
  rcases p.arrow.orient left right with ⟨source, target⟩
  simp only
  split
  · exact h
  rename_i hnone
  split
  · exact h
  rename_i hcreate
  obtain ⟨-, -, rfl⟩ := createEdge_eq_ok hcreate
  have hnew : (source, target, p.type) ∉ g.store.edges.map Edge.triple := by
    intro hmem
    obtain ⟨e, he, htriple⟩ := List.mem_map.1 hmem
    exact hnone ((isSome_findEdge? _ _ _ _ _).2 (.inl ⟨e, he, (e.links_iff _ _ _).2 htriple⟩))
  rw [DistinctEdges, List.map_append]
  exact List.Nodup.append h (List.nodup_singleton _) (List.disjoint_singleton.2 hnew)

theorem mergeRelationshipRow {g : Progress} (h : g.store.DistinctEdges)
    (p : RelationshipPattern) (row : Row) :
    (Dialect.mergeRelationshipRow p row g).2.store.DistinctEdges := by
  unfold Dialect.mergeRelationshipRow
  split
  · exact h.mergeEdge p _ _
  · exact h
  · exact h

theorem setRow {g : Progress} (h : g.store.DistinctEdges) (a : Assignment) (row : Row) :
    (Dialect.setRow a row g).2.store.DistinctEdges := by
  unfold Dialect.setRow
  split
  · exact h
  split
  · exact h
  rename_i hset
  obtain rfl := setProperty_eq_ok hset
  exact h

theorem findOrCreate {g : Progress} (h : g.store.DistinctEdges) (p : NodePattern) :
    (Dialect.findOrCreate p g).2.store.DistinctEdges := by
  unfold Dialect.findOrCreate
  split <;> exact h

theorem runClause {g : Progress} (h : g.store.DistinctEdges) (c : Clause) (rows : List Row) :
    (c.run rows g).2.store.DistinctEdges := by
  let R (s s' : Store) : Prop := s.DistinctEdges → s'.DistinctEdges
  have hrefl : ∀ s, R s s := fun _ hs => hs
  have htrans : ∀ {s s' s''}, R s s' → R s' s'' → R s s'' := fun h h' hs => h' (h hs)
  cases c with
  | matchNode p => exact h
  | mergeNode p =>
    rw [Clause.run, mergePattern]
    split
    · exact h
    · exact rel_mergeNodeRows (R := R) hrefl htrans (fun _ hg => hg.findOrCreate p) rows g h
  | mergeRelationship p =>
    rw [Clause.run_mergeRelationship]
    exact rel_eachRow (R := R) hrefl htrans (fun row _ hg => hg.mergeRelationshipRow p row) rows g h
  | set a =>
    rw [Clause.run_set]
    exact rel_eachRow (R := R) hrefl htrans (fun row _ hg => hg.setRow a row) rows g h

theorem run (h : s.DistinctEdges) (statement : Dialect.Statement) :
    (statement.run s).2.store.DistinctEdges := by
  have hclauses : (runClauses statement.clauses [[]] ⟨s, .zero⟩).2.store.DistinctEdges :=
    rel_runClauses (R := fun s s' => s.DistinctEdges → s'.DistinctEdges) (fun _ h => h)
      (fun h h' hs => h' (h hs)) (fun c _ rows _ hg => hg.runClause c rows) [[]] ⟨s, .zero⟩ h
  unfold Statement.run
  rcases hresult : runClauses statement.clauses [[]] ⟨s, .zero⟩ with ⟨result, g⟩
  rw [hresult] at hclauses
  cases result <;> exact hclauses

theorem execute (h : s.DistinctEdges) (e : Execution) : (s.execute e).DistinctEdges := by
  cases e with
  | statement statement => exact h.run statement
  | text text =>
    simp only [Store.execute, Dialect.execute]
    split
    · exact h
    · exact h.run _

/-- The run lemma, by induction on the executions from the last one back. -/
theorem ofExecutions (es : List Execution) : (Store.ofExecutions es).DistinctEdges := by
  induction es using List.reverseRecOn with
  | nil => exact List.nodup_nil
  | append_singleton es e ih =>
    rw [Store.ofExecutions, List.foldl_append]
    exact ih.execute e

end DistinctEdges

end Store

namespace Dialect

def Arrow.reverse : Arrow → Arrow
  | leftToRight => rightToLeft
  | rightToLeft => leftToRight
  | undirected => undirected

namespace RelationshipPattern

def reverse (p : RelationshipPattern) : RelationshipPattern :=
  ⟨p.right, p.left, p.type, p.arrow.reverse⟩

/-- The edge that a merge of the pattern looks for between two nodes is there. -/
def Joined (p : RelationshipPattern) (left right : Nat) (s : Store) : Prop :=
  (s.findEdge? (p.arrow.orient left right).1 (p.arrow.orient left right).2 p.type
    (p.arrow ≠ .undirected)).isSome = true

/-- The row binds the ends of the pattern to nodes that are joined. -/
def Joins (p : RelationshipPattern) (row : Row) (s : Store) : Prop :=
  ∃ left right, bound row p.left = .ok left ∧ bound row p.right = .ok right ∧
    p.Joined left right s

theorem Joined.reverse {p : RelationshipPattern} {left right : Nat} {s : Store}
    (h : p.Joined left right s) : p.reverse.Joined right left s := by
  obtain ⟨l, r, type, arrow⟩ := p
  cases arrow with
  | leftToRight => exact h
  | rightToLeft => exact h
  | undirected =>
    unfold Joined at h ⊢
    simpa [RelationshipPattern.reverse, Arrow.reverse, Arrow.orient, Store.findEdge?,
      Edge.connects_comm] using h

theorem joined_of_mergeEdge {p : RelationshipPattern} {left right : Nat} {g g' : Progress}
    (h : mergeEdge p left right g = (.ok (), g')) : p.Joined left right g'.store := by
  unfold mergeEdge at h
  unfold Joined
  generalize p.arrow.orient left right = ends at h ⊢
  obtain ⟨source, target⟩ := ends
  simp only at h ⊢
  split at h
  · rename_i hfound
    obtain ⟨-, rfl⟩ := Prod.mk.inj h
    exact hfound
  split at h
  · cases (Prod.mk.inj h).1
  rename_i hcreate
  obtain ⟨-, rfl⟩ := Prod.mk.inj h
  obtain ⟨-, -, rfl⟩ := Store.createEdge_eq_ok hcreate
  rw [Store.isSome_findEdge?]
  exact .inl ⟨_, List.mem_append_right _ List.mem_cons_self, (Edge.links_iff _ _ _ _).2 rfl⟩

theorem joins_of_mergeRelationshipRow {p : RelationshipPattern} {row : Row} {g g' : Progress}
    (h : mergeRelationshipRow p row g = (.ok (), g')) : p.Joins row g'.store := by
  unfold mergeRelationshipRow at h
  split at h
  · rename_i left right hleft hright
    exact ⟨left, right, hleft, hright, joined_of_mergeEdge h⟩
  · cases (Prod.mk.inj h).1
  · cases (Prod.mk.inj h).1

namespace Joins

variable {p : RelationshipPattern} {row : Row} {rows : List Row} {s s' : Store} {g g' : Progress}

theorem keeps (h : p.Joins row s) (hkeeps : s.Keeps s') : p.Joins row s' := by
  obtain ⟨left, right, hleft, hright, hjoined⟩ := h
  refine ⟨left, right, hleft, hright, ?_⟩
  unfold Joined at hjoined ⊢
  rw [Store.isSome_findEdge?] at hjoined ⊢
  exact hjoined.imp (fun ⟨e, he, hlinks⟩ => ⟨e, hkeeps.edges.subset he, hlinks⟩)
    (And.imp_right fun ⟨e, he, hlinks⟩ => ⟨e, hkeeps.edges.subset he, hlinks⟩)

theorem reverse (h : p.Joins row s) : p.reverse.Joins row s := by
  obtain ⟨left, right, hleft, hright, hjoined⟩ := h
  exact ⟨right, left, hright, hleft, hjoined.reverse⟩

theorem of_eachRow (h : eachRow (mergeRelationshipRow p) rows g = (.ok (), g')) :
    ∀ row ∈ rows, p.Joins row g'.store := by
  induction rows generalizing g with
  | nil => simp
  | cons row rest ih =>
    unfold eachRow at h
    split at h
    · rename_i g₁ hrow
      have hlater : g₁.store.Steps g'.store := by
        have hchanges := changes_eachRow (changes_mergeRelationshipRow p) rest g₁
        rwa [h] at hchanges
      exact List.forall_mem_cons.2
        ⟨(joins_of_mergeRelationshipRow hrow).keeps (.of_steps hlater), ih h⟩
    · cases (Prod.mk.inj h).1

theorem run (h : ∀ row ∈ rows, p.Joins row g.store) :
    (Clause.mergeRelationship p).run rows g = (.ok rows, g) := by
  have hrow : ∀ row ∈ rows, mergeRelationshipRow p row g = (.ok (), g) := by
    intro row hrow
    obtain ⟨left, right, hleft, hright, hjoined⟩ := h row hrow
    unfold Joined at hjoined
    simp only [mergeRelationshipRow, hleft, hright, mergeEdge, hjoined, if_true]
  have heach : eachRow (mergeRelationshipRow p) rows g = (.ok (), g) := by
    clear h
    induction rows with
    | nil => rfl
    | cons row rest ih =>
      obtain ⟨hfirst, hrest⟩ := List.forall_mem_cons.1 hrow
      rw [eachRow, hfirst]
      exact ih hrest
  rw [Clause.run_mergeRelationship, heach]
  rfl

end Joins

end RelationshipPattern

end Dialect

/-- No execution repeats an edge, and a merge on rows that it has succeeded on before, in
this writing or the other, changes nothing, whatever has been done between. -/
theorem Store.ofExecutions_distinct :
    (∀ es : List Execution, (ofExecutions es).edges.Pairwise fun e e' =>
      ¬ (e.source = e'.source ∧ e.target = e'.target ∧ e.type = e'.type)) ∧
    ∀ (p : RelationshipPattern) (rows out : List Row) (g g' : Progress),
      (Clause.mergeRelationship p).run rows g = (.ok out, g') →
      ∀ (later : List Operation) (stats : Stats) (again : List Row), again ⊆ rows →
        let g'' : Progress := ⟨later.foldl operate g'.store, stats⟩
        (Clause.mergeRelationship p).run again g'' = (.ok again, g'') ∧
          (Clause.mergeRelationship p.reverse).run again g'' = (.ok again, g'') := by
  constructor
  · intro es
    have hdistinct := List.pairwise_map.1 (DistinctEdges.ofExecutions es)
    refine hdistinct.imp fun hne heq => hne ?_
    obtain ⟨hsource, htarget, htype⟩ := heq
    simp only [Edge.triple, hsource, htarget, htype]
  · intro p rows out g g' hrun later stats again hagain
    have heach : eachRow (mergeRelationshipRow p) rows g = (.ok (), g') := by
      rw [Clause.run_mergeRelationship] at hrun
      obtain ⟨hresult, rfl⟩ := Prod.mk.inj hrun
      obtain ⟨u, hu, -⟩ := map_eq_ok.1 hresult
      exact Prod.ext hu rfl
    have hkeeps := Keeps.of_steps (steps_foldl_operate g'.store later)
    have hjoins : ∀ row ∈ again, p.Joins row (later.foldl operate g'.store) := fun row hrow =>
      (RelationshipPattern.Joins.of_eachRow heach row (hagain hrow)).keeps hkeeps
    exact ⟨RelationshipPattern.Joins.run hjoins,
      RelationshipPattern.Joins.run fun row hrow => (hjoins row hrow).reverse⟩

namespace Sample

def met : RelationshipPattern :=
  ⟨"a", "b", "MET", .undirected⟩

def meetings : List Execution :=
  [.text "MERGE (a:Ann) MERGE (b:Bob) MERGE (a)-[:KNOWS]->(b) RETURN a",
    .statement ⟨[.matchNode ⟨"a", [], .empty⟩, .matchNode ⟨"b", [], .empty⟩,
      .mergeRelationship ⟨"a", "b", "KNOWS", .undirected⟩,
      .mergeRelationship ⟨"a", "c", "KNOWS", .leftToRight⟩], "a"⟩]

def metRows : List Row :=
  [[("a", 0), ("b", 1)], [("a", 1), ("b", 0)]]

def metRun : Outcome (List Row) :=
  (Clause.mergeRelationship met).run metRows ⟨Store.ofExecutions meetings, .zero⟩

end Sample

theorem ofExecutions_distinct_meetings :
    (Store.ofExecutions Sample.meetings).edges.length = 3 ∧
    Sample.metRun.1 = .ok Sample.metRows ∧ Sample.metRun.2.store.edges.length = 4 ∧
    ∀ later : List Operation,
      let g : Progress := ⟨later.foldl Store.operate Sample.metRun.2.store, .zero⟩
      (Clause.mergeRelationship Sample.met.reverse).run Sample.metRows g =
        (.ok Sample.metRows, g) := by
  have hok : Sample.metRun.1 = .ok Sample.metRows := by decide
  have hrun : Sample.metRun = (.ok Sample.metRows, Sample.metRun.2) := Prod.ext hok rfl
  exact ⟨by decide, hok, by decide, fun later => (Store.ofExecutions_distinct.2 Sample.met
    Sample.metRows _ _ _ hrun later .zero Sample.metRows (List.Subset.refl _)).2⟩

end RecordGraph
