import Mathlib.Logic.Relation
import Mathlib.Tactic
import RecordGraph.Dialect.Execution
import RecordGraph.Proofs.Results

/-!
Invariant of stores. Whatever a statement does, also one that fails, is a sequence
of three kinds of change, and each of them keeps ids consecutive, the ends of
edges in place and properties free of null. So does every reachable store.
-/

namespace RecordGraph

open Dialect

namespace Store

/-- One change: a node or an edge is created, or a property of a node is set. -/
inductive Step : Store → Store → Prop
  | node (s : Store) (labels : List String) (properties : PropertyMap) :
      Step s (s.createNode labels properties).2
  | edge {s s' : Store} {id source target : Nat} {type : String}
      (h : s.createEdge source target type = .ok (id, s')) : Step s s'
  | property {s s' : Store} {id : Nat} {key : String} {value : PropertyValue}
      (h : s.setProperty id key value = .ok s') : Step s s'

abbrev Steps : Store → Store → Prop := Relation.ReflTransGen Step

/-- Stores that statements lead to from the empty one, whether they succeed or fail. -/
inductive Reachable : Store → Prop
  | empty : Reachable Store.empty
  | execute {s : Store} (h : Reachable s) (text : String) : Reachable (Dialect.execute text s).2

structure WellFormed (s : Store) : Prop where
  nodeIds : s.nodes.map (·.id) = List.range s.nextNode
  edgeIds : s.edges.map (·.id) = List.range s.nextEdge
  ends : ∀ e ∈ s.edges, e.source < s.nextNode ∧ e.target < s.nextNode
  noNull : ∀ n ∈ s.nodes, ∀ e ∈ n.properties.entries, e.2.isNull = false

namespace WellFormed

variable {s : Store}

theorem empty : Store.empty.WellFormed :=
  ⟨rfl, rfl, by simp [Store.empty], by simp [Store.empty]⟩

theorem id_lt (h : s.WellFormed) {n : Node} (hn : n ∈ s.nodes) : n.id < s.nextNode := by
  have hid := List.mem_map_of_mem (f := (·.id)) hn
  rw [h.nodeIds] at hid
  exact List.mem_range.1 hid

theorem eq_of_id (h : s.WellFormed) {m n : Node} (hm : m ∈ s.nodes) (hn : n ∈ s.nodes)
    (hid : m.id = n.id) : m = n := by
  have hnodup : (s.nodes.map (·.id)).Nodup := h.nodeIds ▸ List.nodup_range
  exact List.inj_on_of_nodup_map hnodup hm hn hid

theorem node?_eq_some_iff (h : s.WellFormed) {id : Nat} {n : Node} :
    s.node? id = some n ↔ n ∈ s.nodes ∧ n.id = id := by
  constructor
  · intro hn
    exact ⟨List.mem_of_find?_eq_some hn, by simpa using List.find?_some hn⟩
  · rintro ⟨hn, rfl⟩
    cases hfind : s.node? n.id with
    | none => exact absurd (List.find?_eq_none.1 hfind n hn) (by simp)
    | some m =>
      have hid : m.id = n.id := by simpa using List.find?_some hfind
      rw [h.eq_of_id (List.mem_of_find?_eq_some hfind) hn hid]

theorem isSome_node?_iff (h : s.WellFormed) (id : Nat) :
    (s.node? id).isSome = true ↔ id < s.nextNode := by
  rw [Option.isSome_iff_exists]
  constructor
  · rintro ⟨n, hn⟩
    obtain ⟨hmem, rfl⟩ := h.node?_eq_some_iff.1 hn
    exact h.id_lt hmem
  · intro hid
    have hmem : id ∈ s.nodes.map (·.id) := by rw [h.nodeIds]; exact List.mem_range.2 hid
    obtain ⟨n, hn, hnid⟩ := List.mem_map.1 hmem
    exact ⟨n, h.node?_eq_some_iff.2 ⟨hn, hnid⟩⟩

end WellFormed

theorem createEdge_eq_ok {s s' : Store} {id source target : Nat} {type : String}
    (h : s.createEdge source target type = .ok (id, s')) :
    (s.node? source).isSome = true ∧ (s.node? target).isSome = true ∧
      s' = { s with
        edges := s.edges ++ [⟨s.nextEdge, source, target, type⟩]
        nextEdge := s.nextEdge + 1 } := by
  unfold createEdge at h
  split at h
  · simp at h
  split at h
  · simp at h
  rename_i hsource htarget
  refine ⟨by simpa [Option.isSome_iff_ne_none] using hsource,
    by simpa [Option.isSome_iff_ne_none] using htarget, ?_⟩
  exact (congrArg Prod.snd (Except.ok.inj h)).symm

theorem setProperty_eq_ok {s s' : Store} {id : Nat} {key : String} {value : PropertyValue}
    (h : s.setProperty id key value = .ok s') :
    s' = { s with
      nodes := s.nodes.map fun n => if n.id = id then n.setProperty key value else n } := by
  unfold setProperty at h
  split at h
  · simp at h
  · exact (Except.ok.inj h).symm

theorem isSome_findEdge? (g : Store) (source target : Nat) (type : String) (directed : Bool) :
    (g.findEdge? source target type directed).isSome = true ↔
      (∃ e ∈ g.edges, e.links source target type = true) ∨
        directed = false ∧ ∃ e ∈ g.edges, e.links target source type = true := by
  cases directed <;>
    simp [findEdge?, Edge.connects, and_or_left, exists_or]

end Store

theorem Dict.mem_insert {α : Type} {d : Dict α} {key : String} {value : α} {e : String × α}
    (h : e ∈ (d.insert key value).entries) : e = (key, value) ∨ e ∈ d.entries :=
  mem_insertEntry h

theorem Node.noNull_create (id : Nat) (labels : List String) (properties : PropertyMap) :
    ∀ e ∈ (Node.create id labels properties).properties.entries, e.2.isNull = false := by
  intro e he
  have hkeep := (List.mem_filter.1 he).2
  simpa using hkeep

theorem Node.noNull_setProperty {n : Node} (h : ∀ e ∈ n.properties.entries, e.2.isNull = false)
    (key : String) (value : PropertyValue) :
    ∀ e ∈ (n.setProperty key value).properties.entries, e.2.isNull = false := by
  intro e he
  unfold Node.setProperty at he
  by_cases hnull : value.isNull = true
  · simp only [hnull, if_true] at he
    exact h e (List.mem_filter.1 he).1
  · simp only [hnull, Bool.false_eq_true, if_false] at he
    rcases Dict.mem_insert he with rfl | he
    · simpa using hnull
    · exact h e he

/-- The step lemma: each kind of change keeps the invariant. -/
theorem Store.WellFormed.step {s s' : Store} (h : s.WellFormed) (hstep : s.Step s') :
    s'.WellFormed := by
  cases hstep with
  | node labels properties =>
    refine ⟨?_, h.edgeIds, fun e he => ?_, fun n hn => ?_⟩
    · simp [Store.createNode, h.nodeIds, List.range_succ, Node.create]
    · obtain ⟨hsource, htarget⟩ := h.ends e he
      exact ⟨Nat.lt_succ_of_lt hsource, Nat.lt_succ_of_lt htarget⟩
    · rcases List.mem_append.1 hn with hn | hn
      · exact h.noNull n hn
      · obtain rfl := List.mem_singleton.1 hn
        exact Node.noNull_create _ _ _
  | edge hcreate =>
    obtain ⟨hsource, htarget, rfl⟩ := Store.createEdge_eq_ok hcreate
    refine ⟨h.nodeIds, ?_, fun e he => ?_, h.noNull⟩
    · simp [h.edgeIds, List.range_succ]
    · rcases List.mem_append.1 he with he | he
      · exact h.ends e he
      · obtain rfl := List.mem_singleton.1 he
        exact ⟨(h.isSome_node?_iff _).1 hsource, (h.isSome_node?_iff _).1 htarget⟩
  | @property _ id key value hset =>
    obtain rfl := Store.setProperty_eq_ok hset
    refine ⟨?_, h.edgeIds, h.ends, fun n hn => ?_⟩
    · rw [← h.nodeIds, List.map_map]
      refine List.map_congr_left fun n _ => ?_
      by_cases hid : n.id = id <;> simp [hid, Node.setProperty]
    · obtain ⟨m, hm, rfl⟩ := List.mem_map.1 hn
      by_cases hid : m.id = id
      · rw [if_pos hid]
        exact Node.noNull_setProperty (h.noNull m hm) key value
      · rw [if_neg hid]
        exact h.noNull m hm

theorem Store.WellFormed.steps {s s' : Store} (h : s.WellFormed) (hsteps : s.Steps s') :
    s'.WellFormed := by
  induction hsteps with
  | refl => exact h
  | tail _ hstep ih => exact ih.step hstep

namespace Dialect

/-- The changes made by a step of execution, whatever its result. -/
def Outcome.Changes {α : Type} (g : Progress) (o : Outcome α) : Prop :=
  g.store.Steps o.2.store

theorem steps_findOrCreate (p : NodePattern) (g : Progress) :
    g.store.Steps (findOrCreate p g).2.store := by
  unfold findOrCreate
  split
  · exact .single (.node g.store p.labels p.properties)
  · exact .refl

theorem changes_mergeEdge (p : RelationshipPattern) (left right : Nat) (g : Progress) :
    Outcome.Changes g (mergeEdge p left right g) := by
  unfold mergeEdge
  rcases p.arrow.orient left right with ⟨source, target⟩
  simp only
  split
  · exact .refl
  · split
    · exact .refl
    · rename_i id store hcreate
      exact .single (.edge hcreate)

theorem changes_mergeRelationshipRow (p : RelationshipPattern) (row : Row) (g : Progress) :
    Outcome.Changes g (mergeRelationshipRow p row g) := by
  unfold mergeRelationshipRow
  split
  · exact changes_mergeEdge p _ _ g
  · exact .refl
  · exact .refl

theorem changes_setRow (a : Assignment) (row : Row) (g : Progress) :
    Outcome.Changes g (setRow a row g) := by
  unfold setRow
  split
  · exact .refl
  · split
    · exact .refl
    · rename_i store hset
      exact .single (.property hset)

section Progress

variable {R : Progress → Progress → Prop} (hrefl : ∀ g, R g g)
  (htrans : ∀ {g g' g'' : Progress}, R g g' → R g' g'' → R g g'')

include hrefl htrans

theorem progress_eachRow {step : Row → Progress → Outcome Unit}
    (hstep : ∀ row g, R g (step row g).2) (rows : List Row) (g : Progress) :
    R g (eachRow step rows g).2 := by
  induction rows generalizing g with
  | nil => exact hrefl _
  | cons row rest ih =>
    have hrow := hstep row g
    unfold eachRow
    rcases hresult : step row g with ⟨result, g'⟩
    rw [hresult] at hrow
    cases result with
    | error e => exact hrow
    | ok u => exact htrans hrow (ih g')

theorem progress_mergeNodeRows {p : NodePattern} (hfind : ∀ g, R g (findOrCreate p g).2)
    (rows : List Row) (g : Progress) : R g (mergeNodeRows p rows g).2 := by
  induction rows generalizing g with
  | nil => exact hrefl _
  | cons row rest ih =>
    unfold mergeNodeRows
    split
    · exact hrefl _
    · have hrest := htrans (hfind g) (ih (findOrCreate p g).2)
      rcases hfound : findOrCreate p g with ⟨found, g'⟩
      rcases hmore : mergeNodeRows p rest g' with ⟨result, g''⟩
      rw [hfound] at hrest
      simp only [hmore] at hrest ⊢
      cases result <;> exact hrest

end Progress

section Rows

variable {R : Store → Store → Prop} (hrefl : ∀ s, R s s)
  (htrans : ∀ {s s' s'' : Store}, R s s' → R s' s'' → R s s'')

include hrefl htrans

theorem rel_eachRow {step : Row → Progress → Outcome Unit}
    (hstep : ∀ row g, R g.store (step row g).2.store) (rows : List Row) (g : Progress) :
    R g.store (eachRow step rows g).2.store :=
  progress_eachRow (R := fun g g' => R g.store g'.store) (fun _ => hrefl _)
    (fun h h' => htrans h h') hstep rows g

theorem rel_mergeNodeRows {p : NodePattern}
    (hfind : ∀ g, R g.store (findOrCreate p g).2.store) (rows : List Row) (g : Progress) :
    R g.store (mergeNodeRows p rows g).2.store :=
  progress_mergeNodeRows (R := fun g g' => R g.store g'.store) (fun _ => hrefl _)
    (fun h h' => htrans h h') hfind rows g

theorem rel_runClauses {cs : List Clause}
    (hclauses : ∀ c ∈ cs, ∀ rows g, R g.store (c.run rows g).2.store) (rows : List Row)
    (g : Progress) : R g.store (runClauses cs rows g).2.store := by
  induction cs generalizing rows g with
  | nil => exact hrefl _
  | cons c rest ih =>
    have hclause := hclauses c List.mem_cons_self rows g
    have hrest := ih fun d hd => hclauses d (List.mem_cons_of_mem _ hd)
    unfold runClauses
    rcases hresult : c.run rows g with ⟨result, g'⟩
    rw [hresult] at hclause
    cases result with
    | error e => exact hclause
    | ok rows' => exact htrans hclause (hrest rows' g')

end Rows

theorem changes_eachRow {step : Row → Progress → Outcome Unit}
    (hstep : ∀ row g, Outcome.Changes g (step row g)) (rows : List Row) (g : Progress) :
    Outcome.Changes g (eachRow step rows g) :=
  rel_eachRow (fun _ => .refl) (fun h h' => h.trans h') hstep rows g

theorem changes_mergePattern (p : NodePattern) (rows : List Row) (g : Progress) :
    Outcome.Changes g (mergePattern p rows g) := by
  unfold mergePattern
  split
  · exact .refl
  · exact rel_mergeNodeRows (fun _ => .refl) (fun h h' => h.trans h') (steps_findOrCreate p) rows g

theorem Clause.run_mergeRelationship (p : RelationshipPattern) (rows : List Row) (g : Progress) :
    (Clause.mergeRelationship p).run rows g =
      ((eachRow (mergeRelationshipRow p) rows g).1.map fun _ => rows,
        (eachRow (mergeRelationshipRow p) rows g).2) := by
  rcases h : eachRow (mergeRelationshipRow p) rows g with ⟨result, g'⟩
  cases result <;> simp [Clause.run, h, Except.map]

theorem Clause.run_set (a : Assignment) (rows : List Row) (g : Progress) :
    (Clause.set a).run rows g =
      ((eachRow (setRow a) rows g).1.map fun _ => rows, (eachRow (setRow a) rows g).2) := by
  rcases h : eachRow (setRow a) rows g with ⟨result, g'⟩
  cases result <;> simp [Clause.run, h, Except.map]

theorem Clause.changes_run (c : Clause) (rows : List Row) (g : Progress) :
    Outcome.Changes g (c.run rows g) := by
  cases c with
  | matchNode p => exact .refl
  | mergeNode p => exact changes_mergePattern p rows g
  | mergeRelationship p =>
    rw [Clause.run_mergeRelationship]
    exact changes_eachRow (changes_mergeRelationshipRow p) rows g
  | set a =>
    rw [Clause.run_set]
    exact changes_eachRow (changes_setRow a) rows g

theorem changes_runClauses (cs : List Clause) (rows : List Row) (g : Progress) :
    Outcome.Changes g (runClauses cs rows g) :=
  rel_runClauses (fun _ => .refl) (fun h h' => h.trans h') (fun c _ => c.changes_run) rows g

theorem Statement.changes_run (s : Statement) (store : Store) :
    store.Steps (s.run store).2.store := by
  have hclauses := changes_runClauses s.clauses [[]] ⟨store, .zero⟩
  unfold Statement.run
  rcases hresult : runClauses s.clauses [[]] ⟨store, .zero⟩ with ⟨result, g⟩
  rw [hresult] at hclauses
  cases result <;> exact hclauses

theorem steps_execute (text : String) (store : Store) :
    store.Steps (execute text store).2 := by
  unfold execute
  split
  · exact .refl
  · exact Statement.changes_run _ store

end Dialect

/-- The run lemma: every reachable store is well-formed. -/
theorem Store.Reachable.wellFormed {s : Store} (h : s.Reachable) : s.WellFormed := by
  induction h with
  | empty => exact Store.WellFormed.empty
  | execute h text ih => exact ih.steps (steps_execute text _)

end RecordGraph
