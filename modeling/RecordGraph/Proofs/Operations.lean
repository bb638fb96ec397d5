import RecordGraph.Proofs.StoreInvariant

/-!
Stores under operations. However nodes and edges are created, properties set and
statements executed, whether they succeed or fail, ids run from zero without a gap and
nothing that has been created is lost: only properties of nodes change. So an id that
has been handed out is the id of the same item in every later store.
-/

namespace RecordGraph

inductive Execution where
  | statement (statement : Dialect.Statement)
  | text (text : String)

inductive Operation where
  | createNode (labels : List String) (properties : PropertyMap)
  | createEdge (source target : Nat) (type : String)
  | setProperty (id : Nat) (key : String) (value : PropertyValue)
  | execute (execution : Execution)

namespace Store

def execute (s : Store) : Execution → Store
  | .statement statement => (statement.run s).2.store
  | .text text => (Dialect.execute text s).2

def operate (s : Store) : Operation → Store
  | .createNode labels properties => (s.createNode labels properties).2
  | .createEdge source target type => ((s.createEdge source target type).map (·.2)).toOption.getD s
  | .setProperty id key value => (s.setProperty id key value).toOption.getD s
  | .execute execution => s.execute execution

def ofOperations (ops : List Operation) : Store :=
  ops.foldl operate empty

/-- Ids run from zero without a gap, each item is found under its own id and edges join
nodes that are there. -/
structure Consistent (s : Store) : Prop where
  nodeIds : s.nodes.map (·.id) = List.range s.nodeCount
  edgeIds : s.edges.map (·.id) = List.range s.edgeCount
  nextNode : s.nextNode = s.nodeCount
  nextEdge : s.nextEdge = s.edgeCount
  node?_eq_some_iff : ∀ {id : Nat} {n : Node}, s.node? id = some n ↔ n ∈ s.nodes ∧ n.id = id
  edge?_eq_some_iff : ∀ {id : Nat} {e : Edge}, s.edge? id = some e ↔ e ∈ s.edges ∧ e.id = id
  ends : ∀ e ∈ s.edges, (s.node? e.source).isSome = true ∧ (s.node? e.target).isSome = true
  noNull : ∀ n ∈ s.nodes, ∀ key, n.property? key ≠ some .null

/-- Nodes keep their ids and labels and edges all they have; new ones stand after them. -/
structure Keeps (s s' : Store) : Prop where
  nodes : (s.nodes.map fun n => (n.id, n.labels)) <+: s'.nodes.map fun n => (n.id, n.labels)
  edges : s.edges <+: s'.edges

namespace WellFormed

variable {s : Store}

theorem nodeCount_eq (h : s.WellFormed) : s.nodeCount = s.nextNode := by
  simpa [nodeCount] using congrArg List.length h.nodeIds

theorem edgeCount_eq (h : s.WellFormed) : s.edgeCount = s.nextEdge := by
  simpa [edgeCount] using congrArg List.length h.edgeIds

theorem edge?_eq_some_iff (h : s.WellFormed) {id : Nat} {e : Edge} :
    s.edge? id = some e ↔ e ∈ s.edges ∧ e.id = id := by
  have hnodup : (s.edges.map (·.id)).Nodup := h.edgeIds ▸ List.nodup_range
  constructor
  · intro he
    exact ⟨List.mem_of_find?_eq_some he, by simpa using List.find?_some he⟩
  · rintro ⟨he, rfl⟩
    cases hfind : s.edge? e.id with
    | none => exact absurd (List.find?_eq_none.1 hfind e he) (by simp)
    | some d =>
      have hid : d.id = e.id := by simpa using List.find?_some hfind
      rw [List.inj_on_of_nodup_map hnodup (List.mem_of_find?_eq_some hfind) he hid]

theorem consistent (h : s.WellFormed) : s.Consistent where
  nodeIds := h.nodeCount_eq ▸ h.nodeIds
  edgeIds := h.edgeCount_eq ▸ h.edgeIds
  nextNode := h.nodeCount_eq.symm
  nextEdge := h.edgeCount_eq.symm
  node?_eq_some_iff := h.node?_eq_some_iff
  edge?_eq_some_iff := h.edge?_eq_some_iff
  ends e he := by
    rw [h.isSome_node?_iff, h.isSome_node?_iff]
    exact h.ends e he
  noNull n hn key hkey := by
    obtain ⟨e, he, hvalue⟩ := Option.map_eq_some_iff.1 hkey
    have hnull := h.noNull n hn e (List.mem_of_find?_eq_some he)
    rw [hvalue] at hnull
    cases hnull

end WellFormed

namespace Keeps

variable {s s' s'' : Store}

theorem refl (s : Store) : s.Keeps s :=
  ⟨List.prefix_rfl, List.prefix_rfl⟩

theorem trans (h : s.Keeps s') (h' : s'.Keeps s'') : s.Keeps s'' :=
  ⟨h.nodes.trans h'.nodes, h.edges.trans h'.edges⟩

theorem of_step (h : s.Step s') : s.Keeps s' := by
  cases h with
  | node labels properties =>
    exact ⟨by simp [createNode], List.prefix_rfl⟩
  | edge hcreate =>
    obtain ⟨-, -, rfl⟩ := createEdge_eq_ok hcreate
    exact ⟨List.prefix_rfl, List.prefix_append _ _⟩
  | @property _ id key value hset =>
    obtain rfl := setProperty_eq_ok hset
    have hsame : (fun n : Node => (n.id, n.labels)) ∘
        (fun n => if n.id = id then n.setProperty key value else n) =
          fun n => (n.id, n.labels) := by
      funext n
      by_cases hid : n.id = id <;> simp [hid, Node.setProperty]
    exact ⟨by rw [List.map_map, hsame], List.prefix_rfl⟩

theorem of_steps (h : s.Steps s') : s.Keeps s' := by
  induction h with
  | refl => exact refl s
  | tail _ hstep ih => exact ih.trans (of_step hstep)

theorem node?_eq_some (h : s.Keeps s') (hs : s.WellFormed) (hs' : s'.WellFormed) {id : Nat}
    {n : Node} (hn : s.node? id = some n) :
    ∃ n', s'.node? id = some n' ∧ n'.labels = n.labels := by
  obtain ⟨hmem, rfl⟩ := hs.node?_eq_some_iff.1 hn
  obtain ⟨n', hmem', heq⟩ := List.mem_map.1 (h.nodes.subset (List.mem_map_of_mem hmem))
  obtain ⟨hid, hlabels⟩ := Prod.ext_iff.1 heq
  exact ⟨n', hs'.node?_eq_some_iff.2 ⟨hmem', hid⟩, hlabels⟩

theorem edge?_eq_some (h : s.Keeps s') (hs : s.WellFormed) (hs' : s'.WellFormed) {id : Nat}
    {e : Edge} (he : s.edge? id = some e) : s'.edge? id = some e := by
  obtain ⟨hmem, hid⟩ := hs.edge?_eq_some_iff.1 he
  exact hs'.edge?_eq_some_iff.2 ⟨h.edges.subset hmem, hid⟩

end Keeps

theorem steps_execution (s : Store) (e : Execution) : s.Steps (s.execute e) := by
  cases e with
  | statement statement => exact statement.changes_run s
  | text text => exact Dialect.steps_execute text s

theorem steps_operate (s : Store) (op : Operation) : s.Steps (s.operate op) := by
  cases op with
  | createNode labels properties => exact .single (.node s labels properties)
  | createEdge source target type =>
    simp only [operate]
    cases h : s.createEdge source target type with
    | error e => exact .refl
    | ok created => exact .single (.edge h)
  | setProperty id key value =>
    simp only [operate]
    cases h : s.setProperty id key value with
    | error e => exact .refl
    | ok s' => exact .single (.property h)
  | execute e => exact s.steps_execution e

theorem steps_foldl_operate (s : Store) (ops : List Operation) :
    s.Steps (ops.foldl operate s) := by
  induction ops generalizing s with
  | nil => exact .refl
  | cons op ops ih => exact (s.steps_operate op).trans (ih (s.operate op))

theorem wellFormed_ofOperations (ops : List Operation) : (ofOperations ops).WellFormed :=
  WellFormed.empty.steps (empty.steps_foldl_operate ops)

theorem steps_ofOperations (ops later : List Operation) :
    (ofOperations ops).Steps (ofOperations (ops ++ later)) := by
  rw [ofOperations, ofOperations, List.foldl_append]
  exact steps_foldl_operate _ later

/-- Every store that operations lead to is consistent, no operation loses an item, and
the id of an item is its id in every later store. -/
theorem ofOperations_consistent (ops : List Operation) :
    (ofOperations ops).Consistent ∧
    (∀ op, (ofOperations ops).Keeps ((ofOperations ops).operate op)) ∧
    (∀ later id n, (ofOperations ops).node? id = some n →
      ∃ n', (ofOperations (ops ++ later)).node? id = some n' ∧ n'.labels = n.labels) ∧
    ∀ later id e, (ofOperations ops).edge? id = some e →
      (ofOperations (ops ++ later)).edge? id = some e := by
  have hs := wellFormed_ofOperations ops
  refine ⟨hs.consistent, fun op => .of_steps (steps_operate _ op), ?_, ?_⟩
  · intro later id n
    have hkeeps := Keeps.of_steps (steps_ofOperations ops later)
    exact hkeeps.node?_eq_some hs (wellFormed_ofOperations _)
  · intro later id e
    have hkeeps := Keeps.of_steps (steps_ofOperations ops later)
    exact hkeeps.edge?_eq_some hs (wellFormed_ofOperations _)

end Store

namespace Sample

def roster : List Operation :=
  [.createNode ["person"] (Dict.ofList [("uid", .integer 7), ("nick", .null)]),
    .createNode ["team"] (Dict.ofList [("uid", .string "t")]),
    .createEdge 1 0 "LED BY", .createEdge 1 9 "LED BY", .setProperty 0 "uid" .null,
    .execute (.text "MATCH (a:person) MATCH (b:team) MERGE (a)<-[:HAS]-(b) RETURN a"),
    .execute (.statement
      ⟨[.mergeNode ⟨"c", ["club"], .empty⟩, .set ⟨"d", "uid", .integer 1⟩], "c"⟩)]

end Sample

theorem ofOperations_consistent_roster :
    (Store.ofOperations Sample.roster).nodeCount = 3 ∧
    (Store.ofOperations Sample.roster).edgeCount = 2 ∧
    (Store.ofOperations Sample.roster).Consistent ∧
    ∀ later, ∃ n, (Store.ofOperations (Sample.roster ++ later)).node? 2 = some n ∧
      n.labels = ["club"] := by
  obtain ⟨hconsistent, -, hnodes, -⟩ := Store.ofOperations_consistent Sample.roster
  have hclub : (Store.ofOperations Sample.roster).node? 2 = some ⟨2, ["club"], .empty⟩ := by decide
  exact ⟨by decide, by decide, hconsistent, fun later => hnodes later 2 _ hclub⟩

end RecordGraph
