import RecordGraph.Proofs.StoreInvariant
import RecordGraph.Proofs.UpdateStatement

/-!
Matching by key. A match clause finds the nodes whose property agrees with a key,
in creation order; the match clauses of a create statement leave one row for each
choice of a node for every related record. A lookup changes nothing.
-/

namespace RecordGraph

open Dialect Statement

/-- The nodes whose property under a key agrees with a value, in creation order. -/
def Store.matching (g : Store) (keyField : String) (value : PropertyValue) : List Node :=
  g.nodes.filter fun n => (n.property? keyField).any (·.agrees value)

theorem Store.mem_matching {g : Store} {keyField : String} {value : PropertyValue} {n : Node} :
    n ∈ g.matching keyField value ↔
      n ∈ g.nodes ∧ ∃ v, n.property? keyField = some v ∧ v.agrees value = true := by
  simp [Store.matching, Option.any_eq_true]

theorem Store.findNodes_keyPattern (g : Store) (node keyField : String) (value : PropertyValue) :
    g.findNodes (keyPattern node keyField value).labels
        (keyPattern node keyField value).properties =
      (g.matching keyField value).map (·.id) := by
  simp [findNodes, matching, keyPattern, Node.fits, Dict.ofList, Dict.insertEntry, Dict.empty]

namespace Dialect

theorem Row.node?_bind (row : Row) (var : String) (id : Nat) (other : String) :
    (row.bind var id).node? other =
      (row.node? other).or (if other = var then some id else none) := by
  unfold Row.node? Row.bind
  rw [List.lookup_append, List.lookup_cons]
  by_cases h : other = var
  · simp [h]
  · simp [h, beq_false_of_ne h]

theorem Row.node?_bind_self {row : Row} {var : String} (h : row.node? var = none) (id : Nat) :
    (row.bind var id).node? var = some id := by
  simp [Row.node?_bind, h]

theorem Row.node?_bind_of_ne {row : Row} {var other : String} (h : other ≠ var) (id : Nat) :
    (row.bind var id).node? other = row.node? other := by
  simp [Row.node?_bind, h]

theorem matchRow_of_unbound {var : String} {row : Row} (h : row.node? var = none)
    (found : List Nat) : matchRow var found row = found.map (row.bind var) := by
  simp [matchRow, h]

end Dialect

namespace CompilerSettings

variable {s : CompilerSettings} {g : Store}

def matchesOf (s : CompilerSettings) (g : Store) (x : RelatedRecord) : List Node :=
  g.matching s.keyField (s.keyOf x.record)

/-- Every choice of one matching node for each related record. -/
def choices (s : CompilerSettings) (g : Store) : List RelatedRecord → List Row
  | [] => [[]]
  | x :: rest =>
    (s.matchesOf g x).flatMap fun n => (s.choices g rest).map fun row => (x.node, n.id) :: row

theorem run_matchClauseOf {x : RelatedRecord} {rows : List Row} {p : Progress}
    (h : ∀ row ∈ rows, row.node? x.node = none) :
    (s.matchClauseOf x).run rows p =
      (.ok (rows.flatMap fun row => (s.matchesOf p.store x).map fun n => row.bind x.node n.id),
        p) := by
  simp only [matchClauseOf, Clause.run, matchRows, Store.findNodes_keyPattern]
  congr 2
  refine List.flatMap_congr fun row hrow => ?_
  rw [keyPattern, matchRow_of_unbound (h row hrow), List.map_map]
  rfl

theorem runClauses_matches {xs : List RelatedRecord} (hnodes : (xs.map (·.node)).Nodup)
    {rows : List Row} (hfresh : ∀ row ∈ rows, ∀ x ∈ xs, row.node? x.node = none)
    (cs : List Clause) (p : Progress) :
    runClauses (xs.map s.matchClauseOf ++ cs) rows p =
      runClauses cs (rows.flatMap fun row => (s.choices p.store xs).map (row ++ ·)) p := by
  induction xs generalizing rows with
  | nil => simp [choices]
  | cons x rest ih =>
    rw [List.map_cons, List.nodup_cons] at hnodes
    have hx : ∀ row ∈ rows, row.node? x.node = none := fun row hrow =>
      hfresh row hrow x List.mem_cons_self
    have hrest : ∀ row ∈ rows.flatMap fun row =>
        (s.matchesOf p.store x).map fun n => row.bind x.node n.id,
        ∀ y ∈ rest, row.node? y.node = none := by
      intro row hrow y hy
      simp only [List.mem_flatMap, List.mem_map] at hrow
      obtain ⟨row, hrow, n, -, rfl⟩ := hrow
      -- Aliases differ, so this match leaves those of the later ones unbound.
      have hne : y.node ≠ x.node := fun e => hnodes.1 (e ▸ List.mem_map_of_mem hy)
      rw [Row.node?_bind_of_ne hne]
      exact hfresh row hrow y (List.mem_cons_of_mem _ hy)
    rw [List.map_cons, List.cons_append, runClauses, run_matchClauseOf hx]
    simp only [ih hnodes.2 hrest]
    congr 1
    simp [choices, List.flatMap_assoc, List.map_flatMap, List.flatMap_map, Row.bind,
      Function.comp_def]

theorem choices_eq_nil_iff (xs : List RelatedRecord) :
    s.choices g xs = [] ↔ ∃ x ∈ xs, s.matchesOf g x = [] := by
  induction xs with
  | nil => simp [choices]
  | cons x rest ih =>
    cases hx : s.matchesOf g x with
    | nil => simp [choices, hx]
    | cons n more =>
      have hrest : s.choices g (x :: rest) = [] ↔ s.choices g rest = [] := by
        simp only [choices, hx, List.flatMap_cons, List.append_eq_nil_iff, List.map_eq_nil_iff,
          List.flatMap_eq_nil_iff]
        exact ⟨And.left, fun h => ⟨h, fun _ _ => h⟩⟩
      rw [hrest, ih]
      simp [hx]

theorem mem_choices_cons {x : RelatedRecord} {rest : List RelatedRecord} {row : Row} :
    row ∈ s.choices g (x :: rest) ↔
      ∃ n ∈ s.matchesOf g x, ∃ r ∈ s.choices g rest, row = (x.node, n.id) :: r := by
  simp [choices, eq_comm]

theorem node?_cons_self (var : String) (id : Nat) (row : Row) :
    Row.node? ((var, id) :: row) var = some id := by
  simp [Row.node?]

theorem node?_cons_of_ne {var other : String} (h : other ≠ var) (id : Nat) (row : Row) :
    Row.node? ((var, id) :: row) other = row.node? other := by
  simp [Row.node?, List.lookup_cons, beq_false_of_ne h]

theorem bound_of_mem_choices {xs : List RelatedRecord} (hnodes : (xs.map (·.node)).Nodup)
    {row : Row} (hrow : row ∈ s.choices g xs) {x : RelatedRecord} (hx : x ∈ xs) :
    ∃ n ∈ s.matchesOf g x, row.node? x.node = some n.id := by
  induction xs generalizing row with
  | nil => simp at hx
  | cons y rest ih =>
    rw [List.map_cons, List.nodup_cons] at hnodes
    obtain ⟨n, hn, r, hr, rfl⟩ := mem_choices_cons.1 hrow
    rcases List.mem_cons.1 hx with rfl | hx
    · exact ⟨n, hn, node?_cons_self _ _ _⟩
    · have hne : x.node ≠ y.node := fun e => hnodes.1 (e ▸ List.mem_map_of_mem hx)
      rw [node?_cons_of_ne hne]
      exact ih hnodes.2 hr hx

/-- Where every related record has a node, each of its nodes is chosen in some row. -/
theorem exists_choice {xs : List RelatedRecord} (hnodes : (xs.map (·.node)).Nodup)
    (hfound : ∀ x ∈ xs, s.matchesOf g x ≠ []) {x : RelatedRecord} (hx : x ∈ xs) {n : Node}
    (hn : n ∈ s.matchesOf g x) : ∃ row ∈ s.choices g xs, row.node? x.node = some n.id := by
  induction xs with
  | nil => simp at hx
  | cons y rest ih =>
    rw [List.map_cons, List.nodup_cons] at hnodes
    have hrest := fun z hz => hfound z (List.mem_cons_of_mem _ hz)
    rcases List.mem_cons.1 hx with rfl | hx
    · have hne : s.choices g rest ≠ [] := fun h => by
        obtain ⟨z, hz, hnil⟩ := (choices_eq_nil_iff rest).1 h
        exact hrest z hz hnil
      obtain ⟨r, hr⟩ := List.exists_mem_of_ne_nil _ hne
      exact ⟨_, mem_choices_cons.2 ⟨n, hn, r, hr, rfl⟩, node?_cons_self _ _ _⟩
    · have hne : x.node ≠ y.node := fun e => hnodes.1 (e ▸ List.mem_map_of_mem hx)
      obtain ⟨m, hm⟩ := List.exists_mem_of_ne_nil _ (hfound y List.mem_cons_self)
      obtain ⟨r, hr, hbound⟩ := ih hnodes.2 hrest hx
      exact ⟨_, mem_choices_cons.2 ⟨m, hm, r, hr, rfl⟩, by rw [node?_cons_of_ne hne]; exact hbound⟩

theorem unbound_of_mem_choices {xs : List RelatedRecord} {var : String}
    (hvar : ∀ x ∈ xs, x.node ≠ var) {row : Row} (hrow : row ∈ s.choices g xs) :
    row.node? var = none := by
  induction xs generalizing row with
  | nil =>
    obtain rfl : row = [] := by simpa [choices] using hrow
    rfl
  | cons y rest ih =>
    obtain ⟨n, -, r, hr, rfl⟩ := mem_choices_cons.1 hrow
    rw [node?_cons_of_ne (hvar y List.mem_cons_self).symm]
    exact ih (fun x hx => hvar x (List.mem_cons_of_mem _ hx)) hr

end CompilerSettings

namespace Dialect

theorem bound_eq {row : Row} {var : String} {id : Nat} (h : row.node? var = some id) :
    bound row var = .ok id := by
  simp [bound, h]

theorem returned_eq {var : String} {g : Store} {rows : List Row} {nodes : List Node}
    (h : List.Forall₂ (fun row n => row.node? var = some n.id ∧ g.node? n.id = some n) rows nodes) :
    returned var g rows = .ok nodes := by
  induction h with
  | nil => rfl
  | cons h more ih =>
    rw [returned, bound_eq h.1]
    simp only [bind, Except.bind, h.2, ih]
    rfl

theorem matchRows_keyPattern (g : Store) (node keyField : String) (value : PropertyValue) :
    matchRows (keyPattern node keyField value) g [[]] =
      (g.matching keyField value).map fun n => [(node, n.id)] := by
  rw [matchRows, Store.findNodes_keyPattern, List.flatMap_singleton, keyPattern,
    matchRow_of_unbound rfl, List.map_map]
  rfl

theorem run_lookupStatement {g : Store} (hg : g.WellFormed) (keyField : String)
    (value : PropertyValue) :
    (CompilerSettings.lookupStatement keyField value).run g =
      (.ok (g.matching keyField value), ⟨g, .zero⟩) := by
  have hreturned : returned CompilerSettings.lookupAlias g
      ((g.matching keyField value).map fun n => [(CompilerSettings.lookupAlias, n.id)]) =
      .ok (g.matching keyField value) := by
    refine returned_eq ?_
    rw [List.forall₂_map_left_iff, List.forall₂_same]
    intro n hn
    exact ⟨CompilerSettings.node?_cons_self _ _ _,
      hg.node?_eq_some_iff.2 ⟨(Store.mem_matching.1 hn).1, rfl⟩⟩
  simp only [Statement.run, CompilerSettings.lookupStatement, runClauses, Clause.run,
    matchRows_keyPattern, hreturned]

end Dialect

end RecordGraph
