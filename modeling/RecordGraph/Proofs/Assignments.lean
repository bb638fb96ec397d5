import RecordGraph.Proofs.UpsertOnGraph

/-!
Assignments to one node. Set clauses with the same variable are one change of one
node; with distinct keys each key gets its own value, a null one removes it, and
every other property, node and edge stays as it was.
-/

namespace RecordGraph

open Dialect

namespace Dict

variable {α : Type}

theorem get?_erase (d : Dict α) (key k : String) :
    (d.erase key).get? k = if key = k then none else d.get? k := by
  unfold get? erase
  rw [List.find?_filter]
  by_cases h : key = k
  · simp [h]
  · rw [if_neg h]
    congr 2
    funext e
    by_cases he : e.1 = k <;> simp [he, Ne.symm h]

end Dict

namespace Node

theorem property?_setProperty (n : Node) (key : String) (value : PropertyValue) (k : String) :
    (n.setProperty key value).property? k =
      if key = k then (if value.isNull then none else some value) else n.property? k := by
  unfold setProperty property?
  by_cases hnull : value.isNull = true
  · simp only [hnull, if_true, Dict.get?_erase]
  · simp only [hnull, Bool.false_eq_true, if_false, Dict.get?_insert]

def assign (n : Node) (entries : List (String × PropertyValue)) : Node :=
  entries.foldl (fun n e => n.setProperty e.1 e.2) n

variable {entries : List (String × PropertyValue)}

theorem assign_cons (n : Node) (e : String × PropertyValue)
    (rest : List (String × PropertyValue)) :
    n.assign (e :: rest) = (n.setProperty e.1 e.2).assign rest := rfl

@[simp] theorem id_assign (n : Node) : (n.assign entries).id = n.id := by
  induction entries generalizing n with
  | nil => rfl
  | cons e rest ih => rw [assign_cons, ih, setProperty]

@[simp] theorem labels_assign (n : Node) : (n.assign entries).labels = n.labels := by
  induction entries generalizing n with
  | nil => rfl
  | cons e rest ih => rw [assign_cons, ih, setProperty]

theorem property?_assign_of_notMem (n : Node) {k : String} (h : ∀ e ∈ entries, e.1 ≠ k) :
    (n.assign entries).property? k = n.property? k := by
  induction entries generalizing n with
  | nil => rfl
  | cons e rest ih =>
    rw [assign_cons, ih _ fun e he => h e (List.mem_cons_of_mem _ he), property?_setProperty,
      if_neg (h e List.mem_cons_self)]

/-- With distinct keys the order of the assignments does not matter. -/
theorem property?_assign_of_mem (n : Node) (hkeys : (entries.map (·.1)).Nodup)
    {e : String × PropertyValue} (he : e ∈ entries) :
    (n.assign entries).property? e.1 = if e.2.isNull then none else some e.2 := by
  induction entries generalizing n with
  | nil => simp at he
  | cons d rest ih =>
    simp only [List.map_cons, List.nodup_cons, List.mem_map, not_exists, not_and] at hkeys
    rw [assign_cons]
    rcases List.mem_cons.1 he with rfl | he
    · rw [property?_assign_of_notMem _ hkeys.1, property?_setProperty, if_pos rfl]
    · exact ih _ hkeys.2 he

end Node

namespace Store

def assign (g : Store) (id : Nat) (entries : List (String × PropertyValue)) : Store :=
  { g with nodes := g.nodes.map fun n => if n.id = id then n.assign entries else n }

theorem assign_nil (g : Store) (id : Nat) : g.assign id [] = g := by
  simp [assign, Node.assign]

theorem node?_assign (g : Store) (id : Nat) (entries : List (String × PropertyValue)) (k : Nat) :
    (g.assign id entries).node? k =
      (g.node? k).map fun n => if n.id = id then n.assign entries else n := by
  unfold assign node?
  rw [List.find?_map]
  congr 2
  funext n
  by_cases h : n.id = id <;> simp [h]

theorem setProperty_eq {g : Store} {id : Nat} (h : (g.node? id).isSome = true) (key : String)
    (value : PropertyValue) : g.setProperty id key value = .ok (g.assign id [(key, value)]) := by
  have hsome : (g.node? id).isNone = false := by simpa using h
  simp [setProperty, hsome, assign, Node.assign]

theorem assign_assign (g : Store) (id : Nat) (e : String × PropertyValue)
    (rest : List (String × PropertyValue)) :
    (g.assign id [e]).assign id rest = g.assign id (e :: rest) := by
  simp only [assign, List.map_map]
  congr 2
  funext n
  by_cases h : n.id = id <;> simp [h, Node.assign, Node.setProperty]

end Store

namespace Dialect

theorem setRow_eq {a : Assignment} {row : Row} {id : Nat} (hrow : row.node? a.var = some id)
    {g : Progress} (hid : (g.store.node? id).isSome = true) :
    setRow a row g = (.ok (), ⟨g.store.assign id [(a.key, a.value)],
      { g.stats with propertiesSet := g.stats.propertiesSet + 1 }⟩) := by
  simp only [setRow, bound_eq hrow, Store.setProperty_eq hid]

/-- Set clauses that all name one bound variable. -/
theorem run_assignments {var : String} {row : Row} {id : Nat} (hrow : row.node? var = some id)
    (entries : List (String × PropertyValue)) (p : Progress)
    (hid : (p.store.node? id).isSome = true) :
    ∃ stats, runClauses (entries.map fun e => .set ⟨var, e.1, e.2⟩) [row] p =
      (.ok [row], ⟨p.store.assign id entries, stats⟩) := by
  induction entries generalizing p with
  | nil => exact ⟨p.stats, by rw [Store.assign_nil]; rfl⟩
  | cons e rest ih =>
    have hset := setRow_eq (a := ⟨var, e.1, e.2⟩) hrow hid
    have hrest : ((p.store.assign id [e]).node? id).isSome = true := by
      rw [Store.node?_assign, Option.isSome_map]
      exact hid
    obtain ⟨stats, hrun⟩ := ih
      ⟨p.store.assign id [e], { p.stats with propertiesSet := p.stats.propertiesSet + 1 }⟩ hrest
    refine ⟨stats, ?_⟩
    rw [List.map_cons, runClauses, Clause.run_set]
    simp only [eachRow, hset, Except.map]
    rw [hrun, Store.assign_assign]

end Dialect

end RecordGraph
