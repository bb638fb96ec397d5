import RecordGraph.Proofs.Agreement
import RecordGraph.Proofs.DictEntries
import RecordGraph.Proofs.Matching

/-!
Merging of a node. A node made from a pattern of comparable values fits the pattern,
so a merge that finds no node makes one for the first row and finds it again for
every later row.
-/

namespace RecordGraph

open Dialect

theorem isNull_of_comparable {v : PropertyValue} (h : v.comparable = true) : v.isNull = false := by
  cases v <;> simp_all [PropertyValue.comparable, PropertyValue.isNull]

namespace Node

variable {properties : PropertyMap}

theorem properties_create (h : ∀ e ∈ properties.entries, e.2.isNull = false) (id : Nat)
    (labels : List String) : (create id labels properties).properties = properties := by
  have hkeep : properties.entries.filter (fun e => !e.2.isNull) = properties.entries :=
    List.filter_eq_self.2 fun e he => by simp [h e he]
  obtain ⟨entries, sorted⟩ := properties
  simp only [create, Dict.filter, hkeep]

theorem mem_labelSet {labels : List String} {label : String} :
    label ∈ labelSet labels ↔ label ∈ labels := by
  rw [labelSet, Dict.mem_keys_ofList]
  simp

theorem fits_create (h : ∀ e ∈ properties.entries, e.2.comparable = true) (id : Nat)
    (labels : List String) : (create id labels properties).fits labels properties = true := by
  have hself := properties_create (fun e he => isNull_of_comparable (h e he)) id labels
  have hlabels : ∀ label ∈ labels, (create id labels properties).hasLabel label = true := by
    intro label hlabel
    simpa [hasLabel, create] using mem_labelSet.2 hlabel
  have hentries : ∀ e ∈ properties.entries,
      ((create id labels properties).property? e.1).any (·.agrees e.2) = true := by
    intro e he
    rw [property?, hself, Dict.get?_of_mem properties he, Option.any_some,
      PropertyValue.agrees_self]
    exact h e he
  rw [fits, Bool.and_eq_true, List.all_eq_true, List.all_eq_true]
  exact ⟨hlabels, hentries⟩

end Node

theorem Store.findNodes_createNode {g : Store} {labels : List String} {properties : PropertyMap}
    (hcomparable : ∀ e ∈ properties.entries, e.2.comparable = true)
    (hnone : g.findNodes labels properties = []) :
    (g.createNode labels properties).2.findNodes labels properties = [g.nextNode] := by
  have hfits := Node.fits_create hcomparable g.nextNode labels
  simp only [findNodes, List.map_eq_nil_iff] at hnone
  simp only [findNodes, createNode, List.filter_append, hnone, List.nil_append,
    List.filter_singleton, hfits]
  rfl

namespace Dialect

variable {p : NodePattern} {rows : List Row} {g : Progress}

theorem findOrCreate_of_ne (hfound : g.store.findNodes p.labels p.properties ≠ []) :
    findOrCreate p g = (g.store.findNodes p.labels p.properties, g) := by
  unfold findOrCreate
  split
  · rename_i hnone
    exact absurd hnone hfound
  · rfl

theorem mergeNodeRows_found (hrows : ∀ row ∈ rows, row.node? p.var = none)
    (hfound : g.store.findNodes p.labels p.properties ≠ []) :
    mergeNodeRows p rows g =
      (.ok (rows.flatMap fun row =>
        (g.store.findNodes p.labels p.properties).map (row.bind p.var)), g) := by
  induction rows with
  | nil => rfl
  | cons row rest ih =>
    have hrow := hrows row List.mem_cons_self
    have hrest := ih fun r hr => hrows r (List.mem_cons_of_mem _ hr)
    simp only [mergeNodeRows, hrow, Option.isSome_none, Bool.false_eq_true, if_false,
      findOrCreate_of_ne hfound, hrest, List.flatMap_cons]

theorem findOrCreate_of_none (hnone : g.store.findNodes p.labels p.properties = []) :
    findOrCreate p g = ([g.store.nextNode], ⟨(g.store.createNode p.labels p.properties).2,
      { g.stats with nodesCreated := g.stats.nodesCreated + 1 }⟩) := by
  simp only [findOrCreate, hnone]
  rfl

/-- A merge that finds no node creates one for all rows, if that one fits the pattern. -/
theorem mergeNodeRows_created (hne : rows ≠ []) (hrows : ∀ row ∈ rows, row.node? p.var = none)
    (hnone : g.store.findNodes p.labels p.properties = [])
    (hnew : (g.store.createNode p.labels p.properties).2.findNodes p.labels p.properties =
      [g.store.nextNode]) :
    ∃ stats, mergeNodeRows p rows g =
      (.ok (rows.map fun row => row.bind p.var g.store.nextNode),
        ⟨(g.store.createNode p.labels p.properties).2, stats⟩) := by
  obtain ⟨row, rest, rfl⟩ := List.exists_cons_of_ne_nil hne
  have hrow := hrows row List.mem_cons_self
  have hrest := mergeNodeRows_found (p := p)
    (g := ⟨(g.store.createNode p.labels p.properties).2,
      { g.stats with nodesCreated := g.stats.nodesCreated + 1 }⟩)
    (fun r hr => hrows r (List.mem_cons_of_mem _ hr)) (by simp [hnew])
  refine ⟨{ g.stats with nodesCreated := g.stats.nodesCreated + 1 }, ?_⟩
  simp only [mergeNodeRows, hrow, Option.isSome_none, Bool.false_eq_true, if_false,
    findOrCreate_of_none hnone, hrest, hnew, List.map_cons, List.map_nil, List.cons_append,
    List.nil_append, ← List.map_eq_flatMap]

theorem nodes_findOrCreate (p : NodePattern) (g : Progress) :
    (findOrCreate p g).2.store.nodes = g.store.nodes ∨
      (findOrCreate p g).2.store.nodes =
        g.store.nodes ++ [Node.create g.store.nextNode p.labels p.properties] := by
  unfold findOrCreate
  split
  · exact .inr rfl
  · exact .inl rfl

theorem mergePattern_eq (h : ∀ e ∈ p.properties.entries, e.2.isNull = false) :
    mergePattern p rows g = mergeNodeRows p rows g := by
  have hnone : p.properties.entries.find? (fun e => e.2.isNull) = none :=
    List.find?_eq_none.2 fun e he => by simp [h e he]
  simp only [mergePattern, hnone]

end Dialect

end RecordGraph
