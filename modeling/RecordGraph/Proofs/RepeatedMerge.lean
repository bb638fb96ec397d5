import RecordGraph.Proofs.ParsedValues
import RecordGraph.Proofs.SuccessfulUpsert

/-!
Merges of a node that are repeated, row by row or statement by statement. A pattern that
agrees with itself makes one node at most, which every later row and every later run
finds again. A pattern with a null inside a list, which the refusal of nulls does not
reach, agrees with no node at all, and so each row makes another one.
-/

namespace RecordGraph

open Dialect Number

theorem Number.Binary.ne_nan_of_equals {F : Format} {x y : Binary F} (h : x.equals y = true) :
    y ≠ .nan := by
  rintro rfl
  cases x <;> cases h

namespace PropertyValue

mutual

theorem comparable_of_agrees : (a b : PropertyValue) → a.agrees b = true → b.comparable = true
  | a, null, h => by cases a <;> cases h
  | _, boolean _, _ => rfl
  | _, integer _, _ => rfl
  | _, string _, _ => rfl
  | a, float y, h => by
    cases a with
    | integer i => simpa [comparable] using Binary.ne_nan_of_equals h
    | float x => simpa [comparable] using Binary.ne_nan_of_equals h
    | _ => cases h
  | a, list items', h => by
    cases a with
    | list items => exact comparableAll_of_agreesList items items' h
    | _ => cases h

theorem comparableAll_of_agreesList : (as bs : List PropertyValue) →
    agreesList as bs = true → comparableAll bs = true
  | [], [], _ => rfl
  | [], _ :: _, h | _ :: _, [], h => by cases h
  | a :: as, b :: bs, h => by
    rw [agreesList, Bool.and_eq_true] at h
    rw [comparableAll, Bool.and_eq_true]
    exact ⟨comparable_of_agrees a b h.1, comparableAll_of_agreesList as bs h.2⟩

end

theorem isNull_of_holdsNull {v : PropertyValue} (h : v.holdsNull = false) : v.isNull = false := by
  cases v <;> simp_all [holdsNull, isNull]

end PropertyValue

theorem Store.comparable_of_findNodes {g : Store} {labels : List String}
    {properties : PropertyMap} (h : g.findNodes labels properties ≠ []) :
    ∀ e ∈ properties.entries, e.2.comparable = true := by
  intro e he
  obtain ⟨id, hid⟩ := List.exists_mem_of_ne_nil _ h
  obtain ⟨n, hn, -⟩ := List.mem_map.1 hid
  have hfits := (List.mem_filter.1 hn).2
  rw [Node.fits, Bool.and_eq_true, List.all_eq_true, List.all_eq_true] at hfits
  obtain ⟨v, -, hagrees⟩ := (Option.any_eq_true _ _).1 (hfits.2 e he)
  exact PropertyValue.comparable_of_agrees v e.2 hagrees

namespace Dialect

/-- No null stands in a value of the pattern, at any depth. -/
def NodePattern.HoldsNoNull (p : NodePattern) : Prop :=
  ∀ e ∈ p.properties.entries, e.2.holdsNull = false

theorem NodePattern.Plain.comparable_iff {p : NodePattern} (h : p.Plain) :
    (∀ e ∈ p.properties.entries, e.2.comparable = true) ↔ p.HoldsNoNull := by
  refine forall₂_congr fun e he => ?_
  have hplain : e.2.comparable = !e.2.holdsNull := h e he
  rw [hplain, Bool.not_eq_true']

variable {p : NodePattern} {rows : List Row} {g : Progress}

theorem findNodes_findOrCreate (h : ∀ e ∈ p.properties.entries, e.2.comparable = true) :
    (findOrCreate p g).2.store.findNodes p.labels p.properties = (findOrCreate p g).1 ∧
      (findOrCreate p g).1 ≠ [] := by
  by_cases hnone : g.store.findNodes p.labels p.properties = []
  · rw [findOrCreate_of_none hnone]
    exact ⟨Store.findNodes_createNode h hnone, by simp⟩
  · rw [findOrCreate_of_ne hnone]
    exact ⟨rfl, hnone⟩

theorem nodeCount_findOrCreate_le (p : NodePattern) (g : Progress) :
    (findOrCreate p g).2.store.nodeCount ≤ g.store.nodeCount + 1 := by
  simp only [Store.nodeCount]
  rcases nodes_findOrCreate p g with h | h <;> simp [h]

theorem mergeNodeRows_of_found (hfound : g.store.findNodes p.labels p.properties ≠ [])
    (rows : List Row) : (mergeNodeRows p rows g).2 = g := by
  induction rows with
  | nil => rfl
  | cons row rest ih =>
    unfold mergeNodeRows
    split
    · rfl
    · rw [findOrCreate_of_ne hfound]
      rcases hrest : mergeNodeRows p rest g with ⟨_ | _, g'⟩ <;> simpa [hrest] using ih

theorem nodeCount_mergeNodeRows_le (h : ∀ e ∈ p.properties.entries, e.2.comparable = true) :
    (mergeNodeRows p rows g).2.store.nodeCount ≤ g.store.nodeCount + 1 := by
  cases rows with
  | nil => simp [mergeNodeRows]
  | cons row rest =>
    unfold mergeNodeRows
    split
    · simp
    · obtain ⟨hfound, hne⟩ := findNodes_findOrCreate h (g := g)
      have hrest := mergeNodeRows_of_found (hfound ▸ hne) rest
      have hcount := nodeCount_findOrCreate_le p g
      rcases hfind : findOrCreate p g with ⟨found, g'⟩
      rw [hfind] at hrest hcount
      rcases hmore : mergeNodeRows p rest g' with ⟨_ | _, g''⟩
      all_goals
        simp only [hmore] at hrest
        simp only [hmore, hrest]
        exact hcount

theorem nodeCount_mergeNodeRows (h : ¬ ∀ e ∈ p.properties.entries, e.2.comparable = true)
    (hrows : ∀ row ∈ rows, row.node? p.var = none) :
    (mergeNodeRows p rows g).2.store.nodeCount = g.store.nodeCount + rows.length := by
  have hnone (g : Progress) : g.store.findNodes p.labels p.properties = [] := by
    by_contra hfound
    exact h (Store.comparable_of_findNodes hfound)
  induction rows generalizing g with
  | nil => simp [mergeNodeRows]
  | cons row rest ih =>
    obtain ⟨hrow, hrest⟩ := List.forall_mem_cons.1 hrows
    have hcount := ih hrest (g := (findOrCreate p g).2)
    simp only [findOrCreate_of_none (hnone g), Store.nodeCount_createNode] at hcount
    unfold mergeNodeRows
    simp only [hrow, Option.isSome_none, Bool.false_eq_true, if_false,
      findOrCreate_of_none (hnone g)]
    rcases hmore : mergeNodeRows p rest ⟨(g.store.createNode p.labels p.properties).2,
      { g.stats with nodesCreated := g.stats.nodesCreated + 1 }⟩ with ⟨_ | _, g'⟩
    all_goals
      simp only [hmore, List.length_cons] at hcount ⊢
      omega

def mergeStatement (p : NodePattern) (returns : String) : Statement :=
  ⟨[.mergeNode p], returns⟩

theorem run_mergeStatement (h : ∀ e ∈ p.properties.entries, e.2.isNull = false) (v : String)
    (g : Store) :
    (mergeStatement p v).run g =
      (returned v (findOrCreate p ⟨g, .zero⟩).2.store
        ((findOrCreate p ⟨g, .zero⟩).1.map (Row.bind [] p.var)), (findOrCreate p ⟨g, .zero⟩).2) := by
  simp only [mergeStatement, Statement.run, runClauses, Clause.run, mergePattern_eq h,
    mergeNodeRows, Row.node?, List.lookup_nil, Option.isSome_none, Bool.false_eq_true, if_false,
    List.append_nil]

theorem noNull_of_mergeStatement_ok {v : String} {g : Store} {nodes : List Node} {g' : Progress}
    (h : (mergeStatement p v).run g = (.ok nodes, g')) :
    ∀ e ∈ p.properties.entries, e.2.isNull = false := by
  cases hmerge : (mergePattern p [[]] ⟨g, .zero⟩).1 with
  | ok rows => exact noNull_of_mergePattern_ok hmerge
  | error e =>
    rcases hpattern : mergePattern p [[]] ⟨g, .zero⟩ with ⟨_ | _, g₁⟩
    · simp [mergeStatement, Statement.run, runClauses, Clause.run, hpattern] at h
    · simp [hpattern] at hmerge

theorem run_mergeStatement_again (h : p.Plain) {v : String} {g : Store} {nodes : List Node}
    {g' : Progress} (hrun : (mergeStatement p v).run g = (.ok nodes, g')) :
    (mergeStatement p v).run g'.store = (.ok nodes, ⟨g'.store, .zero⟩) ↔ p.HoldsNoNull := by
  have hnull := noNull_of_mergeStatement_ok hrun
  rw [run_mergeStatement hnull] at hrun ⊢
  obtain ⟨hnodes, rfl⟩ := Prod.mk.inj hrun
  rw [← h.comparable_iff]
  constructor
  · intro hagain
    by_contra hcomparable
    have hnone : (findOrCreate p ⟨g, .zero⟩).2.store.findNodes p.labels p.properties = [] := by
      by_contra hfound
      exact hcomparable (Store.comparable_of_findNodes hfound)
    have hcreate := findOrCreate_of_none
      (g := ⟨(findOrCreate p ⟨g, .zero⟩).2.store, .zero⟩) hnone
    rw [hcreate] at hagain
    have hstats := congrArg (fun o => o.2.stats.nodesCreated) hagain
    simp [Stats.zero] at hstats
  · intro hcomparable
    obtain ⟨hfound, hne⟩ := findNodes_findOrCreate hcomparable (g := ⟨g, .zero⟩)
    have hagain := findOrCreate_of_ne (p := p)
      (g := ⟨(findOrCreate p ⟨g, .zero⟩).2.store, .zero⟩) (hfound ▸ hne)
    rw [hagain, hfound, hnodes]

/-- A pattern merged in a text makes one node at most, and finds it in every later run, exactly
when no null stands in it; with a null inside a list, every row makes a node of its own. -/
theorem merge_again {text : String} {s : Statement} (hparse : parse text = .ok s)
    {p : NodePattern} (hp : .mergeNode p ∈ s.clauses) :
    (∀ v g nodes g', (mergeStatement p v).run g = (.ok nodes, g') →
      ((mergeStatement p v).run g'.store = (.ok nodes, ⟨g'.store, .zero⟩) ↔ p.HoldsNoNull)) ∧
    (p.HoldsNoNull → ∀ rows g,
      ((Clause.mergeNode p).run rows g).2.store.nodeCount ≤ g.store.nodeCount + 1) ∧
    (¬ p.HoldsNoNull → (∀ e ∈ p.properties.entries, e.2.isNull = false) → ∀ rows g,
      (∀ row ∈ rows, row.node? p.var = none) →
        ((Clause.mergeNode p).run rows g).2.store.nodeCount = g.store.nodeCount + rows.length) := by
  have hplain := plain_of_parse hparse hp
  refine ⟨fun _ _ _ _ => run_mergeStatement_again hplain, fun hnone rows g => ?_,
    fun hsome hnull rows g hrows => ?_⟩
  · have hnull := fun e he => PropertyValue.isNull_of_holdsNull (hnone e he)
    rw [Clause.run, mergePattern_eq hnull]
    exact nodeCount_mergeNodeRows_le (hplain.comparable_iff.2 hnone)
  · rw [Clause.run, mergePattern_eq hnull]
    exact nodeCount_mergeNodeRows (mt hplain.comparable_iff.1 hsome) hrows

end Dialect

namespace Sample

def taggedPattern : NodePattern :=
  ⟨"m", ["x"], Dict.empty.insert "tags" (.list [.string "a"])⟩

def untaggedPattern : NodePattern :=
  ⟨"m", ["x"], Dict.empty.insert "tags" (.list [.null])⟩

def tagged (p : NodePattern) : Progress :=
  ⟨(Store.empty.createNode p.labels p.properties).2, ⟨1, 0, 0⟩⟩

def pair : Store :=
  (Dialect.execute "MERGE (m:y \x7bk:2\x7d) RETURN m"
    (Dialect.execute "MERGE (m:y \x7bk:1\x7d) RETURN m" .empty).2).2

end Sample

theorem merge_again_tagged :
    parse "MERGE (m:x \x7btags:['a']\x7d) RETURN m" = .ok (mergeStatement Sample.taggedPattern "m") ∧
    (mergeStatement Sample.taggedPattern "m").run Store.empty =
      (.ok (Sample.tagged Sample.taggedPattern).store.nodes, Sample.tagged Sample.taggedPattern) ∧
    (mergeStatement Sample.taggedPattern "m").run (Sample.tagged Sample.taggedPattern).store =
      (.ok (Sample.tagged Sample.taggedPattern).store.nodes,
        ⟨(Sample.tagged Sample.taggedPattern).store, .zero⟩) := by
  have hparse : parse "MERGE (m:x \x7btags:['a']\x7d) RETURN m" =
      .ok (mergeStatement Sample.taggedPattern "m") := by decide +kernel
  have hrun : (mergeStatement Sample.taggedPattern "m").run Store.empty =
      (.ok (Sample.tagged Sample.taggedPattern).store.nodes, Sample.tagged Sample.taggedPattern) :=
    rfl
  have hnone : Sample.taggedPattern.HoldsNoNull := by
    simp [NodePattern.HoldsNoNull, Sample.taggedPattern, Dict.insertEntry, Dict.empty,
      PropertyValue.holdsNull, PropertyValue.someHoldsNull]
  exact ⟨hparse, hrun, ((merge_again hparse List.mem_cons_self).1 "m" _ _ _ hrun).2 hnone⟩

/-- A merge of a list with a null in it makes another node in each run and in each row. -/
theorem merge_again_untagged :
    parse "MERGE (m:x \x7btags:[null]\x7d) RETURN m" =
      .ok (mergeStatement Sample.untaggedPattern "m") ∧
    (mergeStatement Sample.untaggedPattern "m").run Store.empty =
      (.ok (Sample.tagged Sample.untaggedPattern).store.nodes,
        Sample.tagged Sample.untaggedPattern) ∧
    ((mergeStatement Sample.untaggedPattern "m").run
      (Sample.tagged Sample.untaggedPattern).store).2.store.nodeCount = 2 ∧
    Sample.pair.nodeCount = 2 ∧
    (Dialect.execute "MATCH (n:y) MERGE (m:x \x7btags:[null]\x7d) RETURN m"
      Sample.pair).2.nodeCount = 4 :=
  ⟨by decide +kernel, rfl, rfl, by decide +kernel, by decide +kernel⟩

end RecordGraph
