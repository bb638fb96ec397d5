import RecordGraph.Proofs.Assignments
import RecordGraph.Proofs.Links
import RecordGraph.Proofs.MergedNode

/-!
Scopes of variables. Where each clause uses variables that are bound, merges a node
only into a new one and writes no null, every row binds just the variables in scope,
each of them to a node of the store. Such a statement cannot fail on any store that is
well-formed.
-/

namespace RecordGraph

open Dialect

theorem Store.Steps.nextNode_le {g g' : Store} (h : g.Steps g') : g.nextNode ≤ g'.nextNode := by
  induction h with
  | refl => exact Nat.le_refl _
  | tail _ hstep ih =>
    refine Nat.le_trans ih ?_
    cases hstep with
    | node => exact Nat.le_succ _
    | edge hcreate =>
      obtain ⟨-, -, rfl⟩ := Store.createEdge_eq_ok hcreate
      exact Nat.le_refl _
    | property hset =>
      obtain rfl := Store.setProperty_eq_ok hset
      exact Nat.le_refl _

theorem Store.WellFormed.isSome_node?_steps {g g' : Store} (hg : g.WellFormed) (h : g.Steps g')
    {id : Nat} (hid : (g.node? id).isSome = true) : (g'.node? id).isSome = true :=
  ((hg.steps h).isSome_node?_iff id).2
    (Nat.lt_of_lt_of_le ((hg.isSome_node?_iff id).1 hid) h.nextNode_le)

theorem Store.WellFormed.isSome_of_mem_findNodes {g : Store} (hg : g.WellFormed)
    {labels : List String} {properties : PropertyMap} {id : Nat}
    (h : id ∈ g.findNodes labels properties) : (g.node? id).isSome = true := by
  obtain ⟨n, hn, rfl⟩ := List.mem_map.1 h
  exact (hg.isSome_node?_iff _).2 (hg.id_lt (List.mem_filter.1 hn).1)

namespace Dialect

def Clause.binds? : Clause → Option String
  | matchNode p | mergeNode p => some p.var
  | mergeRelationship _ | set _ => none

def Clause.Scoped (scope : List String) : Clause → Prop
  | matchNode _ => True
  | mergeNode p => p.var ∉ scope ∧ ∀ e ∈ p.properties.entries, e.2.isNull = false
  | mergeRelationship p => p.left ∈ scope ∧ p.right ∈ scope
  | set a => a.var ∈ scope

def ClausesScoped : List String → List Clause → Prop
  | _, [] => True
  | scope, c :: rest => c.Scoped scope ∧ ClausesScoped (scope ++ c.binds?.toList) rest

structure Statement.Scoped (s : Statement) : Prop where
  clauses : ClausesScoped [] s.clauses
  returns : s.returns ∈ s.clauses.filterMap Clause.binds?

theorem clausesScoped_append {scope : List String} {cs ds : List Clause} :
    ClausesScoped scope (cs ++ ds) ↔
      ClausesScoped scope cs ∧ ClausesScoped (scope ++ cs.filterMap Clause.binds?) ds := by
  induction cs generalizing scope with
  | nil => simp [ClausesScoped]
  | cons c rest ih =>
    rw [List.cons_append, ClausesScoped, ClausesScoped, ih, and_assoc, List.append_assoc]
    cases hc : c.binds? <;> simp [hc]

theorem clausesScoped_of_forall {scope : List String} {cs : List Clause}
    (h : ∀ c ∈ cs, ∀ wider, scope ⊆ wider → c.Scoped wider) : ClausesScoped scope cs := by
  induction cs generalizing scope with
  | nil => trivial
  | cons c rest ih =>
    obtain ⟨hc, hrest⟩ := List.forall_mem_cons.1 h
    refine ⟨hc scope (List.Subset.refl _), ih fun d hd wider hwider => hrest d hd wider ?_⟩
    exact fun _ hvar => hwider (List.mem_append_left _ hvar)

/-- The row binds the variables of a scope, each to a node of the store, and no others. -/
structure Row.Covers (row : Row) (scope : List String) (g : Store) : Prop where
  reaches : ∀ var ∈ scope, row.Reaches var g
  unbound : ∀ var, var ∉ scope → row.node? var = none

namespace Row.Covers

variable {row : Row} {scope : List String} {g : Store}

theorem steps (h : row.Covers scope g) (hg : g.WellFormed) {g' : Store} (hsteps : g.Steps g') :
    row.Covers scope g' := by
  refine ⟨fun var hvar => ?_, h.unbound⟩
  obtain ⟨id, hid, hnode⟩ := h.reaches var hvar
  exact ⟨id, hid, hg.isSome_node?_steps hsteps hnode⟩

theorem bind (h : row.Covers scope g) {var : String} (hvar : var ∉ scope) {id : Nat}
    (hid : (g.node? id).isSome = true) : (row.bind var id).Covers (scope ++ [var]) g := by
  have hnone := h.unbound var hvar
  constructor
  · intro other hother
    rcases List.mem_append.1 hother with hother | hother
    · have hne : other ≠ var := fun e => hvar (e ▸ hother)
      obtain ⟨n, hn, hnode⟩ := h.reaches other hother
      exact ⟨n, (Row.node?_bind_of_ne hne id).trans hn, hnode⟩
    · obtain rfl := List.mem_singleton.1 hother
      exact ⟨id, Row.node?_bind_self hnone id, hid⟩
  · intro other hother
    rw [List.mem_append, List.mem_singleton, not_or] at hother
    rw [Row.node?_bind_of_ne hother.2]
    exact h.unbound other hother.1

theorem append_of_mem (h : row.Covers scope g) {var : String} (hvar : var ∈ scope) :
    row.Covers (scope ++ [var]) g := by
  have hmem : ∀ other, other ∈ scope ++ [var] ↔ other ∈ scope := by
    intro other
    rw [List.mem_append, List.mem_singleton, or_iff_left_iff_imp]
    rintro rfl
    exact hvar
  exact ⟨fun other hother => h.reaches other ((hmem other).1 hother),
    fun other hother => h.unbound other (mt (hmem other).2 hother)⟩

end Row.Covers

/-- The invariant of a run: rows over a well-formed store that all cover the scope. -/
structure Ready (scope : List String) (rows : List Row) (g : Store) : Prop where
  wellFormed : g.WellFormed
  covers : ∀ row ∈ rows, row.Covers scope g

theorem Ready.steps {scope : List String} {rows : List Row} {g g' : Store}
    (h : Ready scope rows g) (hsteps : g.Steps g') : Ready scope rows g' :=
  ⟨h.wellFormed.steps hsteps, fun row hrow => (h.covers row hrow).steps h.wellFormed hsteps⟩

theorem Ready.start {s : Store} (h : s.WellFormed) : Ready [] [[]] s := by
  refine ⟨h, fun row hrow => ?_⟩
  obtain rfl := List.mem_singleton.1 hrow
  exact ⟨by simp, fun _ _ => rfl⟩

variable {scope : List String} {rows : List Row} {g : Progress}

/-! One clause -/

theorem Row.Covers.matchRow {row row' : Row} {var : String} {g : Store} {found : List Nat}
    (h : row.Covers scope g) (hfound : ∀ id ∈ found, (g.node? id).isSome = true)
    (hrow : row' ∈ matchRow var found row) : row'.Covers (scope ++ [var]) g := by
  unfold Dialect.matchRow at hrow
  by_cases hvar : var ∈ scope
  · obtain ⟨id, hid, -⟩ := h.reaches var hvar
    simp only [hid] at hrow
    split at hrow
    · obtain rfl := List.mem_singleton.1 hrow
      exact h.append_of_mem hvar
    · simp at hrow
  · simp only [h.unbound var hvar] at hrow
    obtain ⟨id, hid, rfl⟩ := List.mem_map.1 hrow
    exact h.bind hvar (hfound id hid)

theorem isSome_of_mem_findOrCreate {p : NodePattern} (hg : g.store.WellFormed) :
    ∀ id ∈ (findOrCreate p g).1, ((findOrCreate p g).2.store.node? id).isSome = true := by
  intro id hid
  unfold findOrCreate at hid ⊢
  split at hid
  · obtain rfl := List.mem_singleton.1 hid
    have hcreated := hg.step (.node g.store p.labels p.properties)
    exact (hcreated.isSome_node?_iff _).2 (Nat.lt_succ_self _)
  · exact hg.isSome_of_mem_findNodes hid

theorem Ready.mergeNodeRows {p : NodePattern} (h : Ready scope rows g.store)
    (hvar : p.var ∉ scope) :
    ∃ rows' g', mergeNodeRows p rows g = (.ok rows', g') ∧
      Ready (scope ++ [p.var]) rows' g'.store := by
  induction rows generalizing g with
  | nil => exact ⟨[], g, rfl, h.wellFormed, by simp⟩
  | cons row rest ih =>
    obtain ⟨hrow, hrest⟩ := List.forall_mem_cons.1 h.covers
    have hfound := isSome_of_mem_findOrCreate (p := p) h.wellFormed
    have hsteps := steps_findOrCreate p g
    unfold Dialect.mergeNodeRows
    rw [if_neg (by simp [hrow.unbound p.var hvar])]
    rcases hmade : findOrCreate p g with ⟨found, g₁⟩
    rw [hmade] at hfound hsteps
    have hready : Ready scope rest g₁.store := Ready.steps ⟨h.wellFormed, hrest⟩ hsteps
    obtain ⟨rows', g₂, hmerge, hmerged⟩ := ih hready
    have hlater : g₁.store.Steps g₂.store := by
      have hchanges := rel_mergeNodeRows (fun _ => .refl) (fun h h' => h.trans h')
        (steps_findOrCreate p) rest g₁
      rwa [hmerge] at hchanges
    -- The first row's nodes are there before the later rows run, which take none away.
    refine ⟨found.map (row.bind p.var) ++ rows', g₂, by simp [hmerge], hmerged.wellFormed, ?_⟩
    intro r hr
    rcases List.mem_append.1 hr with hr | hr
    · obtain ⟨id, hid, rfl⟩ := List.mem_map.1 hr
      have hbound := (hrow.steps h.wellFormed hsteps).bind hvar (hfound id hid)
      exact hbound.steps hready.wellFormed hlater
    · exact hmerged.covers r hr

theorem Ready.eachRow {step : Row → Progress → Outcome Unit} (h : Ready scope rows g.store)
    (hchanges : ∀ row g, Outcome.Changes g (step row g))
    (hstep : ∀ row g, g.store.WellFormed → row.Covers scope g.store →
      ∃ g', step row g = (.ok (), g')) :
    ∃ g', eachRow step rows g = (.ok (), g') ∧ g.store.Steps g'.store := by
  induction rows generalizing g with
  | nil => exact ⟨g, rfl, .refl⟩
  | cons row rest ih =>
    obtain ⟨hrow, hrest⟩ := List.forall_mem_cons.1 h.covers
    obtain ⟨g₁, hfirst⟩ := hstep row g h.wellFormed hrow
    have hsteps : g.store.Steps g₁.store := by
      have hchange := hchanges row g
      rwa [hfirst] at hchange
    obtain ⟨g₂, hmore, hlater⟩ := ih (Ready.steps ⟨h.wellFormed, hrest⟩ hsteps)
    exact ⟨g₂, by simp [Dialect.eachRow, hfirst, hmore], hsteps.trans hlater⟩

theorem mergeRelationshipRow_ok {p : RelationshipPattern} {row : Row}
    (hleft : row.Reaches p.left g.store) (hright : row.Reaches p.right g.store) :
    ∃ g', mergeRelationshipRow p row g = (.ok (), g') := by
  obtain ⟨left, hleft, hl⟩ := hleft
  obtain ⟨right, hright, hr⟩ := hright
  obtain ⟨stats, hmerge⟩ := mergeEdge_eq p hl hr
  exact ⟨_, by rw [mergeRelationshipRow, bound_eq hleft, bound_eq hright]; exact hmerge⟩

theorem setRow_ok {a : Assignment} {row : Row} (h : row.Reaches a.var g.store) :
    ∃ g', setRow a row g = (.ok (), g') := by
  obtain ⟨id, hid, hnode⟩ := h
  exact ⟨_, setRow_eq hid hnode⟩

/-- The step lemma: a clause in scope succeeds, and its rows cover the scope that it leaves. -/
theorem Clause.Scoped.run {c : Clause} (hc : c.Scoped scope) (h : Ready scope rows g.store) :
    ∃ rows' g', c.run rows g = (.ok rows', g') ∧
      Ready (scope ++ c.binds?.toList) rows' g'.store := by
  cases c with
  | matchNode p =>
    refine ⟨matchRows p g.store rows, g, rfl, h.wellFormed, fun row' hrow' => ?_⟩
    obtain ⟨row, hrow, hrow'⟩ := List.mem_flatMap.1 hrow'
    exact (h.covers row hrow).matchRow (fun _ => h.wellFormed.isSome_of_mem_findNodes) hrow'
  | mergeNode p =>
    obtain ⟨hvar, hnull⟩ := hc
    obtain ⟨rows', g', hmerge, hready⟩ := h.mergeNodeRows hvar
    exact ⟨rows', g', by rw [Clause.run, mergePattern_eq hnull, hmerge], hready⟩
  | mergeRelationship p =>
    obtain ⟨hleft, hright⟩ := hc
    obtain ⟨g', hrun, hsteps⟩ := h.eachRow (changes_mergeRelationshipRow p) fun _ _ _ hrow =>
      mergeRelationshipRow_ok (hrow.reaches _ hleft) (hrow.reaches _ hright)
    refine ⟨rows, g', by rw [Clause.run_mergeRelationship, hrun]; rfl, ?_⟩
    simpa [binds?] using h.steps hsteps
  | set a =>
    obtain ⟨g', hrun, hsteps⟩ := h.eachRow (changes_setRow a) fun _ _ _ hrow =>
      setRow_ok (hrow.reaches _ hc)
    refine ⟨rows, g', by rw [Clause.run_set, hrun]; rfl, ?_⟩
    simpa [binds?] using h.steps hsteps

/-! Whole statements -/

theorem ClausesScoped.run {cs : List Clause} (hcs : ClausesScoped scope cs)
    (h : Ready scope rows g.store) :
    ∃ rows' g', runClauses cs rows g = (.ok rows', g') ∧
      Ready (scope ++ cs.filterMap Clause.binds?) rows' g'.store := by
  induction cs generalizing scope rows g with
  | nil => exact ⟨rows, g, rfl, by simpa using h⟩
  | cons c rest ih =>
    obtain ⟨hc, hrest⟩ := hcs
    obtain ⟨rows₁, g₁, hfirst, hready⟩ := hc.run h
    obtain ⟨rows₂, g₂, hmore, hready⟩ := ih hrest hready
    refine ⟨rows₂, g₂, by simp [runClauses, hfirst, hmore], ?_⟩
    rw [List.append_assoc] at hready
    cases hc : c.binds? <;> simpa [hc] using hready

theorem Statement.Scoped.run {s : Statement} (hs : s.Scoped) {g : Store} (hg : g.WellFormed) :
    ∃ nodes, (s.run g).1 = .ok nodes := by
  obtain ⟨rows, g', hrun, hready⟩ := hs.clauses.run (g := ⟨g, .zero⟩) (.start hg)
  rw [List.nil_append] at hready
  obtain ⟨nodes, hnodes, -⟩ := returned_of_reaches fun row hrow =>
    (hready.covers row hrow).reaches _ hs.returns
  exact ⟨nodes, by simp [Statement.run, hrun, hnodes]⟩

end Dialect

end RecordGraph
