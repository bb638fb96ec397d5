import RecordGraph.Proofs.Scoping

/-!
Meaning of matches. A statement of matches alone leaves one row for each way to assign
nodes to its variables under which every pattern holds, in the order of the nodes' ids,
those of the variable that occurs first coming first. It changes nothing, and reads are
just these statements.
-/

namespace RecordGraph

open Dialect

def Store.Ascending (s : Store) : Prop :=
  s.nodes.Pairwise fun m n => m.id < n.id

/-- The node has every label of a pattern, and a value that agrees with each of its properties. -/
structure Node.Satisfies (n : Node) (p : NodePattern) : Prop where
  labels : ∀ label ∈ p.labels, label ∈ n.labels
  properties : ∀ e ∈ p.properties.entries, ∃ v, n.property? e.1 = some v ∧ v.agrees e.2 = true

theorem Node.fits_iff {n : Node} {p : NodePattern} :
    n.fits p.labels p.properties = true ↔ n.Satisfies p := by
  simp only [fits, Bool.and_eq_true, List.all_eq_true, hasLabel, List.contains_iff_mem,
    Option.any_eq_true]
  exact ⟨fun h => ⟨h.1, h.2⟩, fun h => ⟨h.1, h.2⟩⟩

namespace Store

theorem WellFormed.ascending {s : Store} (h : s.WellFormed) : s.Ascending := by
  have hids : (s.nodes.map (·.id)).Pairwise (· < ·) := h.nodeIds ▸ List.pairwise_lt_range
  exact List.pairwise_map.1 hids

variable {s : Store} {p : NodePattern}

theorem mem_findNodes {id : Nat} :
    id ∈ s.findNodes p.labels p.properties ↔ ∃ n ∈ s.nodes, n.Satisfies p ∧ n.id = id := by
  simp [findNodes, Node.fits_iff, and_assoc]

theorem Ascending.pairwise_findNodes (h : s.Ascending) :
    (s.findNodes p.labels p.properties).Pairwise (· < ·) :=
  List.pairwise_map.2 (h.filter _)

theorem Ascending.node?_eq (h : s.Ascending) {n : Node} (hn : n ∈ s.nodes) :
    s.node? n.id = some n := by
  have hnodup : (s.nodes.map (·.id)).Nodup := List.pairwise_map.2 (h.imp Nat.ne_of_lt)
  have hfound : (s.node? n.id).isSome = true := List.find?_isSome.2 ⟨n, hn, decide_eq_true rfl⟩
  obtain ⟨m, hm⟩ := Option.isSome_iff_exists.1 hfound
  have hid : m.id = n.id := by simpa using List.find?_some hm
  rw [hm, List.inj_on_of_nodup_map hnodup (List.mem_of_find?_eq_some hm) hn hid]

end Store

namespace Dialect

namespace Row

def vars (row : Row) : List String := row.map (·.1)

def ids (row : Row) : List Nat := row.map (·.2)

@[simp] theorem vars_bind (row : Row) (var : String) (id : Nat) :
    (row.bind var id).vars = row.vars ++ [var] := by
  simp [vars, bind]

@[simp] theorem ids_bind (row : Row) (var : String) (id : Nat) :
    (row.bind var id).ids = row.ids ++ [id] := by
  simp [ids, bind]

theorem node?_eq_none_iff {row : Row} {var : String} : row.node? var = none ↔ var ∉ row.vars := by
  rw [node?, List.lookup_eq_none_iff]
  simp only [vars, List.mem_map, bne_iff_ne, ne_eq, not_exists, not_and]
  exact forall₂_congr fun e _ => not_congr eq_comm

theorem eq_bind_of_vars {row : Row} {vars : List String} {var : String}
    (h : row.vars = vars ++ [var]) : ∃ (shorter : Row) (id : Nat),
      shorter.vars = vars ∧ row = shorter.bind var id := by
  obtain ⟨shorter, last, rfl, hvars, hlast⟩ := List.map_eq_append_iff.1 h
  obtain ⟨e, rfl, rfl⟩ := List.map_eq_singleton_iff.1 hlast
  exact ⟨shorter, e.2, hvars, rfl⟩

end Row

def boundVars (cs : List Clause) : List String :=
  (cs.filterMap Clause.binds?).eraseDups

section Variables

variable {cs : List Clause} {p : NodePattern}

theorem filterMap_binds?_concat : (cs ++ [Clause.matchNode p]).filterMap Clause.binds? =
    cs.filterMap Clause.binds? ++ [p.var] := by
  rw [List.filterMap_append]
  rfl

theorem boundVars_concat_of_mem (h : p.var ∈ boundVars cs) :
    boundVars (cs ++ [Clause.matchNode p]) = boundVars cs := by
  rw [boundVars, filterMap_binds?_concat, eraseDups_concat_of_mem (List.mem_eraseDups.1 h)]
  rfl

theorem boundVars_concat_of_notMem (h : p.var ∉ boundVars cs) :
    boundVars (cs ++ [Clause.matchNode p]) = boundVars cs ++ [p.var] := by
  rw [boundVars, filterMap_binds?_concat,
    eraseDups_concat_of_notMem (mt List.mem_eraseDups.2 h)]
  rfl

theorem var_mem_boundVars (h : .matchNode p ∈ cs) : p.var ∈ boundVars cs :=
  List.mem_eraseDups.2 (List.mem_filterMap.2 ⟨_, h, rfl⟩)

end Variables

/-- The row binds the variable of a pattern to a node of the store of which the pattern holds. -/
def Row.Fits (row : Row) (p : NodePattern) (store : Store) : Prop :=
  ∃ n ∈ store.nodes, row.node? p.var = some n.id ∧ n.Satisfies p

/-- The row assigns nodes to just the variables of the clauses, and every pattern holds of them. -/
structure Assigns (store : Store) (cs : List Clause) (row : Row) : Prop where
  vars : row.vars = boundVars cs
  fits : ∀ p, .matchNode p ∈ cs → row.Fits p store

/-- The rows are all assignments, each once, ordered by the ids of the nodes. -/
structure Answers (store : Store) (cs : List Clause) (rows : List Row) : Prop where
  mem_iff : ∀ row, row ∈ rows ↔ Assigns store cs row
  sorted : rows.Pairwise fun row row' => row.ids < row'.ids

section Assignments

variable {store : Store} {cs : List Clause} {p : NodePattern} {row : Row}

theorem fits_concat_iff :
    (∀ q, .matchNode q ∈ cs ++ [Clause.matchNode p] → row.Fits q store) ↔
      (∀ q, .matchNode q ∈ cs → row.Fits q store) ∧ row.Fits p store := by
  simp only [List.mem_append, List.mem_singleton, Clause.matchNode.injEq, or_imp, forall_and,
    forall_eq]

theorem assigns_concat_of_mem (h : p.var ∈ boundVars cs) :
    Assigns store (cs ++ [Clause.matchNode p]) row ↔ Assigns store cs row ∧ row.Fits p store := by
  have hsame := boundVars_concat_of_mem h
  constructor
  · rintro ⟨hvars, hfits⟩
    rw [fits_concat_iff] at hfits
    exact ⟨⟨hvars.trans hsame, hfits.1⟩, hfits.2⟩
  · rintro ⟨⟨hvars, hfits⟩, hlast⟩
    exact ⟨hvars.trans hsame.symm, fits_concat_iff.2 ⟨hfits, hlast⟩⟩

theorem fits_bind_iff {q : NodePattern} (hq : q.var ≠ p.var) (id : Nat) :
    (row.bind p.var id).Fits q store ↔ row.Fits q store := by
  simp only [Row.Fits, Row.node?_bind_of_ne hq]

theorem assigns_concat_of_notMem (h : p.var ∉ boundVars cs) :
    Assigns store (cs ++ [Clause.matchNode p]) row ↔
      ∃ shorter, Assigns store cs shorter ∧
        ∃ id ∈ store.findNodes p.labels p.properties, row = shorter.bind p.var id := by
  have hne : ∀ q, .matchNode q ∈ cs → q.var ≠ p.var := fun q hq e =>
    h (e ▸ var_mem_boundVars hq)
  have hlonger := boundVars_concat_of_notMem h
  constructor
  · rintro ⟨hvars, hfits⟩
    obtain ⟨shorter, id, hshorter, rfl⟩ :=
      Row.eq_bind_of_vars (hvars.trans hlonger)
    obtain ⟨hfits, n, hn, hbound, hlast⟩ := fits_concat_iff.1 hfits
    rw [Row.node?_bind_self (Row.node?_eq_none_iff.2 (hshorter ▸ h))] at hbound
    refine ⟨shorter, ⟨hshorter, fun q hq => (fits_bind_iff (hne q hq) id).1 (hfits q hq)⟩, id, ?_,
      rfl⟩
    exact Store.mem_findNodes.2 ⟨n, hn, hlast, (Option.some.inj hbound).symm⟩
  · rintro ⟨shorter, ⟨hshorter, hfits⟩, id, hid, rfl⟩
    obtain ⟨n, hn, hlast, rfl⟩ := Store.mem_findNodes.1 hid
    have hnone : shorter.node? p.var = none := Row.node?_eq_none_iff.2 (hshorter ▸ h)
    refine ⟨by rw [Row.vars_bind, hshorter, hlonger],
      fits_concat_iff.2 ⟨fun q hq => (fits_bind_iff (hne q hq) n.id).2 (hfits q hq), ?_⟩⟩
    exact ⟨n, hn, Row.node?_bind_self hnone n.id, hlast⟩

end Assignments

theorem append_lt_append {a b : List Nat} (hlength : a.length = b.length) (h : a < b)
    (x y : List Nat) : a ++ x < b ++ y := by
  induction a generalizing b with
  | nil =>
    obtain rfl := List.length_eq_zero_iff.1 hlength.symm
    exact absurd h (List.lt_irrefl _)
  | cons c a ih =>
    cases b with
    | nil => simp at hlength
    | cons d b =>
      rw [List.cons_lt_cons_iff] at h
      rw [List.cons_append, List.cons_append, List.cons_lt_cons_iff]
      exact h.imp_right fun ⟨heq, hlt⟩ => ⟨heq, ih (Nat.succ.inj hlength) hlt⟩

namespace Answers

variable {store : Store} {cs : List Clause} {rows : List Row}

theorem nil (store : Store) : Answers store [] [[]] := by
  refine ⟨fun row => ⟨?_, ?_⟩, List.pairwise_singleton _ _⟩
  · intro hrow
    obtain rfl := List.mem_singleton.1 hrow
    exact ⟨rfl, by simp⟩
  · rintro ⟨hvars, -⟩
    exact List.mem_singleton.2 (List.map_eq_nil_iff.1 hvars)

theorem nodup (h : Answers store cs rows) : rows.Nodup :=
  h.sorted.imp fun {row row'} (hlt : row.ids < row'.ids) (heq : row = row') =>
    List.lt_irrefl _ (heq ▸ hlt)

theorem length_ids (h : Answers store cs rows) {row row' : Row} (hrow : row ∈ rows)
    (hrow' : row' ∈ rows) : row.ids.length = row'.ids.length := by
  have hvars := ((h.mem_iff row).1 hrow).vars.trans ((h.mem_iff row').1 hrow').vars.symm
  simpa [Row.vars, Row.ids] using congrArg List.length hvars

theorem node?_isSome_iff (h : Answers store cs rows) {row : Row} (hrow : row ∈ rows)
    (var : String) : (row.node? var).isSome = true ↔ var ∈ boundVars cs := by
  rw [← ((h.mem_iff row).1 hrow).vars, Option.isSome_iff_ne_none, ne_eq, Row.node?_eq_none_iff,
    not_not]

theorem matchRow_of_mem (h : Answers store cs rows) {p : NodePattern} (hvar : p.var ∈ boundVars cs)
    {row : Row} (hrow : row ∈ rows) {row' : Row} :
    row' ∈ matchRow p.var (store.findNodes p.labels p.properties) row ↔
      row' = row ∧ row.Fits p store := by
  obtain ⟨id, hid⟩ := Option.isSome_iff_exists.1 ((h.node?_isSome_iff hrow p.var).2 hvar)
  have hfits : row.Fits p store ↔ id ∈ store.findNodes p.labels p.properties := by
    simp only [Row.Fits, hid, Option.some.injEq, Store.mem_findNodes, and_comm, eq_comm]
  rw [hfits]
  by_cases hfound : id ∈ store.findNodes p.labels p.properties <;> simp [matchRow, hid, hfound]

theorem matchRows (h : Answers store cs rows) (hstore : store.Ascending) (p : NodePattern) :
    Answers store (cs ++ [Clause.matchNode p]) (matchRows p store rows) := by
  by_cases hvar : p.var ∈ boundVars cs
  · have hmem : ∀ row ∈ rows, ∀ row',
        row' ∈ matchRow p.var (store.findNodes p.labels p.properties) row ↔
          row' = row ∧ row.Fits p store := fun row hrow row' => h.matchRow_of_mem hvar hrow
    constructor
    · intro row'
      rw [Dialect.matchRows, List.mem_flatMap, assigns_concat_of_mem hvar, ← h.mem_iff]
      constructor
      · rintro ⟨row, hrow, hrow'⟩
        obtain ⟨rfl, hfits⟩ := (hmem row hrow row').1 hrow'
        exact ⟨hrow, hfits⟩
      · rintro ⟨hrow', hfits⟩
        exact ⟨row', hrow', (hmem row' hrow' row').2 ⟨rfl, hfits⟩⟩
    · -- Each row is kept or dropped, so the order of those that are left is the old one.
      rw [Dialect.matchRows, List.pairwise_flatMap]
      constructor
      · intro row hrow
        unfold matchRow
        split
        · split <;> simp
        · rename_i hnone
          exact absurd ((h.node?_isSome_iff hrow p.var).2 hvar) (by simp [hnone])
      · refine h.sorted.imp_of_mem fun {row row'} hrow hrow' hlt x hx y hy => ?_
        obtain ⟨rfl, -⟩ := (hmem row hrow x).1 hx
        obtain ⟨rfl, -⟩ := (hmem row' hrow' y).1 hy
        exact hlt
  · have hrows : ∀ row ∈ rows, matchRow p.var (store.findNodes p.labels p.properties) row =
        (store.findNodes p.labels p.properties).map (row.bind p.var) := fun row hrow => by
      refine matchRow_of_unbound ?_ _
      rw [← Option.not_isSome_iff_eq_none, h.node?_isSome_iff hrow]
      exact hvar
    rw [Dialect.matchRows, List.flatMap_congr hrows]
    constructor
    · intro row'
      rw [List.mem_flatMap, assigns_concat_of_notMem hvar]
      simp only [List.mem_map, h.mem_iff, eq_comm]
    · rw [List.pairwise_flatMap]
      constructor
      · intro row _
        rw [List.pairwise_map]
        refine hstore.pairwise_findNodes.imp fun hlt => ?_
        rw [Row.ids_bind, Row.ids_bind]
        exact List.append_left_lt (List.cons_lt_cons_iff.2 (.inl hlt))
      · refine h.sorted.imp_of_mem fun {row row'} hrow hrow' hlt x hx y hy => ?_
        obtain ⟨id, -, rfl⟩ := List.mem_map.1 hx
        obtain ⟨id', -, rfl⟩ := List.mem_map.1 hy
        rw [Row.ids_bind, Row.ids_bind]
        exact append_lt_append (h.length_ids hrow hrow') hlt _ _

theorem runClauses (h : Answers store cs rows) (hstore : store.Ascending) {more : List Clause}
    (hmore : ∀ c ∈ more, c.isMatch = true) (stats : Stats) :
    ∃ rows', Dialect.runClauses more rows ⟨store, stats⟩ = (.ok rows', ⟨store, stats⟩) ∧
      Answers store (cs ++ more) rows' := by
  induction more generalizing cs rows with
  | nil => exact ⟨rows, rfl, by rwa [List.append_nil]⟩
  | cons c more ih =>
    obtain ⟨hc, hrest⟩ := List.forall_mem_cons.1 hmore
    cases c with
    | matchNode p =>
      obtain ⟨rows', hrun, hanswers⟩ := ih (h.matchRows hstore p) hrest
      rw [List.append_assoc] at hanswers
      exact ⟨rows', by simpa [Dialect.runClauses, Clause.run] using hrun, hanswers⟩
    | _ => simp [Clause.isMatch] at hc

end Answers

theorem Clause.exists_of_isMatch {c : Clause} (h : c.isMatch = true) : ∃ p, c = .matchNode p := by
  cases c with
  | matchNode p => exact ⟨p, rfl⟩
  | _ => cases h

theorem returned_of_unbound {var : String} {row : Row} (h : row.node? var = none) (store : Store)
    (rest : List Row) : returned var store (row :: rest) = .error (.unbound var) := by
  simp only [returned, bound, h]
  rfl

def MissesVar (cs : List Clause) (rows : List Row) (var : String) : Prop :=
  var ∉ boundVars cs ∧ rows ≠ []

section Returned

variable {store : Store} {cs : List Clause} {rows : List Row} {var : String}

theorem Answers.returned_of_missing (h : Answers store cs rows) (hmissing : MissesVar cs rows var) :
    returned var store rows = .error (.unbound var) := by
  obtain ⟨hvar, hrows⟩ := hmissing
  obtain ⟨row, rest, rfl⟩ := List.exists_cons_of_ne_nil hrows
  refine returned_of_unbound ?_ store rest
  rw [← Option.not_isSome_iff_eq_none, h.node?_isSome_iff List.mem_cons_self]
  exact hvar

theorem Answers.reaches (h : Answers store cs rows) (hstore : store.Ascending)
    (hmatches : ∀ c ∈ cs, c.isMatch = true) (hvar : var ∈ boundVars cs) {row : Row}
    (hrow : row ∈ rows) : row.Reaches var store := by
  obtain ⟨c, hc, hbinds⟩ := List.mem_filterMap.1 (List.mem_eraseDups.1 hvar)
  obtain ⟨p, rfl⟩ := Clause.exists_of_isMatch (hmatches c hc)
  obtain rfl : p.var = var := Option.some.inj hbinds
  obtain ⟨n, hn, hid, -⟩ := ((h.mem_iff row).1 hrow).fits p hc
  exact ⟨n.id, hid, by rw [hstore.node?_eq hn]; rfl⟩

theorem Answers.returned_of_not_missing (h : Answers store cs rows) (hstore : store.Ascending)
    (hmatches : ∀ c ∈ cs, c.isMatch = true) (hbound : ¬MissesVar cs rows var) :
    ∃ nodes, returned var store rows = .ok nodes ∧
      List.Forall₂ (fun row n => row.node? var = some n.id ∧ n ∈ store.nodes) rows nodes := by
  have hvar : ∀ row ∈ rows, var ∈ boundVars cs := fun row hrow => by
    by_contra hvar
    exact hbound ⟨hvar, List.ne_nil_of_mem hrow⟩
  have hreaches : ∀ row ∈ rows, row.Reaches var store := fun row hrow =>
    h.reaches hstore hmatches (hvar row hrow) hrow
  obtain ⟨nodes, hnodes, hpairs⟩ := returned_of_reaches hreaches
  exact ⟨nodes, hnodes, hpairs.imp fun _ _ ⟨hid, hnode⟩ => ⟨hid, List.mem_of_find?_eq_some hnode⟩⟩

end Returned

/-- The statement leaves these rows on a store and the store as it is, the rows are the answers to
its clauses, each once, and the nodes that it returns are those of the rows. -/
structure Statement.Answered (s : Statement) (store : Store) (rows : List Row) : Prop where
  run : runClauses s.clauses [[]] ⟨store, .zero⟩ = (.ok rows, ⟨store, .zero⟩)
  answers : Answers store s.clauses rows
  nodup : rows.Nodup
  unchanged : (s.run store).2 = ⟨store, .zero⟩
  unbound_iff : (s.run store).1 = .error (.unbound s.returns) ↔ MissesVar s.clauses rows s.returns
  nodes : ¬MissesVar s.clauses rows s.returns → ∃ nodes, (s.run store).1 = .ok nodes ∧
    List.Forall₂ (fun row n => row.node? s.returns = some n.id ∧ n ∈ store.nodes) rows nodes

theorem Statement.answered_of_matches {s : Statement} {store : Store} (hstore : store.Ascending)
    (hmatches : ∀ c ∈ s.clauses, c.isMatch = true) : ∃ rows, s.Answered store rows := by
  obtain ⟨rows, hrun, hanswers⟩ := (Answers.nil store).runClauses hstore hmatches .zero
  have hresult : s.run store = (returned s.returns store rows, ⟨store, .zero⟩) := by
    rw [Statement.run, hrun]
  have hok : ¬MissesVar s.clauses rows s.returns → ∃ nodes, returned s.returns store rows =
      .ok nodes ∧ List.Forall₂ (fun row n => row.node? s.returns = some n.id ∧ n ∈ store.nodes)
        rows nodes := hanswers.returned_of_not_missing hstore hmatches
  refine ⟨rows, hrun, hanswers, hanswers.nodup, by rw [hresult], ?_, by rw [hresult]; exact hok⟩
  rw [hresult]
  constructor
  · intro herror
    by_contra h
    obtain ⟨nodes, hnodes, -⟩ := hok h
    simp [hnodes] at herror
  · exact hanswers.returned_of_missing

theorem executeRead_of_parse {text : String} {s : Statement} (hparse : parse text = .ok s)
    {store : Store} (hstore : store.Ascending) :
    (executeRead text store = .error .notReadOnly ↔ ∃ c ∈ s.clauses, c.isMatch = false) ∧
    ((∀ c ∈ s.clauses, c.isMatch = true) →
      execute text store = (executeRead text store, store)) := by
  have hread : (∀ c ∈ s.clauses, c.isMatch = true) → executeRead text store = (s.run store).1 :=
    fun hmatches => by
      simp only [executeRead, hparse, Statement.isReadOnly, List.all_eq_true.2 hmatches, if_true]
  constructor
  · constructor
    · intro hrefused
      by_contra hnone
      have hmatches : ∀ c ∈ s.clauses, c.isMatch = true := by simpa using hnone
      obtain ⟨rows, hrows⟩ := s.answered_of_matches hstore hmatches
      rw [hread hmatches] at hrefused
      by_cases hmissing : MissesVar s.clauses rows s.returns
      · simp [hrows.unbound_iff.2 hmissing] at hrefused
      · obtain ⟨nodes, hnodes, -⟩ := hrows.nodes hmissing
        simp [hnodes] at hrefused
    · rintro ⟨c, hc, hwrites⟩
      have hnot : s.isReadOnly = false := List.all_eq_false.2 ⟨c, hc, by simp [hwrites]⟩
      simp only [executeRead, hparse, hnot, Bool.false_eq_true, if_false]
  · intro hmatches
    obtain ⟨rows, hrows⟩ := s.answered_of_matches hstore hmatches
    simp only [execute, hparse, hread hmatches, hrows.unchanged]

/-- A statement of matches returns the nodes of its answers and leaves the store as it is; a text
read is a syntax error, is refused because a clause may write, or is executed as it would be
otherwise, to no change. -/
theorem matches_answered {store : Store} (hstore : store.Ascending) :
    (∀ s : Statement, (∀ c ∈ s.clauses, c.isMatch = true) → ∃ rows, s.Answered store rows) ∧
    ∀ text, (∃ e, parse text = .error e ∧ executeRead text store = .error (.parse e)) ∨
      ∃ s, parse text = .ok s ∧
        (executeRead text store = .error .notReadOnly ↔ ∃ c ∈ s.clauses, c.isMatch = false) ∧
        ((∀ c ∈ s.clauses, c.isMatch = true) →
          execute text store = (executeRead text store, store)) := by
  refine ⟨fun s hmatches => s.answered_of_matches hstore hmatches, fun text => ?_⟩
  cases hparse : parse text with
  | error e => exact .inl ⟨e, rfl, by simp only [executeRead, hparse]⟩
  | ok s => exact .inr ⟨s, rfl, executeRead_of_parse hparse hstore⟩

end Dialect

namespace Sample

def stops : Store :=
  (execute ("MERGE (a:stop \x7bzone:1\x7d) MERGE (b:stop \x7bzone:2\x7d) " ++
    "MERGE (c:depot \x7bzone:1\x7d) RETURN a") Store.empty).2

def pairingText : String :=
  "MATCH (b \x7bzone:1\x7d) MATCH (a:stop) MATCH (b) RETURN a"

def pairing : Statement :=
  ⟨[.matchNode ⟨"b", [], Dict.ofList [("zone", .integer 1)]⟩,
    .matchNode ⟨"a", ["stop"], Dict.empty⟩, .matchNode ⟨"b", [], Dict.empty⟩], "a"⟩

end Sample

theorem matches_answered_stops : Sample.stops.Ascending ∧
    parse Sample.pairingText = .ok Sample.pairing ∧
    Sample.pairing.Answered Sample.stops
      [[("b", 0), ("a", 0)], [("b", 0), ("a", 1)], [("b", 2), ("a", 0)], [("b", 2), ("a", 1)]] ∧
    execute Sample.pairingText Sample.stops =
      (executeRead Sample.pairingText Sample.stops, Sample.stops) := by
  have hstore : Sample.stops.Ascending :=
    (Store.Reachable.execute .empty _).wellFormed.ascending
  have hparse : parse Sample.pairingText = .ok Sample.pairing := by decide +kernel
  have hclauses : ∀ c ∈ Sample.pairing.clauses, c.isMatch = true := by decide
  obtain ⟨hmatches, hreads⟩ := matches_answered hstore
  obtain ⟨rows, hanswered⟩ := hmatches Sample.pairing hclauses
  have hrows : (runClauses Sample.pairing.clauses [[]] ⟨Sample.stops, .zero⟩).1 =
      .ok [[("b", 0), ("a", 0)], [("b", 0), ("a", 1)], [("b", 2), ("a", 0)],
        [("b", 2), ("a", 1)]] := by decide +kernel
  rw [hanswered.run] at hrows
  obtain rfl := Except.ok.inj hrows
  rcases hreads Sample.pairingText with ⟨e, herror, -⟩ | ⟨s, hs, -, hexecute⟩
  · simp [hparse] at herror
  · obtain rfl := Except.ok.inj (hparse.symm.trans hs)
    exact ⟨hstore, hparse, hanswered, hexecute hclauses⟩

end RecordGraph
