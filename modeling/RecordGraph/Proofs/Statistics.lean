import RecordGraph.Proofs.Assignments

/-!
Statistics of execution. Whatever statements an executor is given and wherever they fail, its
store is the one that it was made on after as many creations of nodes and of edges as it has
counted, and after one assignment for each set clause and row for which it has counted one.
-/

namespace RecordGraph

namespace Dialect

/-- One change that execution makes to a store. -/
inductive Change where
  | node (labels : List String) (properties : PropertyMap)
  | edge (source target : Nat) (type : String)
  | property (item : Assignment) (row : Row)

namespace Change

def isNode : Change → Bool
  | node _ _ => true
  | _ => false

def isEdge : Change → Bool
  | edge _ _ _ => true
  | _ => false

def setting? : Change → Option (Assignment × Row)
  | property item row => some (item, row)
  | _ => none

/-- The change leads from one store to another. -/
inductive Makes : Change → Store → Store → Prop
  | node (s : Store) (labels : List String) (properties : PropertyMap) :
      Makes (.node labels properties) s (s.createNode labels properties).2
  | edge {s s' : Store} {id source target : Nat} {type : String}
      (h : s.createEdge source target type = .ok (id, s')) : Makes (.edge source target type) s s'
  | property {s s' : Store} {item : Assignment} {row : Row} {id : Nat}
      (hrow : row.node? item.var = some id) (h : s.setProperty id item.key item.value = .ok s') :
      Makes (.property item row) s s'

theorem Makes.nodeCount {c : Change} {s s' : Store} (h : c.Makes s s') :
    s'.nodeCount = s.nodeCount + [c].countP isNode := by
  cases h with
  | node labels properties => simp [isNode]
  | edge hcreate =>
    obtain ⟨-, -, rfl⟩ := Store.createEdge_eq_ok hcreate
    simp [Store.nodeCount, isNode]
  | property hrow hset =>
    obtain rfl := Store.setProperty_eq_ok hset
    simp [Store.nodeCount, isNode]

theorem Makes.edgeCount {c : Change} {s s' : Store} (h : c.Makes s s') :
    s'.edgeCount = s.edgeCount + [c].countP isEdge := by
  cases h with
  | node labels properties => simp [Store.edgeCount, Store.createNode, isEdge]
  | edge hcreate =>
    obtain ⟨-, -, rfl⟩ := Store.createEdge_eq_ok hcreate
    simp [Store.edgeCount, isEdge]
  | property hrow hset =>
    obtain rfl := Store.setProperty_eq_ok hset
    simp [Store.edgeCount, isEdge]

end Change

/-- Changes that lead from one store to another, one after the other. -/
inductive Trace : Store → List Change → Store → Prop
  | nil (s : Store) : Trace s [] s
  | cons {s s' s'' : Store} {c : Change} {cs : List Change} (h : c.Makes s s')
      (rest : Trace s' cs s'') : Trace s (c :: cs) s''

namespace Trace

variable {s s' s'' : Store} {cs ds : List Change}

theorem append (h : Trace s cs s') (h' : Trace s' ds s'') : Trace s (cs ++ ds) s'' := by
  induction h with
  | nil => exact h'
  | cons hmakes _ ih => exact .cons hmakes (ih h')

theorem nodeCount (h : Trace s cs s') : s'.nodeCount = s.nodeCount + cs.countP Change.isNode := by
  induction h with
  | nil => rfl
  | @cons s s' s'' c cs hmakes _ ih =>
    rw [ih, hmakes.nodeCount, Nat.add_assoc, ← List.countP_append, List.singleton_append]

theorem edgeCount (h : Trace s cs s') : s'.edgeCount = s.edgeCount + cs.countP Change.isEdge := by
  induction h with
  | nil => rfl
  | @cons s s' s'' c cs hmakes _ ih =>
    rw [ih, hmakes.edgeCount, Nat.add_assoc, ← List.countP_append, List.singleton_append]

end Trace

def Stats.plus (stats : Stats) (cs : List Change) : Stats :=
  ⟨stats.nodesCreated + cs.countP Change.isNode,
    stats.relationshipsCreated + cs.countP Change.isEdge,
    stats.propertiesSet + (cs.filterMap Change.setting?).length⟩

theorem Stats.plus_append (stats : Stats) (cs ds : List Change) :
    stats.plus (cs ++ ds) = (stats.plus cs).plus ds := by
  simp only [plus, List.countP_append, List.filterMap_append, List.length_append, Nat.add_assoc]

theorem Stats.eq_nil_of_plus_zero {cs : List Change} (h : Stats.zero.plus cs = .zero) :
    cs = [] := by
  cases cs with
  | nil => rfl
  | cons c cs => cases c <;> simp [plus, zero, Change.isNode, Change.isEdge, Change.setting?] at h

def Accounted (settings : List (Assignment × Row)) (g g' : Progress) : Prop :=
  ∃ cs, Trace g.store cs g'.store ∧ g'.stats = g.stats.plus cs ∧
    cs.filterMap Change.setting? = settings

namespace Accounted

variable {settings more : List (Assignment × Row)} {g g' g'' : Progress}

theorem refl (g : Progress) : Accounted [] g g :=
  ⟨[], .nil _, rfl, rfl⟩

theorem trans (h : Accounted settings g g') (h' : Accounted more g' g'') :
    Accounted (settings ++ more) g g'' := by
  obtain ⟨cs, htrace, hstats, hsettings⟩ := h
  obtain ⟨ds, htrace', hstats', hsettings'⟩ := h'
  refine ⟨cs ++ ds, htrace.append htrace', ?_, ?_⟩
  · rw [hstats', hstats, Stats.plus_append]
  · rw [List.filterMap_append, hsettings, hsettings']

theorem single {c : Change} (h : c.Makes g.store g'.store) (hstats : g'.stats = g.stats.plus [c]) :
    Accounted c.setting?.toList g g' :=
  ⟨[c], .cons h (.nil _), hstats, by cases hc : c.setting? <;> simp [hc]⟩

end Accounted

/-! Merges -/

theorem accounted_findOrCreate (p : NodePattern) (g : Progress) :
    Accounted [] g (findOrCreate p g).2 := by
  unfold findOrCreate
  split
  · exact .single (c := .node p.labels p.properties) (.node g.store _ _) rfl
  · exact .refl g

theorem accounted_mergePattern (p : NodePattern) (rows : List Row) (g : Progress) :
    Accounted [] g (mergePattern p rows g).2 := by
  unfold mergePattern
  split
  · exact .refl g
  · exact progress_mergeNodeRows .refl .trans (accounted_findOrCreate p) rows g

theorem accounted_mergeEdge (p : RelationshipPattern) (left right : Nat) (g : Progress) :
    Accounted [] g (mergeEdge p left right g).2 := by
  unfold mergeEdge
  rcases p.arrow.orient left right with ⟨source, target⟩
  simp only
  split
  · exact .refl g
  · split
    · exact .refl g
    · rename_i id store hcreate
      exact .single (.edge hcreate) rfl

theorem accounted_mergeRelationshipRow (p : RelationshipPattern) (row : Row) (g : Progress) :
    Accounted [] g (mergeRelationshipRow p row g).2 := by
  unfold mergeRelationshipRow
  split
  · exact accounted_mergeEdge p _ _ g
  · exact .refl g
  · exact .refl g

/-! Assignments -/

def Row.hits (row : Row) (var : String) (store : Store) : Bool :=
  (row.node? var).any fun id => (store.node? id).isSome

def Assignment.settings (a : Assignment) (rows : List Row) (store : Store) :
    List (Assignment × Row) :=
  (rows.takeWhile fun row => row.hits a.var store).map fun row => (a, row)

theorem Row.hits_assign (row : Row) (var : String) (store : Store) (id : Nat)
    (entries : List (String × PropertyValue)) :
    row.hits var (store.assign id entries) = row.hits var store := by
  simp only [hits, Store.node?_assign, Option.isSome_map]

theorem setRow_of_not_hits {a : Assignment} {row : Row} {g : Progress}
    (h : row.hits a.var g.store = false) : ∃ e, setRow a row g = (.error e, g) := by
  unfold setRow bound
  cases hrow : row.node? a.var with
  | none => exact ⟨_, rfl⟩
  | some id =>
    have hnone : g.store.node? id = none := by simpa [Row.hits, hrow] using h
    exact ⟨.store (.nodeNotFound id), by simp [Store.setProperty, hnone]⟩

theorem accounted_setRows (a : Assignment) (rows : List Row) (g : Progress) :
    Accounted (a.settings rows g.store) g (eachRow (setRow a) rows g).2 := by
  induction rows generalizing g with
  | nil => exact .refl g
  | cons row rest ih =>
    unfold eachRow
    cases hhits : row.hits a.var g.store with
    | false =>
      obtain ⟨e, hset⟩ := setRow_of_not_hits hhits
      rw [hset, Assignment.settings, List.takeWhile_cons, hhits]
      exact .refl g
    | true =>
      obtain ⟨id, hrow, hid⟩ := (Option.any_eq_true _ _).1 hhits
      have hset := setRow_eq hrow hid
      have hfirst : Accounted [(a, row)] g ⟨g.store.assign id [(a.key, a.value)],
          { g.stats with propertiesSet := g.stats.propertiesSet + 1 }⟩ :=
        .single (.property hrow (Store.setProperty_eq hid a.key a.value)) rfl
      have hsame : a.settings (row :: rest) g.store =
          [(a, row)] ++ a.settings rest (g.store.assign id [(a.key, a.value)]) := by
        simp only [Assignment.settings, List.takeWhile_cons, hhits, if_true, Row.hits_assign,
          List.map_cons, List.singleton_append]
      rw [hset, hsame]
      exact hfirst.trans (ih _)

/-! Statements -/

def Clause.settings (c : Clause) (rows : List Row) (store : Store) : List (Assignment × Row) :=
  match c with
  | .set a => a.settings rows store
  | _ => []

def settings : List Clause → List Row → Progress → List (Assignment × Row)
  | [], _, _ => []
  | c :: rest, rows, g =>
    c.settings rows g.store ++
      match c.run rows g with
      | (.ok rows, g) => settings rest rows g
      | (.error _, _) => []

theorem Clause.accounted_run (c : Clause) (rows : List Row) (g : Progress) :
    Accounted (c.settings rows g.store) g (c.run rows g).2 := by
  cases c with
  | matchNode p => exact .refl g
  | mergeNode p => exact accounted_mergePattern p rows g
  | mergeRelationship p =>
    rw [Clause.run_mergeRelationship]
    exact progress_eachRow .refl .trans (accounted_mergeRelationshipRow p) rows g
  | set a =>
    rw [Clause.run_set]
    exact accounted_setRows a rows g

theorem accounted_runClauses (cs : List Clause) (rows : List Row) (g : Progress) :
    Accounted (settings cs rows g) g (runClauses cs rows g).2 := by
  induction cs generalizing rows g with
  | nil => exact .refl g
  | cons c rest ih =>
    have hclause := c.accounted_run rows g
    unfold runClauses settings
    rcases hresult : c.run rows g with ⟨result, g'⟩
    rw [hresult] at hclause
    cases result with
    | error e => simpa using hclause
    | ok rows' => exact hclause.trans (ih rows' g')

def Statement.after (s : Statement) (g : Progress) : Progress :=
  (runClauses s.clauses [[]] g).2

def afterAll (ss : List Statement) (g : Progress) : Progress :=
  ss.foldl (fun g s => s.after g) g

theorem Statement.run_snd (s : Statement) (store : Store) :
    (s.run store).2 = s.after ⟨store, .zero⟩ := by
  unfold Statement.run Statement.after
  rcases runClauses s.clauses [[]] ⟨store, .zero⟩ with ⟨result, g⟩
  cases result <;> rfl

def allSettings : List Statement → Progress → List (Assignment × Row)
  | [], _ => []
  | s :: rest, g => settings s.clauses [[]] g ++ allSettings rest (s.after g)

theorem accounted_statements (ss : List Statement) (g : Progress) :
    Accounted (allSettings ss g) g (afterAll ss g) := by
  induction ss generalizing g with
  | nil => exact .refl g
  | cons s rest ih => exact (accounted_runClauses s.clauses [[]] g).trans (ih (s.after g))

/-- The statistics of an executor account for what has become of the store that it was made on. -/
structure Progress.AccountsFor (g : Progress) (store : Store)
    (settings : List (Assignment × Row)) : Prop where
  nodes : g.store.nodeCount = store.nodeCount + g.stats.nodesCreated
  edges : g.store.edgeCount = store.edgeCount + g.stats.relationshipsCreated
  properties : g.stats.propertiesSet = settings.length
  unchanged : g.stats = .zero → g.store = store
  changes : ∃ cs, Trace store cs g.store ∧ g.stats = Stats.zero.plus cs ∧
    cs.filterMap Change.setting? = settings

theorem Accounted.accountsFor {store : Store} {settings : List (Assignment × Row)} {g : Progress}
    (h : Accounted settings ⟨store, .zero⟩ g) : g.AccountsFor store settings := by
  obtain ⟨cs, htrace, hstats, hsettings⟩ := h
  refine ⟨?_, ?_, ?_, fun hzero => ?_, cs, htrace, hstats, hsettings⟩
  · rw [htrace.nodeCount, hstats]
    simp [Stats.plus, Stats.zero]
  · rw [htrace.edgeCount, hstats]
    simp [Stats.plus, Stats.zero]
  · rw [hstats, ← hsettings]
    simp [Stats.plus, Stats.zero]
  · obtain rfl := Stats.eq_nil_of_plus_zero (hstats.symm.trans hzero)
    cases htrace
    rfl

/-- The statistics of an executor account for its changes, those of statements that fail too. -/
theorem stats_account (store : Store) :
    (∀ s : Statement,
      (s.run store).2.AccountsFor store (settings s.clauses [[]] ⟨store, .zero⟩)) ∧
    ∀ ss : List Statement,
      (afterAll ss ⟨store, .zero⟩).AccountsFor store (allSettings ss ⟨store, .zero⟩) := by
  constructor
  · intro s
    rw [Statement.run_snd]
    exact (accounted_runClauses s.clauses [[]] ⟨store, .zero⟩).accountsFor
  · intro ss
    exact (accounted_statements ss ⟨store, .zero⟩).accountsFor

end Dialect

end RecordGraph
