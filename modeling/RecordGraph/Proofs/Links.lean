import RecordGraph.Proofs.Matching

/-!
Edges merged from one new node. Each request for an edge is granted unless such an
edge is there; an undirected one also counts edges the other way. So the edges
between the node and another one depend only on the directions in which they have
been requested: an undirected request adds an edge only if it comes first.
-/

namespace RecordGraph

open Dialect

structure Link where
  source : Nat
  target : Nat
  type : String
  directed : Bool

def Store.link (g : Store) (l : Link) : Store :=
  if (g.findEdge? l.source l.target l.type l.directed).isSome then g
  else
    { g with
      edges := g.edges ++ [⟨g.nextEdge, l.source, l.target, l.type⟩]
      nextEdge := g.nextEdge + 1 }

namespace Store

@[simp] theorem nodes_link (g : Store) (l : Link) : (g.link l).nodes = g.nodes := by
  unfold link
  split <;> rfl

@[simp] theorem nextNode_link (g : Store) (l : Link) : (g.link l).nextNode = g.nextNode := by
  unfold link
  split <;> rfl

@[simp] theorem nodes_links (g : Store) (ls : List Link) : (ls.foldl link g).nodes = g.nodes := by
  induction ls generalizing g with
  | nil => rfl
  | cons l rest ih => rw [List.foldl_cons, ih, nodes_link]

@[simp] theorem nextNode_links (g : Store) (ls : List Link) :
    (ls.foldl link g).nextNode = g.nextNode := by
  induction ls generalizing g with
  | nil => rfl
  | cons l rest ih => rw [List.foldl_cons, ih, nextNode_link]

theorem nextEdge_links (g : Store) (ls : List Link) :
    (ls.foldl link g).nextEdge + g.edges.length =
      g.nextEdge + (ls.foldl link g).edges.length := by
  induction ls generalizing g with
  | nil => rfl
  | cons l rest ih =>
    have hlink : (g.link l).nextEdge + g.edges.length = g.nextEdge + (g.link l).edges.length := by
      unfold link
      split
      · rfl
      · simp only [List.length_append, List.length_singleton]
        omega
    have hrest := ih (g.link l)
    rw [List.foldl_cons]
    omega

theorem links_eq (g : Store) (ls : List Link) {added : List Edge}
    (hedges : (ls.foldl link g).edges = g.edges ++ added) :
    ls.foldl link g =
      ⟨g.nodes, g.edges ++ added, g.nextNode, g.nextEdge + added.length⟩ := by
  have hnext := nextEdge_links g ls
  rw [hedges, List.length_append] at hnext
  have hnextEdge : (ls.foldl link g).nextEdge = g.nextEdge + added.length := by omega
  calc ls.foldl link g
      = ⟨(ls.foldl link g).nodes, (ls.foldl link g).edges, (ls.foldl link g).nextNode,
          (ls.foldl link g).nextEdge⟩ := rfl
    _ = ⟨g.nodes, g.edges ++ added, g.nextNode, g.nextEdge + added.length⟩ := by
        rw [nodes_links, hedges, nextNode_links, hnextEdge]

end Store

namespace Dialect

def RelationshipPattern.link (p : RelationshipPattern) (left right : Nat) : Link :=
  ⟨(p.arrow.orient left right).1, (p.arrow.orient left right).2, p.type,
    p.arrow ≠ .undirected⟩

theorem mergeEdge_eq (p : RelationshipPattern) {left right : Nat} {g : Progress}
    (hleft : (g.store.node? left).isSome = true) (hright : (g.store.node? right).isSome = true) :
    ∃ stats, mergeEdge p left right g = (.ok (), ⟨g.store.link (p.link left right), stats⟩) := by
  have hends : (g.store.node? (p.arrow.orient left right).1).isNone = false ∧
      (g.store.node? (p.arrow.orient left right).2).isNone = false := by
    cases p.arrow <;> simp [Arrow.orient, ← Option.not_isSome, hleft, hright]
  unfold mergeEdge Store.link RelationshipPattern.link
  generalize p.arrow.orient left right = ends at hends ⊢
  obtain ⟨source, target⟩ := ends
  by_cases hfound : (g.store.findEdge? source target p.type (p.arrow ≠ .undirected)).isSome = true
  · exact ⟨g.stats, by simp only [hfound, if_true]⟩
  · refine ⟨{ g.stats with relationshipsCreated := g.stats.relationshipsCreated + 1 }, ?_⟩
    simp only [hfound, Bool.false_eq_true, if_false, Store.createEdge, hends.1, hends.2]

def Row.Reaches (row : Row) (var : String) (g : Store) : Prop :=
  ∃ id, row.node? var = some id ∧ (g.node? id).isSome = true

def RelationshipPattern.linkIn (p : RelationshipPattern) (row : Row) : Link :=
  p.link ((row.node? p.left).getD 0) ((row.node? p.right).getD 0)

theorem RelationshipPattern.linkIn_of_endpoints {p : RelationshipPattern}
    {source target : String} (h : p.endpoints? = some (source, target)) (row : Row) :
    p.linkIn row = ⟨(row.node? source).getD 0, (row.node? target).getD 0, p.type, true⟩ := by
  obtain ⟨left, right, type, arrow⟩ := p
  cases arrow <;> cases h <;> rfl

theorem Row.Reaches.of_nodes {row : Row} {var : String} {g g' : Store} (h : row.Reaches var g)
    (hnodes : g'.nodes = g.nodes) : row.Reaches var g' := by
  obtain ⟨id, hid, hnode⟩ := h
  exact ⟨id, hid, by rwa [Store.node?, hnodes]⟩

theorem returned_of_reaches {var : String} {g : Store} {rows : List Row}
    (h : ∀ row ∈ rows, row.Reaches var g) :
    ∃ nodes, returned var g rows = .ok nodes ∧
      List.Forall₂ (fun row n => row.node? var = some n.id ∧ g.node? n.id = some n) rows nodes := by
  have hnode : ∀ row ∈ rows, ∃ n, row.node? var = some n.id ∧ g.node? n.id = some n := by
    intro row hrow
    obtain ⟨id, hid, hsome⟩ := h row hrow
    obtain ⟨n, hn⟩ := Option.isSome_iff_exists.1 hsome
    obtain rfl : n.id = id := by simpa using List.find?_some hn
    exact ⟨n, hid, hn⟩
  obtain ⟨nodes, hnodes⟩ := exists_forall₂_iff.2 hnode
  exact ⟨nodes, returned_eq hnodes, hnodes⟩

theorem eachRow_relationship {p : RelationshipPattern} {rows : List Row} {g : Progress}
    (hrows : ∀ row ∈ rows, row.Reaches p.left g.store ∧ row.Reaches p.right g.store) :
    ∃ stats, eachRow (mergeRelationshipRow p) rows g =
      (.ok (), ⟨(rows.map p.linkIn).foldl Store.link g.store, stats⟩) := by
  induction rows generalizing g with
  | nil => exact ⟨g.stats, rfl⟩
  | cons row rest ih =>
    obtain ⟨⟨left, hleft, hl⟩, ⟨right, hright, hr⟩⟩ := hrows row List.mem_cons_self
    obtain ⟨stats, hmerge⟩ := mergeEdge_eq p hl hr
    have hlink : p.linkIn row = p.link left right := by
      simp [RelationshipPattern.linkIn, hleft, hright]
    have hrest : ∀ r ∈ rest, r.Reaches p.left (g.store.link (p.link left right)) ∧
        r.Reaches p.right (g.store.link (p.link left right)) := fun r hmem =>
      (hrows r (List.mem_cons_of_mem _ hmem)).imp (·.of_nodes (Store.nodes_link _ _))
        (·.of_nodes (Store.nodes_link _ _))
    obtain ⟨stats', hmore⟩ := ih (g := ⟨g.store.link (p.link left right), stats⟩) hrest
    refine ⟨stats', ?_⟩
    simp only [eachRow, mergeRelationshipRow, bound_eq hleft, bound_eq hright, hmerge, hmore,
      List.map_cons, List.foldl_cons, hlink]

theorem runClauses_relationships (ps : List RelationshipPattern) (rows : List Row) {g : Progress}
    (hrows : ∀ p ∈ ps, ∀ row ∈ rows, row.Reaches p.left g.store ∧ row.Reaches p.right g.store) :
    ∃ stats, runClauses (ps.map .mergeRelationship) rows g =
      (.ok rows, ⟨(ps.flatMap fun p => rows.map p.linkIn).foldl Store.link g.store, stats⟩) := by
  induction ps generalizing g with
  | nil => exact ⟨g.stats, rfl⟩
  | cons p rest ih =>
    obtain ⟨stats, heach⟩ := eachRow_relationship (hrows p List.mem_cons_self)
    have hnodes := Store.nodes_links g.store (rows.map p.linkIn)
    have hrest : ∀ q ∈ rest, ∀ row ∈ rows,
        row.Reaches q.left ((rows.map p.linkIn).foldl Store.link g.store) ∧
        row.Reaches q.right ((rows.map p.linkIn).foldl Store.link g.store) := fun q hq row hrow =>
      (hrows q (List.mem_cons_of_mem _ hq) row hrow).imp (·.of_nodes hnodes) (·.of_nodes hnodes)
    obtain ⟨stats', hmore⟩ :=
      ih (g := ⟨(rows.map p.linkIn).foldl Store.link g.store, stats⟩) hrest
    refine ⟨stats', ?_⟩
    rw [List.map_cons, runClauses, Clause.run_mergeRelationship, heach]
    simp only [Except.map, hmore, List.flatMap_cons, List.foldl_append]

theorem nodes_mergeEdge (p : RelationshipPattern) (left right : Nat) (g : Progress) :
    (mergeEdge p left right g).2.store.nodes = g.store.nodes := by
  unfold mergeEdge
  rcases p.arrow.orient left right with ⟨source, target⟩
  simp only
  split
  · rfl
  · split
    · rfl
    · rename_i hcreate
      obtain ⟨-, -, rfl⟩ := Store.createEdge_eq_ok hcreate
      rfl

theorem nodes_mergeRelationshipRow (p : RelationshipPattern) (row : Row) (g : Progress) :
    (mergeRelationshipRow p row g).2.store.nodes = g.store.nodes := by
  unfold mergeRelationshipRow
  split
  · exact nodes_mergeEdge p _ _ g
  · rfl
  · rfl

theorem nodes_relationships (ps : List RelationshipPattern) (rows : List Row) (g : Progress) :
    (runClauses (ps.map .mergeRelationship) rows g).2.store.nodes = g.store.nodes := by
  have hrefl : ∀ s : Store, s.nodes = s.nodes := fun _ => rfl
  have htrans : ∀ {s s' s'' : Store}, s'.nodes = s.nodes → s''.nodes = s'.nodes →
      s''.nodes = s.nodes := fun h h' => h'.trans h
  refine rel_runClauses (R := fun s s' => s'.nodes = s.nodes) hrefl htrans ?_ rows g
  intro c hc rows g
  obtain ⟨p, -, rfl⟩ := List.mem_map.1 hc
  rw [Clause.run_mergeRelationship]
  exact rel_eachRow (R := fun s s' => s'.nodes = s.nodes) hrefl htrans
    (nodes_mergeRelationshipRow p) rows g

end Dialect

/-- A request for an edge between one node and another, in a direction seen from the former. -/
structure Request where
  direction : Direction
  type : String
  node : Nat

def Request.link (n : Nat) (q : Request) : Link :=
  ⟨(q.direction.arrow.orient n q.node).1, (q.direction.arrow.orient n q.node).2, q.type,
    q.direction.arrow ≠ .undirected⟩

def directions (qs : List Request) (type : String) (node : Nat) : List Direction :=
  (qs.filter fun q => q.type = type ∧ q.node = node).map (·.direction)

/-- Whether requests in these directions lead to an edge from the one node to the other. -/
def leaves (ds : List Direction) : Prop :=
  .outgoing ∈ ds ∨ ds.head? = some .undirected

/-- Whether earlier requests have led to an edge that this one finds. -/
def Request.Finds (q : Request) (qs : List Request) : Prop :=
  match q.direction with
  | .outgoing => leaves (directions qs q.type q.node)
  | .incoming => .incoming ∈ directions qs q.type q.node
  | .undirected => directions qs q.type q.node ≠ []

theorem leaves_concat (ds : List Direction) (d : Direction) :
    leaves (ds ++ [d]) ↔ leaves ds ∨ d = .outgoing ∨ ds = [] ∧ d = .undirected := by
  cases ds with
  | nil => cases d <;> simp [leaves]
  | cons c ds => cases d <;> simp [leaves]

theorem ne_nil_iff (ds : List Direction) : ds ≠ [] ↔ leaves ds ∨ .incoming ∈ ds := by
  cases ds with
  | nil => simp [leaves]
  | cons c ds => cases c <;> simp [leaves]

/-- The edges that requests around the node `n` have led to. -/
structure Granted (n : Nat) (qs : List Request) (added : List Edge) : Prop where
  nodup : (added.map fun e => (e.source, e.target, e.type)).Nodup
  ends : ∀ e ∈ added, e.source = n ∧ e.target ≠ n ∨ e.target = n ∧ e.source ≠ n
  outgoing : ∀ node type, (∃ e ∈ added, e.links n node type = true) ↔
    leaves (directions qs type node)
  incoming : ∀ node type, (∃ e ∈ added, e.links node n type = true) ↔
    .incoming ∈ directions qs type node

theorem Granted.nil (n : Nat) : Granted n [] [] :=
  ⟨List.nodup_nil, by simp, by simp [directions, leaves], by simp [directions]⟩

theorem directions_concat (qs : List Request) (q : Request) (type : String) (node : Nat) :
    directions (qs ++ [q]) type node =
      directions qs type node ++ if q.type = type ∧ q.node = node then [q.direction] else [] := by
  by_cases h : q.type = type ∧ q.node = node <;> simp [directions, h]

namespace Granted

variable {n : Nat} {qs : List Request} {old added : List Edge} {q : Request} {g : Store}

theorem links_iff (hold : ∀ e ∈ old, e.source ≠ n ∧ e.target ≠ n) (source target : Nat)
    (type : String) (hn : source = n ∨ target = n) :
    (∃ e ∈ old ++ added, e.links source target type = true) ↔
      ∃ e ∈ added, e.links source target type = true := by
  have hnone : ∀ e ∈ old, ¬ e.links source target type = true := by
    intro e he hlinks
    obtain ⟨hs, ht⟩ := hold e he
    simp only [Edge.links, Bool.and_eq_true, beq_iff_eq] at hlinks
    rcases hn with rfl | rfl
    · exact hs hlinks.1.1
    · exact ht hlinks.1.2
  simp only [List.mem_append, or_and_right, exists_or]
  exact ⟨fun h => h.resolve_left fun ⟨e, he, hl⟩ => hnone e he hl, .inr⟩

theorem found_iff (h : Granted n qs added) (hold : ∀ e ∈ old, e.source ≠ n ∧ e.target ≠ n)
    (hg : g.edges = old ++ added) :
    (g.findEdge? (q.link n).source (q.link n).target (q.link n).type (q.link n).directed).isSome =
      true ↔ q.Finds qs := by
  rw [Store.isSome_findEdge?, hg]
  obtain ⟨direction, type, node⟩ := q
  cases direction with
  | outgoing =>
    simpa [Request.link, Request.Finds, Direction.arrow, Arrow.orient] using
      (links_iff hold n node type (.inl rfl)).trans (h.outgoing node type)
  | incoming =>
    simpa [Request.link, Request.Finds, Direction.arrow, Arrow.orient] using
      (links_iff hold node n type (.inr rfl)).trans (h.incoming node type)
  | undirected =>
    simpa [Request.link, Request.Finds, Direction.arrow, Arrow.orient, ne_nil_iff] using
      or_congr ((links_iff hold n node type (.inl rfl)).trans (h.outgoing node type))
        ((links_iff hold node n type (.inr rfl)).trans (h.incoming node type))

theorem of_found (h : Granted n qs added) (hfound : q.Finds qs) :
    Granted n (qs ++ [q]) added where
  nodup := h.nodup
  ends := h.ends
  outgoing node type := by
    rw [h.outgoing, directions_concat]
    split_ifs with hq
    · obtain ⟨rfl, rfl⟩ := hq
      rw [leaves_concat]
      cases hd : q.direction <;> simp_all [Request.Finds]
    · rw [List.append_nil]
  incoming node type := by
    rw [h.incoming, directions_concat]
    split_ifs with hq
    · obtain ⟨rfl, rfl⟩ := hq
      cases hd : q.direction <;> simp_all [Request.Finds]
    · rw [List.append_nil]

def edgeOf (n id : Nat) (q : Request) : Edge :=
  ⟨id, (q.link n).source, (q.link n).target, (q.link n).type⟩

theorem links_edgeOf_outgoing (hq : q.node ≠ n) (id node : Nat) (type : String) :
    (edgeOf n id q).links n node type = true ↔
      q.direction ≠ .incoming ∧ q.type = type ∧ q.node = node := by
  obtain ⟨direction, t, x⟩ := q
  cases direction <;>
    simp_all [edgeOf, Request.link, Direction.arrow, Arrow.orient, Edge.links, and_comm]

theorem links_edgeOf_incoming (hq : q.node ≠ n) (id node : Nat) (type : String) :
    (edgeOf n id q).links node n type = true ↔
      q.direction = .incoming ∧ q.type = type ∧ q.node = node := by
  obtain ⟨direction, t, x⟩ := q
  cases direction <;>
    simp_all [edgeOf, Request.link, Direction.arrow, Arrow.orient, Edge.links, and_comm]

theorem ne_edgeOf (h : Granted n qs added) (id : Nat) (hfound : ¬ q.Finds qs) :
    ∀ e ∈ added, (e.source, e.target, e.type) ≠
      ((edgeOf n id q).source, (edgeOf n id q).target, (edgeOf n id q).type) := by
  intro e he heq
  obtain ⟨direction, t, x⟩ := q
  have hout := h.outgoing x t
  have hin := h.incoming x t
  cases direction <;> simp only [edgeOf, Request.link, Direction.arrow, Arrow.orient,
    Prod.mk.injEq] at heq
  case outgoing =>
    exact hfound (hout.1 ⟨e, he, by simpa [Edge.links, and_assoc] using heq⟩)
  case incoming =>
    exact hfound (hin.1 ⟨e, he, by simpa [Edge.links, and_assoc] using heq⟩)
  case undirected =>
    refine hfound ((ne_nil_iff _).2 (.inl (hout.1 ⟨e, he, ?_⟩)))
    simpa [Edge.links, and_assoc] using heq

theorem of_not_found (h : Granted n qs added) (hq : q.node ≠ n) (id : Nat)
    (hfound : ¬ q.Finds qs) :
    Granted n (qs ++ [q]) (added ++ [edgeOf n id q]) where
  nodup := by
    have hnew := h.ne_edgeOf id hfound
    rw [List.map_append, List.nodup_append]
    refine ⟨h.nodup, List.nodup_singleton _, fun a ha b hb => ?_⟩
    obtain ⟨e, he, rfl⟩ := List.mem_map.1 ha
    rw [List.map_singleton, List.mem_singleton] at hb
    exact hb ▸ hnew e he
  ends e he := by
    rcases List.mem_append.1 he with he | he
    · exact h.ends e he
    · obtain rfl := List.mem_singleton.1 he
      obtain ⟨direction, t, x⟩ := q
      cases direction <;> simp_all [edgeOf, Request.link, Direction.arrow, Arrow.orient]
  outgoing node type := by
    simp only [List.mem_append, List.mem_singleton, or_and_right, exists_or, exists_eq_left,
      h.outgoing, links_edgeOf_outgoing hq, directions_concat]
    split_ifs with hmatch
    · rw [leaves_concat]
      obtain ⟨rfl, rfl⟩ := hmatch
      cases hd : q.direction <;> simp_all [Request.Finds]
    · simp [hmatch]
  incoming node type := by
    simp only [List.mem_append, List.mem_singleton, or_and_right, exists_or, exists_eq_left,
      h.incoming, links_edgeOf_incoming hq, directions_concat]
    split_ifs with hmatch
    · obtain ⟨rfl, rfl⟩ := hmatch
      cases hd : q.direction <;> simp_all [Request.Finds]
    · simp [hmatch]

end Granted

theorem Granted.step {n : Nat} {qs : List Request} {old added : List Edge} {q : Request}
    {g : Store} (h : Granted n qs added) (hold : ∀ e ∈ old, e.source ≠ n ∧ e.target ≠ n)
    (hq : q.node ≠ n) (hg : g.edges = old ++ added) :
    ∃ more, (g.link (q.link n)).edges = old ++ (added ++ more) ∧
      Granted n (qs ++ [q]) (added ++ more) := by
  have hiff := h.found_iff (q := q) hold hg
  by_cases hfound : (g.findEdge? (q.link n).source (q.link n).target (q.link n).type
      (q.link n).directed).isSome = true
  · refine ⟨[], ?_, ?_⟩
    · rw [Store.link, if_pos hfound, hg, List.append_nil]
    · rw [List.append_nil]
      exact h.of_found (hiff.1 hfound)
  · refine ⟨[edgeOf n g.nextEdge q], ?_, h.of_not_found hq _ (mt hiff.2 hfound)⟩
    rw [Store.link, if_neg hfound, ← List.append_assoc, ← hg]
    rfl

/-- The run lemma: requests around a node that no edge has touched yet. -/
theorem granted_links {n : Nat} {g : Store} (hold : ∀ e ∈ g.edges, e.source ≠ n ∧ e.target ≠ n)
    {qs : List Request} (hqs : ∀ q ∈ qs, q.node ≠ n) :
    ∃ added, ((qs.map (Request.link n)).foldl Store.link g).edges = g.edges ++ added ∧
      Granted n qs added := by
  -- Over the requests still to come, with those done and what they have added as parameters.
  have hrun : ∀ (done : List Request) (added : List Edge) (s : Store),
      s.edges = g.edges ++ added → Granted n done added →
      ∃ more, ((qs.map (Request.link n)).foldl Store.link s).edges = g.edges ++ more ∧
        Granted n (done ++ qs) more := by
    induction qs with
    | nil => exact fun done added s hs h => ⟨added, hs, by rwa [List.append_nil]⟩
    | cons q rest ih =>
      intro done added s hs h
      obtain ⟨more, hmore, hstep⟩ := h.step hold (hqs q List.mem_cons_self) hs
      have hrest := ih (fun r hr => hqs r (List.mem_cons_of_mem _ hr)) (done ++ [q])
        (added ++ more) (s.link (q.link n)) hmore hstep
      rwa [List.append_assoc] at hrest
  exact hrun [] [] g (List.append_nil _).symm (.nil n)

end RecordGraph
