import Mathlib.Logic.Equiv.Basic
import RecordGraph.Proofs.UpsertEffects

/-!
Upserts of independent records. Two records without related records whose keys differ may be
upserted in either order: each fails or succeeds in the same way, and the graph comes out the
same, but where both are new their nodes exchange ids.
-/

namespace RecordGraph

def Node.rename (σ : Equiv.Perm Nat) (n : Node) : Node :=
  { n with id := σ n.id }

def Edge.rename (σ : Equiv.Perm Nat) (e : Edge) : Edge :=
  { e with source := σ e.source, target := σ e.target }

namespace Store

structure Renamed (σ : Equiv.Perm Nat) (g g' : Store) : Prop where
  nodes : (g.nodes.map (·.rename σ)).Perm g'.nodes
  edges : g.edges.map (·.rename σ) = g'.edges
  nextNode : g.nextNode = g'.nextNode
  nextEdge : g.nextEdge = g'.nextEdge

theorem Renamed.refl (g : Store) : g.Renamed 1 g :=
  ⟨.of_eq (List.map_id _), List.map_id _, rfl, rfl⟩

namespace WellFormed

variable {g : Store} {σ : Equiv.Perm Nat}

theorem rename_nodes (hg : g.WellFormed) (hσ : ∀ id < g.nextNode, σ id = id) :
    g.nodes.map (·.rename σ) = g.nodes := by
  have hnode : ∀ n ∈ g.nodes, n.rename σ = id n := fun n hn => by
    simp [Node.rename, hσ n.id (hg.id_lt hn)]
  rw [List.map_congr_left hnode, List.map_id]

theorem rename_edges (hg : g.WellFormed) (hσ : ∀ id < g.nextNode, σ id = id) :
    g.edges.map (·.rename σ) = g.edges := by
  have hedge : ∀ e ∈ g.edges, e.rename σ = id e := fun e he => by
    simp [Edge.rename, hσ _ (hg.ends e he).1, hσ _ (hg.ends e he).2]
  rw [List.map_congr_left hedge, List.map_id]

end WellFormed

theorem replace_comm {m n : Node} (h : m.id ≠ n.id) (g : Store) :
    (g.replace m).replace n = (g.replace n).replace m := by
  simp only [replace, List.map_map]
  congr 1
  refine List.map_congr_left fun x _ => ?_
  by_cases hm : x.id = m.id
  · simp [hm, h]
  · by_cases hn : x.id = n.id
    · simp [hn, h.symm]
    · simp [hm, hn]

theorem replace_createNode {n : Node} {g : Store} (h : n.id < g.nextNode) (labels : List String)
    (properties : PropertyMap) :
    (g.createNode labels properties).2.replace n =
      ((g.replace n).createNode labels properties).2 := by
  have hnew : (Node.create g.nextNode labels properties).id ≠ n.id := h.ne'
  simp [createNode, replace, hnew]

end Store

inductive Alike (σ : Equiv.Perm Nat) :
    Except UpsertError UpsertOutcome → Except UpsertError UpsertOutcome → Prop
  | failed (cause : UpsertError) : Alike σ (.error cause) (.error cause)
  | created {m n : Node} (h : m.rename σ = n) :
      Alike σ (.ok (.created (GraphNode.ofNode m))) (.ok (.created (GraphNode.ofNode n)))
  | updated {m n : Node} (h : m.rename σ = n) :
      Alike σ (.ok (.updated (GraphNode.ofNode m))) (.ok (.updated (GraphNode.ofNode n)))

/-- The exchange of the ids of the nodes that two upserts have made, if each has made one. -/
inductive Exchanges : Except UpsertError UpsertOutcome → Except UpsertError UpsertOutcome →
    Equiv.Perm Nat → Prop
  | both (m n : Node) : Exchanges (.ok (.created (GraphNode.ofNode m)))
      (.ok (.created (GraphNode.ofNode n))) (Equiv.swap m.id n.id)
  | notFirst {o o' : Except UpsertError UpsertOutcome} (h : ∀ n, o ≠ .ok (.created n)) :
      Exchanges o o' 1
  | notSecond {o o' : Except UpsertError UpsertOutcome} (h : ∀ n, o' ≠ .ok (.created n)) :
      Exchanges o o' 1

theorem Exchanges.eq_swap {o o' : Except UpsertError UpsertOutcome} {σ : Equiv.Perm Nat}
    (h : Exchanges o o' σ) {m n : Node} (hm : o = .ok (.created (GraphNode.ofNode m)))
    (hn : o' = .ok (.created (GraphNode.ofNode n))) : σ = Equiv.swap m.id n.id := by
  cases h with
  | both m' n' =>
    have hfirst := congrArg GraphNode.id (UpsertOutcome.created.inj (Except.ok.inj hm))
    have hsecond := congrArg GraphNode.id (UpsertOutcome.created.inj (Except.ok.inj hn))
    rw [natText_injective hfirst, natText_injective hsecond]
  | notFirst h => exact absurd hm (h _)
  | notSecond h => exact absurd hn (h _)

namespace Effect

variable {g : Store} {e₁ e₂ : Effect}

theorem alike_outcome (e : Effect) (g : Store) : Alike 1 (e.outcome g) (e.outcome g) := by
  cases e with
  | fail cause => exact .failed cause
  | create labels properties => exact .created rfl
  | replace n => exact .updated rfl

/-- One effect after the other and the other way round come to the same, up to node ids. -/
structure Commute (g : Store) (e₁ e₂ : Effect) (σ : Equiv.Perm Nat) : Prop where
  exchanges : Exchanges (e₁.outcome g) (e₂.outcome (e₁.store g)) σ
  first : Alike σ (e₁.outcome g) (e₁.outcome (e₂.store g))
  second : Alike σ (e₂.outcome (e₁.store g)) (e₂.outcome g)
  stores : (e₂.store (e₁.store g)).Renamed σ (e₁.store (e₂.store g))

theorem Commute.of_eq (hexchanges : Exchanges (e₁.outcome g) (e₂.outcome (e₁.store g)) 1)
    (hfirst : e₁.outcome (e₂.store g) = e₁.outcome g)
    (hsecond : e₂.outcome (e₁.store g) = e₂.outcome g)
    (hstores : e₂.store (e₁.store g) = e₁.store (e₂.store g)) : Commute g e₁ e₂ 1 where
  exchanges := hexchanges
  first := hfirst ▸ e₁.alike_outcome g
  second := hsecond ▸ e₂.alike_outcome g
  stores := hstores ▸ .refl _

theorem nodes_store_create_create (g : Store) (labels labels' : List String)
    (properties properties' : PropertyMap) :
    ((create labels' properties').store ((create labels properties).store g)).nodes =
      g.nodes ++ [Node.create g.nextNode labels properties,
        Node.create (g.nextNode + 1) labels' properties'] :=
  List.append_assoc _ _ _

theorem commute_create (hg : g.WellFormed) (labels₁ labels₂ : List String)
    (properties₁ properties₂ : PropertyMap) :
    Commute g (.create labels₁ properties₁) (.create labels₂ properties₂)
      (Equiv.swap g.nextNode (g.nextNode + 1)) := by
  have hold : ∀ id < g.nextNode, Equiv.swap g.nextNode (g.nextNode + 1) id = id := fun id hid =>
    Equiv.swap_apply_of_ne_of_ne hid.ne (Nat.lt_succ_of_lt hid).ne
  have hfirst : (Node.create g.nextNode labels₁ properties₁).rename
      (Equiv.swap g.nextNode (g.nextNode + 1)) =
        Node.create (g.nextNode + 1) labels₁ properties₁ := by
    simp [Node.rename, Node.create]
  have hsecond : (Node.create (g.nextNode + 1) labels₂ properties₂).rename
      (Equiv.swap g.nextNode (g.nextNode + 1)) = Node.create g.nextNode labels₂ properties₂ := by
    simp [Node.rename, Node.create]
  refine ⟨.both _ _, .created hfirst, .created hsecond, ?_, hg.rename_edges hold, rfl, rfl⟩
  rw [nodes_store_create_create, nodes_store_create_create, List.map_append, hg.rename_nodes hold,
    List.map_cons, List.map_singleton, hfirst, hsecond]
  exact (List.Perm.swap _ _ []).append_left g.nodes

variable {keyField : String} {key₁ key₂ : PropertyValue}

theorem Owns.commute (h₁ : e₁.Owns keyField key₁ g) (h₂ : e₂.Owns keyField key₂ g)
    (hg : g.WellFormed) (hne : key₁ ≠ key₂) : ∃ σ, Commute g e₁ e₂ σ := by
  cases h₁ with
  | fail cause => exact ⟨1, .of_eq (.notFirst (by simp [outcome])) rfl rfl rfl⟩
  | create =>
    cases h₂ with
    | fail cause => exact ⟨1, .of_eq (.notSecond (by simp [outcome])) rfl rfl rfl⟩
    | create => exact ⟨_, commute_create hg _ _ _ _⟩
    | replace _ hm hid =>
      have hstores := Store.replace_createNode (hid ▸ hg.id_lt hm)
      exact ⟨1, .of_eq (.notSecond (by simp [outcome])) rfl rfl (hstores _ _)⟩
  | replace _ hm₁ hid₁ hold₁ =>
    cases h₂ with
    | fail cause => exact ⟨1, .of_eq (.notFirst (by simp [outcome])) rfl rfl rfl⟩
    | create =>
      have hstores := Store.replace_createNode (hid₁ ▸ hg.id_lt hm₁)
      exact ⟨1, .of_eq (.notFirst (by simp [outcome])) rfl rfl (hstores _ _).symm⟩
    | replace _ hm₂ hid₂ hold₂ =>
      refine ⟨1, .of_eq (.notFirst (by simp [outcome])) rfl rfl (Store.replace_comm ?_ g)⟩
      -- A node that both of them change would have both keys.
      intro hid
      obtain rfl := hg.eq_of_id hm₁ hm₂ (hid₁.symm.trans (hid.trans hid₂))
      exact hne (Option.some.inj (hold₁.symm.trans hold₂))

end Effect

namespace CompilerSettings

variable {s : CompilerSettings} {r₁ r₂ : Record} {g : Store}

/-- Two records without related records, whose keys differ, are upserted in either order with the
same outcomes, errors included, and the same graph, up to an exchange of the ids of the two nodes
where both are new. Floats under the key field are excluded, since one of them may agree with both
keys. -/
theorem upsert_comm (hs : s.escape = .cypher) (hfields : s.labelField ≠ s.keyField)
    (hg : g.Reachable) (hkeys : ∀ n ∈ g.nodes, ∀ x, n.property? s.keyField ≠ some (.float x))
    (hr₁ : r₁.Valid) (hr₂ : r₂.Valid) (h₁ : r₁.Unrelated) (h₂ : r₂.Unrelated)
    (hne : s.keyOf r₁ ≠ s.keyOf r₂) (relations₁ relations₂ : List Relation) :
    ∃ σ o₁ o₂ o₁' o₂' g₁ g₂ g₁₂ g₂₁,
      s.upsert (⟨g, false⟩ : MemorySession) r₁ relations₁ = (o₁, ⟨g₁, false⟩) ∧
      s.upsert (⟨g₁, false⟩ : MemorySession) r₂ relations₂ = (o₂, ⟨g₁₂, false⟩) ∧
      s.upsert (⟨g, false⟩ : MemorySession) r₂ relations₂ = (o₂', ⟨g₂, false⟩) ∧
      s.upsert (⟨g₂, false⟩ : MemorySession) r₁ relations₁ = (o₁', ⟨g₂₁, false⟩) ∧
      Exchanges o₁ o₂ σ ∧ Alike σ o₁ o₁' ∧ Alike σ o₂ o₂' ∧ g₁₂.Renamed σ g₂₁ := by
  have hwell := hg.wellFormed
  have howns₁ := effectOf_owns hfields hr₁ hkeys relations₁
  have howns₂ := effectOf_owns hfields hr₂ hkeys relations₂
  obtain ⟨σ, hcommute⟩ := howns₁.commute howns₂ hwell hne
  refine ⟨σ, _, _, _, _, _, _, _, _,
    upsert_eq_effect hs hfields hr₁ h₁.related_eq_nil hwell, ?_,
    upsert_eq_effect hs hfields hr₂ h₂.related_eq_nil hwell, ?_,
    hcommute.exchanges, hcommute.first, hcommute.second, hcommute.stores⟩
  · have hwell₁ := s.wellFormed_effectOf hwell r₁ relations₁
    rw [upsert_eq_effect hs hfields hr₂ h₂.related_eq_nil hwell₁,
      effectOf_store howns₁ hwell hne]
  · have hwell₂ := s.wellFormed_effectOf hwell r₂ relations₂
    rw [upsert_eq_effect hs hfields hr₁ h₁.related_eq_nil hwell₂,
      effectOf_store howns₂ hwell hne.symm]

end CompilerSettings

namespace Sample

def unstaffed (uid : String) : Record :=
  ⟨teamSchema, [("type", .string "Team"), ("uid", .string uid), ("full name", .string "Rowing"),
    ("lead", .null), ("members", .array [])]⟩

theorem valid_unstaffed (uid : String) : (unstaffed uid).Valid := by
  refine ⟨?_, rfl⟩
  change (["type", "uid", "full name", "lead", "members"] : List String).Nodup
  decide

theorem unrelated_unstaffed (uid : String) : (unstaffed uid).Unrelated := by
  intro f hf shape hshape hstructural v hv
  simp only [unstaffed, teamSchema, List.mem_cons, List.not_mem_nil, or_false] at hf
  rcases hf with rfl | rfl | rfl | rfl | rfl <;> obtain rfl := Option.some.inj hv <;> rfl

theorem upsert_unstaffed {uid : String} {c : CompiledStatement}
    (hcreate : CompilerSettings.default.compileCreate (unstaffed uid) [] = .ok c) {g : Store}
    (hg : g.WellFormed) (hmissing : g.matching "uid" (.string uid) = []) :
    CompilerSettings.default.upsert (⟨g, false⟩ : MemorySession) (unstaffed uid) [] =
      (.ok (.created (GraphNode.ofNode (CompilerSettings.default.createdNode g (unstaffed uid)))),
        ⟨CompilerSettings.default.withNode g (unstaffed uid), false⟩) := by
  have hvalid := valid_unstaffed uid
  obtain ⟨identity, layout, bound, hcreates⟩ := CompilerSettings.creates_of_compileCreate hcreate
  exact CompilerSettings.upsert_of_related_eq_nil rfl (by decide) hvalid hg
    (unrelated_unstaffed uid).related_eq_nil hcreate
    (hcreates.written_createdPattern hvalid.distinct rfl) hmissing

def crewStore : Store :=
  ⟨[Node.create 0 ["person"] (Dict.ofList [("uid", .integer 1)]),
    Node.create 1 ["person"] (Dict.ofList [("uid", .integer 7)]),
    Node.create 2 ["captain"] (Dict.ofList [("uid", .integer 7)])], [], 3, 0⟩

theorem crew_eq : crew = crewStore := by
  decide +kernel

end Sample

theorem upsert_comm_unstaffed : Sample.crew.Reachable ∧
    (∀ n ∈ Sample.crew.nodes, ∀ x, n.property? "uid" ≠ some (.float x)) ∧
    (∀ uid, (Sample.unstaffed uid).Valid ∧ (Sample.unstaffed uid).Unrelated) ∧
    ∃ o₁ o₂ o₁' o₂' g₁ g₂ g₁₂ g₂₁,
      CompilerSettings.default.upsert (⟨Sample.crew, false⟩ : MemorySession)
        (Sample.unstaffed "a") [] = (o₁, ⟨g₁, false⟩) ∧
      CompilerSettings.default.upsert (⟨g₁, false⟩ : MemorySession)
        (Sample.unstaffed "b") [] = (o₂, ⟨g₁₂, false⟩) ∧
      CompilerSettings.default.upsert (⟨Sample.crew, false⟩ : MemorySession)
        (Sample.unstaffed "b") [] = (o₂', ⟨g₂, false⟩) ∧
      CompilerSettings.default.upsert (⟨g₂, false⟩ : MemorySession)
        (Sample.unstaffed "a") [] = (o₁', ⟨g₂₁, false⟩) ∧
      Alike (Equiv.swap 3 4) o₁ o₁' ∧ Alike (Equiv.swap 3 4) o₂ o₂' ∧
      g₁₂.Renamed (Equiv.swap 3 4) g₂₁ := by
  have hreachable : Sample.crew.Reachable := .execute .empty _
  have hkeys : ∀ n ∈ Sample.crew.nodes, ∀ x, n.property? "uid" ≠ some (.float x) := by
    intro n hn x hx
    have hmem := List.mem_map_of_mem (f := (·.property? "uid")) hn
    have huids : Sample.crewStore.nodes.map (·.property? "uid") =
        [some (.integer 1), some (.integer 7), some (.integer 7)] := by decide
    simp [Sample.crew_eq, huids, hx] at hmem
  have hne : CompilerSettings.default.keyOf (Sample.unstaffed "a") ≠
      CompilerSettings.default.keyOf (Sample.unstaffed "b") := by decide
  have hmissing : Sample.crew.matching "uid" (.string "a") = [] := by
    rw [Sample.crew_eq]
    decide
  have hmissing' : (CompilerSettings.default.withNode Sample.crew
      (Sample.unstaffed "a")).matching "uid" (.string "b") = [] := by
    rw [Sample.crew_eq]
    decide +kernel
  obtain ⟨c, ha⟩ : ∃ c, CompilerSettings.default.compileCreate (Sample.unstaffed "a") [] = .ok c :=
    ⟨_, rfl⟩
  obtain ⟨d, hb⟩ : ∃ d, CompilerSettings.default.compileCreate (Sample.unstaffed "b") [] = .ok d :=
    ⟨_, rfl⟩
  obtain ⟨σ, o₁, o₂, o₁', o₂', g₁, g₂, g₁₂, g₂₁, h₁, h₂, h₂', h₁', hexchanges, halike₁, halike₂,
    hrenamed⟩ := CompilerSettings.upsert_comm (s := .default) rfl (by decide) hreachable hkeys
      (Sample.valid_unstaffed "a") (Sample.valid_unstaffed "b") (Sample.unrelated_unstaffed "a")
      (Sample.unrelated_unstaffed "b") hne [] []
  have hfirst := h₁.symm.trans (Sample.upsert_unstaffed ha hreachable.wellFormed hmissing)
  obtain ⟨ho₁, hg₁⟩ := Prod.mk.inj hfirst
  obtain rfl := congrArg MemorySession.graph hg₁
  have hwell := CompilerSettings.default.wellFormed_withNode (Sample.unstaffed "a")
    hreachable.wellFormed
  have hsecond := h₂.symm.trans (Sample.upsert_unstaffed hb hwell hmissing')
  have hσ : σ = Equiv.swap 3 4 := by
    rw [hexchanges.eq_swap ho₁ (Prod.mk.inj hsecond).1, Sample.crew_eq]
    rfl
  subst hσ
  exact ⟨hreachable, hkeys, fun uid => ⟨Sample.valid_unstaffed uid, Sample.unrelated_unstaffed uid⟩,
    _, _, _, _, _, _, _, _, h₁, h₂, h₂', h₁', halike₁, halike₂, hrenamed⟩

end RecordGraph
