import RecordGraph.Proofs.CompiledExecution
import RecordGraph.Proofs.FlatRecords

/-!
Effects of upserts. An upsert of a record without related records fails and leaves the graph
as it was, adds one node, or puts one node in place of another. Which of these it does, and
with what, depends only on the nodes that match the record's key, and none of them reaches
a node with another key.
-/

namespace RecordGraph

open Dialect

/-- What an upsert of a record without related records does to a graph. -/
inductive Effect where
  | fail (cause : UpsertError)
  | create (labels : List String) (properties : PropertyMap)
  | replace (n : Node)

namespace Effect

def outcome : Effect → Store → Except UpsertError UpsertOutcome
  | fail cause, _ => .error cause
  | create labels properties, g =>
    .ok (.created (GraphNode.ofNode (Node.create g.nextNode labels properties)))
  | replace n, _ => .ok (.updated (GraphNode.ofNode n))

def store : Effect → Store → Store
  | fail _, g => g
  | create labels properties, g => (g.createNode labels properties).2
  | replace n, g => g.replace n

/-- A node that is made or changed has the key, and had it before. -/
inductive Owns (keyField : String) (key : PropertyValue) (g : Store) : Effect → Prop
  | fail (cause : UpsertError) : Owns keyField key g (.fail cause)
  | create {labels : List String} {properties : PropertyMap} (hkey : key.isKey = true)
      (hnew : ∀ id, (Node.create id labels properties).property? keyField = some key) :
      Owns keyField key g (.create labels properties)
  | replace {m n : Node} (hkey : key.isKey = true) (hm : m ∈ g.nodes) (hid : n.id = m.id)
      (hold : m.property? keyField = some key) (hnew : n.property? keyField = some key) :
      Owns keyField key g (.replace n)

variable {keyField : String} {key other : PropertyValue} {g : Store} {e : Effect}

theorem Owns.matching_store (h : e.Owns keyField key g) (hg : g.WellFormed)
    (hother : other.isKey = true) (hne : key ≠ other) :
    (e.store g).matching keyField other = g.matching keyField other := by
  cases h with
  | fail cause => rfl
  | create hkey hnew =>
    have hagrees : key.agrees other = false := by
      rw [← Bool.not_eq_true, PropertyValue.agrees_iff_eq hkey hother]
      exact hne
    simp [store, Store.createNode, Store.matching, hnew, hagrees]
  | @replace m n hkey hm hid hold hnew =>
    -- The node that is replaced has the one key, so it cannot match the other.
    have hkept : ∀ x ∈ g.matching keyField other, (if x.id = n.id then n else x) = id x := by
      intro x hx
      obtain ⟨hmem, v, hv, hagrees⟩ := Store.mem_matching.1 hx
      refine if_neg fun hxid => hne ?_
      obtain rfl := hg.eq_of_id hmem hm (hxid.trans hid)
      obtain rfl := Option.some.inj (hold.symm.trans hv)
      exact (PropertyValue.agrees_iff_eq hkey hother).1 hagrees
    calc (g.replace n).matching keyField other
        = (g.matching keyField other).map fun x => if x.id = n.id then n else x :=
          hg.matching_replace hm hid (hnew.trans hold.symm) other
      _ = (g.matching keyField other).map id := List.map_congr_left hkept
      _ = g.matching keyField other := List.map_id _

end Effect

namespace CompilerSettings

variable {s : CompilerSettings} {record : Record} {relations : List Relation} {g : Store}

def effectOf (s : CompilerSettings) (record : Record) (relations : List Relation)
    (nodes : List Node) : Effect :=
  match s.prepareUpsert record relations with
  | .error e => .fail (.compile e)
  | .ok p =>
    match nodes with
    | [] =>
      match p.create with
      | .error e => .fail (.compile e)
      | .ok _ =>
        match (s.createdPattern record).properties.entries.find? fun e => e.2.isNull with
        | some e => .fail (.execution (MemorySession.rejected (.nullInMerge e.1)))
        | none => .create (s.createdPattern record).labels (s.createdPattern record).properties
    | [n] => .replace (n.assign (s.updatedEntries record))
    | nodes => .fail (.ambiguous p.identity.keyField p.identity.keyValue.display nodes.length)

theorem effectOf_of_not_isKey (h : (s.keyOf record).isKey = false) (nodes nodes' : List Node) :
    s.effectOf record relations nodes = s.effectOf record relations nodes' := by
  cases hprepared : s.prepareUpsert record relations with
  | error e => simp [effectOf, hprepared]
  | ok p =>
    have hkey := isKey_keyOf (prepareUpsert_eq_ok hprepared).1
    simp [h] at hkey

theorem effectOf_cases (s : CompilerSettings) (record : Record) (relations : List Relation)
    (nodes : List Node) :
    (∃ cause, s.effectOf record relations nodes = .fail cause) ∨
    (nodes = [] ∧ (∃ c, s.compileCreate record relations = .ok c) ∧
      (∀ e ∈ (s.createdPattern record).properties.entries, e.2.isNull = false) ∧
      s.effectOf record relations nodes =
        .create (s.createdPattern record).labels (s.createdPattern record).properties) ∨
    ∃ n identity update, nodes = [n] ∧ s.identityOf record = .ok identity ∧
      s.compileUpdate record identity = .ok update ∧
      s.effectOf record relations nodes = .replace (n.assign (s.updatedEntries record)) := by
  cases hprepared : s.prepareUpsert record relations with
  | error e => exact .inl ⟨_, by simp only [effectOf, hprepared]; rfl⟩
  | ok p =>
    obtain ⟨hidentity, hupdate, hcreated⟩ := prepareUpsert_eq_ok hprepared
    simp only [effectOf, hprepared]
    rcases nodes with _ | ⟨n, _ | ⟨m, more⟩⟩
    · rw [hcreated]
      cases hcreate : s.compileCreate record relations with
      | error e => exact .inl ⟨_, rfl⟩
      | ok c =>
        cases hfind : (s.createdPattern record).properties.entries.find? fun e => e.2.isNull with
        | some e => exact .inl ⟨_, rfl⟩
        | none => exact .inr (.inl ⟨rfl, ⟨c, rfl⟩, by simpa using hfind, rfl⟩)
    · exact .inr (.inr ⟨n, p.identity, p.update, rfl, hidentity, hupdate, rfl⟩)
    · exact .inl ⟨_, rfl⟩

theorem effectOf_owns (hfields : s.labelField ≠ s.keyField) (hr : record.Valid)
    (hkeys : ∀ n ∈ g.nodes, ∀ x, n.property? s.keyField ≠ some (.float x))
    (relations : List Relation) :
    (s.effectOf record relations (g.matching s.keyField (s.keyOf record))).Owns s.keyField
      (s.keyOf record) g := by
  rcases s.effectOf_cases record relations (g.matching s.keyField (s.keyOf record)) with
    ⟨cause, heffect⟩ | ⟨-, ⟨c, hcreate⟩, hnull, heffect⟩ |
      ⟨n, identity, update, hnodes, hidentity, hupdate, heffect⟩
  · exact heffect ▸ .fail cause
  · obtain ⟨identity, layout, bound, hcreates⟩ := creates_of_compileCreate hcreate
    rw [heffect]
    refine .create (isKey_keyOf hcreates.identified) fun id => ?_
    rw [Node.property?, Node.properties_create hnull]
    exact Dict.get?_of_mem _ (hcreates.key_mem_createdPattern hr hfields)
  · have hkey := isKey_keyOf hidentity
    obtain ⟨hn, v, hv, hagrees⟩ := Store.mem_matching.1 (hnodes ▸ List.mem_singleton_self n)
    have hfloat : ∀ x, v ≠ .float x := fun x hx => hkeys n hn x (hx ▸ hv)
    obtain rfl := (PropertyValue.agrees_key_iff hfloat hkey).1 hagrees
    rw [heffect]
    exact .replace hkey hn (Node.id_assign n) hv ((key_assign hupdate n).trans hv)

theorem wellFormed_effectOf (s : CompilerSettings) (hg : g.WellFormed) (record : Record)
    (relations : List Relation) :
    ((s.effectOf record relations
      (g.matching s.keyField (s.keyOf record))).store g).WellFormed := by
  rcases s.effectOf_cases record relations (g.matching s.keyField (s.keyOf record)) with
    ⟨cause, heffect⟩ | ⟨-, -, -, heffect⟩ | ⟨n, -, -, hnodes, -, -, heffect⟩
  · exact heffect ▸ hg
  · exact heffect ▸ hg.step (.node g _ _)
  · obtain ⟨stats, hrun⟩ := run_updateStatement record hg hnodes
    have hwell := hg.steps ((s.updateStatement record (s.keyOf record)).changes_run g)
    rw [hrun] at hwell
    exact heffect ▸ hwell

theorem effectOf_store {e : Effect} {key : PropertyValue} (he : e.Owns s.keyField key g)
    (hg : g.WellFormed) (hne : key ≠ s.keyOf record) (relations : List Relation) :
    s.effectOf record relations ((e.store g).matching s.keyField (s.keyOf record)) =
      s.effectOf record relations (g.matching s.keyField (s.keyOf record)) := by
  cases hkey : (s.keyOf record).isKey with
  | false => exact effectOf_of_not_isKey hkey _ _
  | true => rw [he.matching_store hg hkey hne]

theorem upsert_eq_effect (hs : s.escape = .cypher) (hfields : s.labelField ≠ s.keyField)
    (hr : record.Valid) (hrelated : record.related = []) (hg : g.WellFormed) :
    s.upsert (⟨g, false⟩ : MemorySession) record relations =
      ((s.effectOf record relations (g.matching s.keyField (s.keyOf record))).outcome g,
        ⟨(s.effectOf record relations (g.matching s.keyField (s.keyOf record))).store g,
          false⟩) := by
  cases hprepared : s.prepareUpsert record relations with
  | error e =>
    simp only [upsert, effectOf, hprepared]
    rfl
  | ok p =>
    obtain ⟨hidentity, hupdate, hcreated⟩ := prepareUpsert_eq_ok hprepared
    simp only [effectOf, hprepared]
    rcases hnodes : g.matching s.keyField (s.keyOf record) with _ | ⟨n, _ | ⟨m, more⟩⟩
    · rw [hcreated]
      cases hcreate : s.compileCreate record relations with
      | error e =>
        rw [upsert_eq hs hg hidentity hupdate relations, hnodes]
        simp only [hcreate]
        rfl
      | ok c =>
        cases hfind : (s.createdPattern record).properties.entries.find? fun e => e.2.isNull with
        | some e =>
          rw [upsert_eq hs hg hidentity hupdate relations, hnodes]
          simp only [hcreate, execute_compileCreate hs hr.distinct hcreate,
            run_createStatement_null hfind, settle]
          rfl
        | none =>
          have hnull : ∀ e ∈ (s.createdPattern record).properties.entries, e.2.isNull = false := by
            simpa using hfind
          exact upsert_of_related_eq_nil hs hfields hr hg hrelated hcreate hnull hnodes
    · exact upsert_of_matching_singleton hs hg hidentity hupdate hnodes relations
    · rw [upsert_eq hs hg hidentity hupdate relations, hnodes]
      rfl

end CompilerSettings

end RecordGraph
