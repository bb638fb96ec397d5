import RecordGraph.Proofs.Assignments

/-!
Upserts of a node that is there. Where one node has the record's key, the upsert
sets the record's own properties on that node, clears those that are null or
empty, and touches nothing else; the create statement is never looked at.
-/

namespace RecordGraph

open Dialect

namespace CompilerSettings

variable {s : CompilerSettings} {record : Record}

def Updates (s : CompilerSettings) (record : Record) (name : String) (v : FieldValue) : Prop :=
  record.Holds name v ∧ name ≠ s.labelField ∧ name ≠ s.keyField

theorem mem_updatedEntries {layout : Layout} {bound : List Layout.Bound}
    (hlayout : Layout.classify record.schema = .ok layout) (hbound : layout.bind record = .ok bound)
    {e : String × PropertyValue} :
    e ∈ s.updatedEntries record ↔
      ∃ v, s.Updates record e.1 v ∧ (if v.isBlank then .null else v.stored) = e.2 := by
  rw [updatedEntries, mem_entries_isProperty hlayout hbound]
  simp only [Updates, NullPolicy.written?, Bool.false_eq_true, false_or, Option.some.injEq,
    and_assoc]

theorem isNull_stored_of_updates {layout : Layout} {bound : List Layout.Bound}
    (hlayout : Layout.classify record.schema = .ok layout) (hbound : layout.bind record = .ok bound)
    {name : String} {v : FieldValue} (h : s.Updates record name v) :
    v.stored.isNull = v.isNull :=
  h.1.isNull_stored hlayout hbound

theorem key_assign {identity : Identity} {update : CompiledStatement}
    (hupdate : s.compileUpdate record identity = .ok update) (n : Node) :
    (n.assign (s.updatedEntries record)).property? s.keyField = n.property? s.keyField := by
  obtain ⟨layout, bound, hlayout, hbound⟩ := bound_of_compileUpdate hupdate
  refine Node.property?_assign_of_notMem n fun e he heq => ?_
  obtain ⟨v, hv, -⟩ := (mem_updatedEntries hlayout hbound).1 he
  exact hv.2.2 heq

end CompilerSettings

def Store.replace (g : Store) (n : Node) : Store :=
  { g with nodes := g.nodes.map fun m => if m.id = n.id then n else m }

theorem Store.WellFormed.assign_eq_replace {g : Store} (hg : g.WellFormed) {n : Node}
    (hn : n ∈ g.nodes) (entries : List (String × PropertyValue)) :
    g.assign n.id entries = g.replace (n.assign entries) := by
  simp only [Store.assign, Store.replace, Node.id_assign]
  congr 1
  refine List.map_congr_left fun m hm => ?_
  by_cases hid : m.id = n.id
  · rw [if_pos hid, if_pos hid, hg.eq_of_id hm hn hid]
  · rw [if_neg hid, if_neg hid]

theorem Store.WellFormed.matching_replace {g : Store} (hg : g.WellFormed) {keyField : String}
    {n n' : Node} (hn : n ∈ g.nodes) (hid : n'.id = n.id)
    (hkey : n'.property? keyField = n.property? keyField) (key : PropertyValue) :
    (g.replace n').matching keyField key =
      (g.matching keyField key).map fun m => if m.id = n'.id then n' else m := by
  have hsame : ∀ m ∈ g.nodes,
      ((if m.id = n'.id then n' else m).property? keyField).any (·.agrees key) =
        (m.property? keyField).any (·.agrees key) := by
    intro m hm
    by_cases hmid : m.id = n'.id
    · obtain rfl := hg.eq_of_id hm hn (hmid.trans hid)
      rw [if_pos hmid, hkey]
    · rw [if_neg hmid]
  rw [Store.matching, Store.replace, List.filter_map, Store.matching]
  exact congrArg _ (List.filter_congr hsame)

namespace CompilerSettings

variable {s : CompilerSettings} {record : Record}

theorem run_updateStatement (record : Record) {g : Store} (hg : g.WellFormed) {n : Node}
    {key : PropertyValue}
    (hn : g.matching s.keyField key = [n]) :
    ∃ stats, (s.updateStatement record key).run g =
      (.ok [n.assign (s.updatedEntries record)],
        ⟨g.replace (n.assign (s.updatedEntries record)), stats⟩) := by
  have hmem : n ∈ g.nodes := (Store.mem_matching.1 (hn ▸ List.mem_singleton_self n)).1
  have hnode : g.node? n.id = some n := hg.node?_eq_some_iff.2 ⟨hmem, rfl⟩
  have hrows : matchRows (keyPattern s.nodeAlias s.keyField key) g [[]] =
      [[(s.nodeAlias, n.id)]] := by
    rw [matchRows_keyPattern, hn]
    rfl
  have hrow : Row.node? [(s.nodeAlias, n.id)] s.nodeAlias = some n.id := node?_cons_self _ _ _
  obtain ⟨stats, hrun⟩ := run_assignments hrow (s.updatedEntries record) ⟨g, .zero⟩
    (by rw [hnode]; rfl)
  have hreturned : returned s.nodeAlias (g.assign n.id (s.updatedEntries record))
      [[(s.nodeAlias, n.id)]] = .ok [n.assign (s.updatedEntries record)] := by
    refine returned_eq (.cons ⟨by rw [Node.id_assign, hrow], ?_⟩ .nil)
    rw [Store.node?_assign, Node.id_assign, hnode, Option.map_some, if_pos rfl]
  refine ⟨stats, ?_⟩
  rw [hg.assign_eq_replace hmem] at hreturned hrun
  simp only [Statement.run, updateStatement, runClauses, Clause.run, hrows, hrun, hreturned]

/-- An upsert of a record with one node updates that node and nothing else, whether or not
a create statement could be compiled. -/
theorem upsert_existing (hs : s.escape = .cypher) (hrecord : record.schema.Distinct) {g : Store}
    (hg : g.Reachable) {identity : Identity} (hidentity : s.identityOf record = .ok identity)
    {update : CompiledStatement} (hupdate : s.compileUpdate record identity = .ok update)
    {n : Node} (hn : g.matching s.keyField (s.keyOf record) = [n]) (relations : List Relation) :
    ∃ n', s.upsert (⟨g, false⟩ : MemorySession) record relations =
        (.ok (.updated (GraphNode.ofNode n')), ⟨g.replace n', false⟩) ∧
      n'.id = n.id ∧ n'.labels = n.labels ∧
      (∀ name v, s.Updates record name v →
        n'.property? name = if v.isBlank then none else some v.stored) ∧
      ∀ name, (∀ v, ¬ s.Updates record name v) → n'.property? name = n.property? name := by
  have hwell := hg.wellFormed
  obtain ⟨layout, bound, hlayout, hbound⟩ := bound_of_compileUpdate hupdate
  obtain ⟨stats, hrun⟩ := run_updateStatement record hwell hn
  have hparse := parse_compileUpdate hs hidentity hupdate
  refine ⟨n.assign (s.updatedEntries record), ?_, Node.id_assign n, Node.labels_assign n, ?_, ?_⟩
  · rw [upsert_eq hs hwell hidentity hupdate relations, hn]
    simp only [execute_of_parse hparse, hrun, settle]
  · intro name v hv
    have hentry := (mem_updatedEntries (e := (name, if v.isBlank then .null else v.stored))
      hlayout hbound).2 ⟨v, hv, rfl⟩
    have hnull := isNull_stored_of_updates hlayout hbound hv
    have hkeys : ((s.updatedEntries record).map (·.1)).Nodup :=
      NullPolicy.nodup_entries hrecord _ _
    refine (Node.property?_assign_of_mem n hkeys hentry).trans ?_
    cases hblank : v.isBlank with
    | true => rfl
    | false =>
      have hvalue : v.isNull = false := by
        cases v <;> simp_all [FieldValue.isBlank, FieldValue.isNull]
      simp [hnull, hvalue]
  · intro name hname
    refine Node.property?_assign_of_notMem n fun e he heq => ?_
    obtain ⟨v, hv, -⟩ := (mem_updatedEntries hlayout hbound).1 he
    exact hname v (heq ▸ hv)

end CompilerSettings

namespace Sample

def club : Store :=
  (Dialect.execute "MERGE (m:club \x7buid:'it\\'s', size:3, `full name`:'old'\x7d) RETURN m"
    Store.empty).2

end Sample

theorem upsert_existing_club : Sample.team.schema.Distinct ∧ Sample.club.Reachable ∧
    (CompilerSettings.default.compileCreate Sample.team
      [⟨"HAS", .outgoing, "crew"⟩]).toOption.isNone = true ∧
    ∃ n n', Sample.club.matching "uid" (.string "it's") = [n] ∧
      CompilerSettings.default.upsert (⟨Sample.club, false⟩ : MemorySession) Sample.team
        [⟨"HAS", .outgoing, "crew"⟩] =
          (.ok (.updated (GraphNode.ofNode n')), ⟨Sample.club.replace n', false⟩) ∧
      n'.id = n.id ∧ n'.labels = n.labels := by
  have hschema : Sample.team.schema.Distinct := by
    unfold RecordSchema.Distinct
    decide
  have hreachable : Sample.club.Reachable := .execute .empty _
  have hidentity : CompilerSettings.default.identityOf Sample.team =
      .ok ⟨"team", "uid", .string "it's"⟩ := rfl
  obtain ⟨update, hupdate⟩ : ∃ c, CompilerSettings.default.compileUpdate Sample.team
      ⟨"team", "uid", .string "it's"⟩ = .ok c := ⟨_, rfl⟩
  have hlength : (Sample.club.matching "uid" (.string "it's")).length = 1 := by decide +kernel
  obtain ⟨n, hn⟩ := List.length_eq_one_iff.1 hlength
  have hkey : CompilerSettings.default.keyOf Sample.team = .string "it's" := rfl
  obtain ⟨n', hupsert, hid, hlabels, -⟩ := CompilerSettings.upsert_existing rfl hschema hreachable
    hidentity hupdate (hkey ▸ hn) [⟨"HAS", .outgoing, "crew"⟩]
  exact ⟨hschema, hreachable, by decide +kernel, n, n', hn, hupsert, hid, hlabels⟩

end RecordGraph
