import RecordGraph.Proofs.AgreementLaws
import RecordGraph.Proofs.KeyUniqueness
import RecordGraph.Proofs.SuccessfulUpsert

/-!
Different keys and the nodes they lead to. A stored value agrees with one key at most, unless
it is a floating-point number so large that several integers round to it. Without such a number
under the key field no node is found by two keys. Updates keep what stands there, so in any run
of upserts no node is written for one key and then updated for another; with such a number, the
second record overwrites the first.
-/

namespace RecordGraph

open Number Dialect Statement

namespace PropertyValue

theorem agrees_both_iff {v k l : PropertyValue} (hk : k.isKey = true) (hl : l.isKey = true)
    (hne : k ≠ l) : v.agrees k = true ∧ v.agrees l = true ↔ v.Blurs k l := by
  rw [agrees_comm v k, agrees_comm v l]
  exact ⟨fun h => blurs_of_agrees hk hl hne h.1 h.2, Blurs.agrees⟩

end PropertyValue

theorem Store.mem_matching_both_iff {g : Store} {keyField : String} {k l : PropertyValue}
    (hk : k.isKey = true) (hl : l.isKey = true) (hne : k ≠ l) {n : Node} :
    n ∈ g.matching keyField k ∧ n ∈ g.matching keyField l ↔
      n ∈ g.nodes ∧ ∃ v, n.property? keyField = some v ∧ v.Blurs k l := by
  simp only [Store.mem_matching, ← PropertyValue.agrees_both_iff hk hl hne]
  constructor
  · rintro ⟨⟨hn, v, hv, hvk⟩, -, w, hw, hwl⟩
    obtain rfl := Option.some.inj (hv.symm.trans hw)
    exact ⟨hn, v, hv, hvk, hwl⟩
  · rintro ⟨hn, v, hv, hvk, hvl⟩
    exact ⟨⟨hn, v, hv, hvk⟩, hn, v, hv, hvl⟩

namespace CompilerSettings

variable {s : CompilerSettings} {record : Record} {relations : List Relation} {g g' g'' : Store}

/-- Settings that embed strings as they are leave it to the caller that nothing in them is to be
escaped. -/
def Sanitized (s : CompilerSettings) (v : FieldValue) : Prop :=
  s.escape = .verbatim → ∀ t, v = .string t → '\\' ∉ t.toList ∧ '\'' ∉ t.toList

theorem quote_verbatim {t : String} (hback : '\\' ∉ t.toList) (hquote : '\'' ∉ t.toList) :
    quote .verbatim t = quote .cypher t := by
  have hsame : ∀ cs : List Char, '\\' ∉ cs → '\'' ∉ cs → cs.flatMap escapeChar = cs := by
    intro cs
    induction cs with
    | nil => simp
    | cons c cs ih =>
      intro hback hquote
      simp only [List.mem_cons, not_or] at hback hquote
      simp [escapeChar, ne_comm.1 hback.1, ne_comm.1 hquote.1, ih hback.2 hquote.2]
  rw [quote, quote, quoteChars, quoteChars, hsame _ hback hquote]

theorem execute_keyLookup (hg : g.WellFormed) (keyField : String) {v : FieldValue}
    (hv : Identity.isKey v = true) (hs : s.Sanitized v) :
    ∃ c, s.compileKeyLookup keyField v = .ok c ∧
      Dialect.execute c.text g = (.ok (g.matching keyField v.stored), g) := by
  have hcypher : s.compileKeyLookup keyField v =
      { s with escape := .cypher }.compileKeyLookup keyField v := by
    cases hescape : s.escape with
    | cypher => rw [← hescape]
    | verbatim =>
      cases v with
      | string t =>
        obtain ⟨hback, hquote⟩ := hs hescape t rfl
        simp only [compileKeyLookup, keyLiteral, literal, hescape, quote_verbatim hback hquote]
      | int i => rfl
      | long i => rfl
      | _ => simp [Identity.isKey] at hv
  obtain ⟨c, hc⟩ := compileKeyLookup_of_isKey { s with escape := .cypher } keyField hv
  exact ⟨c, hcypher.trans hc, execute_lookup rfl hg hc⟩

/-- Every node of the first store stays, with what it has under the key field. -/
def KeepsKeys (s : CompilerSettings) (g g' : Store) : Prop :=
  ∀ n ∈ g.nodes, ∃ n' ∈ g'.nodes, n'.id = n.id ∧ n'.property? s.keyField = n.property? s.keyField

theorem KeepsKeys.refl (s : CompilerSettings) (g : Store) : s.KeepsKeys g g := fun n hn =>
  ⟨n, hn, rfl, rfl⟩

theorem KeepsKeys.trans (h : s.KeepsKeys g g') (h' : s.KeepsKeys g' g'') : s.KeepsKeys g g'' := by
  intro n hn
  obtain ⟨n', hn', hid, hkey⟩ := h n hn
  obtain ⟨n'', hn'', hid', hkey'⟩ := h' n' hn'
  exact ⟨n'', hn'', hid'.trans hid, hkey'.trans hkey⟩

theorem subset_nodes_createStatement (g : Store) (record : Record) (relations : List Relation) :
    g.nodes ⊆ ((s.createStatement record relations).run g).2.store.nodes := by
  have hmerge : g.nodes ⊆ (mergePattern (s.createdPattern record) (s.choices g record.related)
      ⟨g, .zero⟩).2.store.nodes := by
    unfold mergePattern
    split
    · exact List.Subset.refl _
    · exact subset_nodes_mergeNodeRows _ _ ⟨g, .zero⟩
  rw [Statement.run, runClauses_createStatement, runClauses, Clause.run]
  rcases hresult : mergePattern (s.createdPattern record) (s.choices g record.related)
    ⟨g, .zero⟩ with ⟨e | rows, p⟩
  · rwa [hresult] at hmerge
  · have hedges := nodes_relationships (s.edgePatterns record relations) rows p
    rw [hresult] at hmerge
    rcases hrun : runClauses ((s.edgePatterns record relations).map .mergeRelationship) rows p
      with ⟨e | rows', p'⟩ <;> rw [hrun] at hedges <;> simp only [hrun] <;> exact hedges ▸ hmerge

theorem keepsKeys_replace (hg : g.WellFormed) {identity : Identity} {update : CompiledStatement}
    (hupdate : s.compileUpdate record identity = .ok update) {n : Node} (hn : n ∈ g.nodes) :
    s.KeepsKeys g (g.replace (n.assign (s.updatedEntries record))) := by
  intro m hm
  refine ⟨_, List.mem_map_of_mem hm, ?_⟩
  by_cases hid : m.id = n.id
  · obtain rfl := hg.eq_of_id hm hn hid
    rw [if_pos (Node.id_assign m).symm]
    exact ⟨Node.id_assign m, key_assign hupdate m⟩
  · rw [if_neg (Node.id_assign n ▸ hid)]
    exact ⟨rfl, rfl⟩

theorem keepsKeys_upsert (hs : s.escape = .cypher) (hg : g.WellFormed)
    (hrecord : record.schema.Distinct) (relations : List Relation) :
    ∃ g', (s.upsert (⟨g, false⟩ : MemorySession) record relations).2 = ⟨g', false⟩ ∧
      g'.WellFormed ∧ s.KeepsKeys g g' := by
  cases hprepared : s.prepareUpsert record relations with
  | error e => exact ⟨g, by rw [upsert, hprepared], hg, .refl s g⟩
  | ok prepared =>
    obtain ⟨hidentity, hupdate, -⟩ := prepareUpsert_eq_ok hprepared
    rw [upsert_eq hs hg hidentity hupdate relations]
    rcases hnodes : g.matching s.keyField (s.keyOf record) with _ | ⟨n, _ | ⟨m, more⟩⟩
    · cases hcreate : s.compileCreate record relations with
      | error e => exact ⟨g, rfl, hg, .refl s g⟩
      | ok c =>
        rcases settle_session prepared.identity .created g (Dialect.execute c.text g) with h | h
        · exact ⟨g, h, hg, .refl s g⟩
        · refine ⟨_, h, hg.steps (steps_execute c.text g), fun n hn => ⟨n, ?_, rfl, rfl⟩⟩
          rw [execute_compileCreate hs hrecord hcreate]
          exact subset_nodes_createStatement g record relations hn
    · have hmem : n ∈ g.nodes := (Store.mem_matching.1 (hnodes ▸ List.mem_singleton_self n)).1
      rcases settle_session prepared.identity .updated g
        (Dialect.execute prepared.update.text g) with h | h
      · exact ⟨g, h, hg, .refl s g⟩
      · refine ⟨_, h, hg.steps (steps_execute prepared.update.text g), ?_⟩
        obtain ⟨stats, hrun⟩ := run_updateStatement record hg hnodes
        rw [execute_of_parse (parse_compileUpdate hs hidentity hupdate), hrun]
        exact keepsKeys_replace hg hupdate hmem
    · exact ⟨g, rfl, hg, .refl s g⟩

def upsertAll (s : CompilerSettings) (session : MemorySession)
    (jobs : List (Record × List Relation)) : MemorySession :=
  jobs.foldl (fun session job => (s.upsert session job.1 job.2).2) session

theorem keepsKeys_upsertAll (hs : s.escape = .cypher) (hg : g.WellFormed)
    {jobs : List (Record × List Relation)} (hjobs : ∀ job ∈ jobs, job.1.schema.Distinct) :
    ∃ g', s.upsertAll ⟨g, false⟩ jobs = ⟨g', false⟩ ∧ g'.WellFormed ∧ s.KeepsKeys g g' := by
  induction jobs generalizing g with
  | nil => exact ⟨g, rfl, hg, .refl s g⟩
  | cons job rest ih =>
    obtain ⟨g', hsession, hg', hkeeps⟩ :=
      keepsKeys_upsert hs hg (hjobs job List.mem_cons_self) job.2
    obtain ⟨g'', hrest, hg'', hkeeps'⟩ := ih hg' fun j hj => hjobs j (List.mem_cons_of_mem _ hj)
    refine ⟨g'', ?_, hg'', hkeeps.trans hkeeps'⟩
    rw [upsertAll, List.foldl_cons, hsession]
    exact hrest

variable {outcome : UpsertOutcome} {session : MemorySession}

theorem isKey_of_upsert (h : s.upsert (⟨g, false⟩ : MemorySession) record relations =
    (.ok outcome, session)) : (s.keyOf record).isKey = true := by
  cases hprepared : s.prepareUpsert record relations with
  | error e => simp [upsert, hprepared] at h
  | ok prepared => exact isKey_keyOf (prepareUpsert_eq_ok hprepared).1

theorem key_of_upsert (hs : s.escape = .cypher) (hr : record.Valid) (hg : g.WellFormed)
    (hfields : s.labelField ≠ s.keyField ∨ outcome.isCreated = false)
    (h : s.upsert (⟨g, false⟩ : MemorySession) record relations = (.ok outcome, session)) :
    ∃ g', session = ⟨g', false⟩ ∧ g'.WellFormed ∧ s.KeepsKeys g g' ∧
      ∃ n ∈ g'.nodes, outcome.node.id = natText n.id ∧ ∃ v, n.property? s.keyField = some v ∧
        v.agrees (s.keyOf record) = true ∧
        (v = s.keyOf record ∨ ∃ m ∈ g.nodes, m.id = n.id ∧ m.property? s.keyField = some v) := by
  obtain ⟨g', hsession, hg', hkeeps⟩ := keepsKeys_upsert hs hg hr.distinct relations
  rw [h] at hsession
  subst hsession
  refine ⟨g', rfl, hg', hkeeps, ?_⟩
  cases outcome with
  | created node =>
    have hfields := hfields.resolve_right (by simp [UpsertOutcome.isCreated])
    have hmade := made_of_upsert hs hfields hr hg h
    obtain ⟨c, hcreate⟩ := hmade.compiled
    obtain ⟨identity, layout, bound, hcreates⟩ := creates_of_compileCreate hcreate
    obtain ⟨hmem, v, hv, hagrees⟩ := Store.mem_matching.1 (hmade.mem_matching hfields hr)
    obtain rfl := congrArg MemorySession.graph hmade.session
    exact ⟨_, hmem, congrArg GraphNode.id hmade.node, v, hv, hagrees,
      .inl (key_createdNode hcreates hr.distinct hv)⟩
  | updated node =>
    obtain ⟨m, hm, rfl⟩ := found_of_upsert hs hg hr.distinct h
    obtain ⟨hmem, v, hv, hagrees⟩ := Store.mem_matching.1 (hm ▸ List.mem_singleton_self m)
    obtain ⟨n, hn, hid, hkey⟩ := hkeeps m hmem
    refine ⟨n, hn, ?_, v, hkey.trans hv, hagrees, .inr ⟨m, hmem, hid.symm, hv⟩⟩
    rw [UpsertOutcome.node, GraphNode.ofNode, Node.id_assign, hid]

theorem blurs_of_updated (hs : s.escape = .cypher) (hr : record.Valid) (hg : g.WellFormed)
    (hfields : s.labelField ≠ s.keyField ∨ outcome.isCreated = false)
    (h : s.upsert (⟨g, false⟩ : MemorySession) record relations = (.ok outcome, session))
    {jobs : List (Record × List Relation)} (hjobs : ∀ job ∈ jobs, job.1.schema.Distinct)
    {record' : Record} (hr' : record'.Valid) {relations' : List Relation} {node : GraphNode}
    {session' : MemorySession}
    (h' : s.upsert (s.upsertAll session jobs) record' relations' = (.ok (.updated node), session'))
    (hnode : outcome.node.id = node.id) (hne : s.keyOf record ≠ s.keyOf record') :
    ∃ n ∈ g.nodes, node.id = natText n.id ∧
      ∃ v, n.property? s.keyField = some v ∧ v.Blurs (s.keyOf record) (s.keyOf record') := by
  obtain ⟨g₁, rfl, hg₁, -, n, hn, hid, v, hv, hagrees, hold⟩ := key_of_upsert hs hr hg hfields h
  obtain ⟨g₂, hsession, hg₂, hkeeps⟩ := keepsKeys_upsertAll hs hg₁ hjobs
  rw [hsession] at h'
  obtain ⟨m, hm, rfl⟩ := found_of_upsert hs hg₂ hr'.distinct h'
  obtain ⟨hmem, w, hw, hagrees'⟩ := Store.mem_matching.1 (hm ▸ List.mem_singleton_self m)
  obtain ⟨n₂, hn₂, hid₂, hkey⟩ := hkeeps n hn
  -- Both outcomes name the node by its id, which no other node has.
  have hids : n₂.id = m.id := by
    rw [hid₂]
    refine natText_injective (hid.symm.trans (hnode.trans ?_))
    rw [GraphNode.ofNode, Node.id_assign]
  obtain rfl := hg₂.eq_of_id hn₂ hmem hids
  obtain rfl := Option.some.inj ((hkey.trans hv).symm.trans hw)
  have hkeys := isKey_of_upsert h
  have hkeys' := isKey_of_upsert h'
  rcases hold with rfl | ⟨n₀, hn₀, hid₀, hv₀⟩
  · exact absurd ((PropertyValue.agrees_iff_eq hkeys hkeys').1 hagrees') hne
  · refine ⟨n₀, hn₀, ?_, v, hv₀, (PropertyValue.agrees_both_iff hkeys hkeys' hne).1
      ⟨hagrees, hagrees'⟩⟩
    rw [hid₀, ← hid, hnode]

/-- A node is found by two keys only if a floating-point number stands under the key field that
both, integers from `2 ^ 53` on, are rounded to. Where no such number stands, no node that is
written for one key is updated for another, whatever upserts are made in between. -/
theorem keys_apart (hg : g.Reachable) :
    (∀ (s : CompilerSettings) keyField v w, Identity.isKey v = true → Identity.isKey w = true →
      s.Sanitized v → s.Sanitized w → v.stored ≠ w.stored →
      ∃ c d ns ms, s.compileKeyLookup keyField v = .ok c ∧ s.compileKeyLookup keyField w = .ok d ∧
        Dialect.execute c.text g = (.ok ns, g) ∧ Dialect.execute d.text g = (.ok ms, g) ∧
        ∀ n, n ∈ ns ∧ n ∈ ms ↔ n ∈ g.nodes ∧
          ∃ u, n.property? keyField = some u ∧ u.Blurs v.stored w.stored) ∧
    ∀ s : CompilerSettings, s.escape = .cypher → ∀ record relations outcome session, record.Valid →
      s.labelField ≠ s.keyField ∨ outcome.isCreated = false →
      s.upsert (⟨g, false⟩ : MemorySession) record relations = (.ok outcome, session) →
      ∀ jobs : List (Record × List Relation), (∀ job ∈ jobs, job.1.schema.Distinct) →
      ∀ record' relations' node session', record'.Valid →
      s.upsert (s.upsertAll session jobs) record' relations' = (.ok (.updated node), session') →
      outcome.node.id = node.id → s.keyOf record ≠ s.keyOf record' →
      ∃ n ∈ g.nodes, node.id = natText n.id ∧
        ∃ v, n.property? s.keyField = some v ∧ v.Blurs (s.keyOf record) (s.keyOf record') := by
  have hwell := hg.wellFormed
  constructor
  · intro s keyField v w hv hw hsv hsw hne
    obtain ⟨c, hc, hns⟩ := execute_keyLookup hwell keyField hv hsv
    obtain ⟨d, hd, hms⟩ := execute_keyLookup hwell keyField hw hsw
    exact ⟨c, d, _, _, hc, hd, hns, hms,
      fun n => Store.mem_matching_both_iff (isKey_stored hv) (isKey_stored hw) hne⟩
  · intro s hs record relations outcome session hr hfields h jobs hjobs record' relations' node
      session' hr' h' hnode hne
    exact blurs_of_updated hs hr hwell hfields h hjobs hr' h' hnode hne

end CompilerSettings

namespace Sample

def numbered (uid : Int64) (name : String) : Record :=
  ⟨⟨"Person", [("type", .string), ("uid", .long), ("name", .string)]⟩,
    [("type", .string "Person"), ("uid", .long uid), ("name", .string name)]⟩

theorem valid_numbered (uid : Int64) (name : String) : (numbered uid name).Valid := by
  refine ⟨?_, rfl⟩
  change (["type", "uid", "name"] : List String).Nodup
  decide

def rounded : Store :=
  (Dialect.execute "MERGE (m:person \x7buid:9007199254740992.0\x7d) RETURN m" .empty).2

def roundedNode (properties : List (String × PropertyValue)) : Node :=
  Node.create 0 ["person"]
    (Dict.ofList (("uid", .float (.ofInt .double 9007199254740992)) :: properties))

theorem rounded_eq : rounded = ⟨[roundedNode []], [], 1, 0⟩ := by
  decide +kernel

theorem reachable_rounded : rounded.Reachable :=
  .execute .empty _

theorem upsert_single {n n' : Node} {record : Record} {identity : Identity}
    {update : CompiledStatement} (hg : (⟨[n], [], 1, 0⟩ : Store).WellFormed)
    (hidentity : CompilerSettings.default.identityOf record = .ok identity)
    (hupdate : CompilerSettings.default.compileUpdate record identity = .ok update)
    (hn : (⟨[n], [], 1, 0⟩ : Store).matching "uid" (CompilerSettings.default.keyOf record) = [n])
    (hassign : n.assign (CompilerSettings.default.updatedEntries record) = n') :
    CompilerSettings.default.upsert (⟨⟨[n], [], 1, 0⟩, false⟩ : MemorySession) record [] =
      (.ok (.updated (GraphNode.ofNode n')), ⟨⟨[n'], [], 1, 0⟩, false⟩) := by
  subst hassign
  rw [CompilerSettings.upsert_of_matching_singleton rfl hg hidentity hupdate hn, Store.replace,
    List.map_singleton, if_pos (Node.id_assign n).symm]

theorem wellFormed_single {n : Node} (hid : n.id = 0)
    (hnull : ∀ e ∈ n.properties.entries, e.2.isNull = false) :
    (⟨[n], [], 1, 0⟩ : Store).WellFormed :=
  ⟨by simp [hid, List.range_succ], rfl, nofun, by simpa using hnull⟩

theorem upserts_rounded :
    CompilerSettings.default.upsert (⟨rounded, false⟩ : MemorySession)
        (numbered 9007199254740992 "Ann") [] =
      (.ok (.updated (GraphNode.ofNode (roundedNode [("name", .string "Ann")]))),
        ⟨⟨[roundedNode [("name", .string "Ann")]], [], 1, 0⟩, false⟩) ∧
    CompilerSettings.default.upsert
        (⟨⟨[roundedNode [("name", .string "Ann")]], [], 1, 0⟩, false⟩ : MemorySession)
        (numbered 9007199254740993 "Ben") [] =
      (.ok (.updated (GraphNode.ofNode (roundedNode [("name", .string "Ben")]))),
        ⟨⟨[roundedNode [("name", .string "Ben")]], [], 1, 0⟩, false⟩) := by
  constructor
  · rw [rounded_eq]
    exact upsert_single (wellFormed_single rfl (by decide)) rfl rfl (by decide +kernel)
      (by decide +kernel)
  · exact upsert_single (wellFormed_single rfl (by decide)) rfl rfl (by decide +kernel)
      (by decide +kernel)

end Sample

/-- Two numbers that one double stands for: the node that has it is found by either, and the
record of the second overwrites what the record of the first has set. -/
theorem keys_meet_rounded : Sample.rounded.Reachable ∧
    (∃ c d n, CompilerSettings.default.compileKeyLookup "uid" (.long 9007199254740992) = .ok c ∧
      CompilerSettings.default.compileKeyLookup "uid" (.long 9007199254740993) = .ok d ∧
      Dialect.execute c.text Sample.rounded = (.ok [n], Sample.rounded) ∧
      Dialect.execute d.text Sample.rounded = (.ok [n], Sample.rounded)) ∧
    ∃ n n' session session',
      CompilerSettings.default.upsert (⟨Sample.rounded, false⟩ : MemorySession)
        (Sample.numbered 9007199254740992 "Ann") [] = (.ok (.updated n), session) ∧
      CompilerSettings.default.upsert session (Sample.numbered 9007199254740993 "Ben") [] =
        (.ok (.updated n'), session') ∧
      n.id = n'.id ∧ n.property? "name" = some (.string "Ann") ∧
      n'.property? "name" = some (.string "Ben") := by
  have hlookup (uid : Int64) := CompilerSettings.execute_keyLookup (s := .default) (v := .long uid)
    Sample.reachable_rounded.wellFormed "uid" rfl nofun
  have hmatching : Sample.rounded.matching "uid" (.integer 9007199254740992) =
        [Sample.roundedNode []] ∧
      Sample.rounded.matching "uid" (.integer 9007199254740993) = [Sample.roundedNode []] := by
    rw [Sample.rounded_eq]
    decide +kernel
  obtain ⟨c, hc, hexecute⟩ := hlookup 9007199254740992
  obtain ⟨d, hd, hexecute'⟩ := hlookup 9007199254740993
  obtain ⟨hfirst, hsecond⟩ := Sample.upserts_rounded
  exact ⟨Sample.reachable_rounded,
    ⟨c, d, _, hc, hd, hexecute.trans (by rw [FieldValue.stored, hmatching.1]),
      hexecute'.trans (by rw [FieldValue.stored, hmatching.2])⟩,
    _, _, _, _, hfirst, hsecond, rfl, by decide +kernel, by decide +kernel⟩

theorem keys_apart_rounded : Sample.rounded.Reachable ∧
    (∃ c d ns ms, CompilerSettings.default.compileKeyLookup "uid" (.long 9007199254740992) = .ok c ∧
      CompilerSettings.default.compileKeyLookup "uid" (.string "9007199254740992") = .ok d ∧
      Dialect.execute c.text Sample.rounded = (.ok ns, Sample.rounded) ∧
      Dialect.execute d.text Sample.rounded = (.ok ms, Sample.rounded) ∧ ∀ n, ¬ (n ∈ ns ∧ n ∈ ms)) ∧
    ∃ n ∈ Sample.rounded.nodes, "0" = natText n.id ∧ ∃ v, n.property? "uid" = some v ∧
      v.Blurs (.integer 9007199254740992) (.integer 9007199254740993) := by
  obtain ⟨hlookups, hupserts⟩ := CompilerSettings.keys_apart Sample.reachable_rounded
  obtain ⟨hfirst, hsecond⟩ := Sample.upserts_rounded
  refine ⟨Sample.reachable_rounded, ?_, ?_⟩
  · obtain ⟨c, d, ns, ms, hc, hd, hns, hms, hboth⟩ := hlookups .default "uid"
      (.long 9007199254740992) (.string "9007199254740992") rfl rfl nofun nofun nofun
    refine ⟨c, d, ns, ms, hc, hd, hns, hms, fun n hn => ?_⟩
    obtain ⟨-, v, -, x, i, j, -, -, hj, -⟩ := (hboth n).1 hn
    cases hj
  · exact hupserts .default rfl _ _ _ _ (Sample.valid_numbered 9007199254740992 "Ann")
      (.inr rfl) hfirst [] nofun _ _ _ _ (Sample.valid_numbered 9007199254740993 "Ben") hsecond rfl
      (by decide)

end RecordGraph
