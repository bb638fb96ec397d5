import RecordGraph.Proofs.FlatRecords
import RecordGraph.Proofs.KeyUniqueness
import RecordGraph.Proofs.WrittenBatches

/-!
Batches of records without related data. On an empty graph no such record fails, and the graph
that a batch leaves is a map from keys to records: it has one node for each key, in the order
in which the keys come up, and what the last record with the key holds.
-/

namespace RecordGraph

open Dialect

namespace CompilerSettings

variable {s : CompilerSettings} {records : List Record} {record : Record}
  {relations : List Relation} {g : Store}

def distinctKeys (s : CompilerSettings) (records : List Record) : List PropertyValue :=
  (records.map s.keyOf).eraseDups

theorem distinctKeys_append_of_mem (h : s.keyOf record ∈ s.distinctKeys records) :
    s.distinctKeys (records ++ [record]) = s.distinctKeys records := by
  rw [distinctKeys, List.mem_eraseDups] at h
  rw [distinctKeys, distinctKeys, List.map_append, List.map_singleton, eraseDups_concat_of_mem h]

theorem distinctKeys_append_of_notMem (h : s.keyOf record ∉ s.distinctKeys records) :
    s.distinctKeys (records ++ [record]) = s.distinctKeys records ++ [s.keyOf record] := by
  rw [distinctKeys, List.mem_eraseDups] at h
  rw [distinctKeys, distinctKeys, List.map_append, List.map_singleton, eraseDups_concat_of_notMem h]

def withKey (s : CompilerSettings) (records : List Record) (key : PropertyValue) : List Record :=
  records.filter fun r => s.keyOf r = key

theorem withKey_append_of_ne {key : PropertyValue} (h : s.keyOf record ≠ key) :
    s.withKey (records ++ [record]) key = s.withKey records key := by
  simp [withKey, h]

theorem withKey_append_self (s : CompilerSettings) (records : List Record) (record : Record) :
    s.withKey (records ++ [record]) (s.keyOf record) =
      s.withKey records (s.keyOf record) ++ [record] := by
  simp [withKey]

/-- The graph that a batch of flat records leaves. -/
structure Reflects (s : CompilerSettings) (records : List Record) (g : Store) : Prop where
  keyed : g.Keyed s.keyField
  edges : g.edges = []
  keys : g.nodes.map (·.property? s.keyField) = (s.distinctKeys records).map some
  condenses : ∀ n ∈ g.nodes, ∀ key, n.property? s.keyField = some key →
    s.Condenses (s.withKey records key) n

namespace Reflects

theorem empty (s : CompilerSettings) : s.Reflects [] Store.empty :=
  ⟨.empty _, rfl, rfl, by simp [Store.empty]⟩

theorem mem_distinctKeys (h : s.Reflects records g) {n : Node} (hn : n ∈ g.nodes)
    {key : PropertyValue} (hkey : n.property? s.keyField = some key) :
    key ∈ s.distinctKeys records := by
  have hmem := List.mem_map_of_mem (f := (·.property? s.keyField)) hn
  rw [h.keys, hkey] at hmem
  obtain ⟨_, hmem, heq⟩ := List.mem_map.1 hmem
  exact Option.some.inj heq ▸ hmem

theorem exists_of_mem_distinctKeys (h : s.Reflects records g) {key : PropertyValue}
    (hkey : key ∈ s.distinctKeys records) : ∃ n ∈ g.nodes, n.property? s.keyField = some key := by
  have hmem := List.mem_map_of_mem (f := some) hkey
  rw [← h.keys] at hmem
  exact List.mem_map.1 hmem

variable {identity : Identity} {layout : Layout} {bound : List Layout.Bound}

theorem matching_of_notMem (h : s.Reflects records g) {key : PropertyValue}
    (hisKey : key.isKey = true) (hkey : key ∉ s.distinctKeys records) :
    g.matching s.keyField key = [] := by
  rw [List.eq_nil_iff_forall_not_mem]
  intro n hmatching
  obtain ⟨hn, v, hv, hagrees⟩ := Store.mem_matching.1 hmatching
  obtain rfl := (PropertyValue.agrees_iff_eq (h.keyed.isKey n hn v hv) hisKey).1 hagrees
  exact hkey (h.mem_distinctKeys hn hv)

theorem matching_of_mem (h : s.Reflects records g) {key : PropertyValue}
    (hisKey : key.isKey = true) (hkey : key ∈ s.distinctKeys records) :
    ∃ n, g.matching s.keyField key = [n] ∧ n ∈ g.nodes ∧ n.property? s.keyField = some key := by
  obtain ⟨n, hn, hv⟩ := h.exists_of_mem_distinctKeys hkey
  have hmem : n ∈ g.matching s.keyField key :=
    Store.mem_matching.2 ⟨hn, key, hv, (PropertyValue.agrees_iff_eq hisKey hisKey).2 rfl⟩
  have hfew := h.keyed.length_matching_le_one hisKey
  have hone : (g.matching s.keyField key).length = 1 :=
    Nat.le_antisymm hfew (List.length_pos_of_mem hmem)
  obtain ⟨m, hm⟩ := List.length_eq_one_iff.1 hone
  rw [hm, List.mem_singleton] at hmem
  exact ⟨n, by rw [hm, hmem], hn, hv⟩

theorem create (h : s.Reflects records g) (hnulls : s.createNulls = .dropNull)
    (hfields : s.labelField ≠ s.keyField) (hr : record.Valid)
    (hcreates : s.Creates record identity layout bound)
    (hkeyed : (s.withNode g record).Keyed s.keyField)
    (hkey : s.keyOf record ∉ s.distinctKeys records) :
    s.Reflects (records ++ [record]) (s.withNode g record) where
  keyed := hkeyed
  edges := h.edges
  keys := by
    have hnew : (s.createdNode g record).property? s.keyField = some (s.keyOf record) :=
      (property?_createdNode_iff hr.distinct (hcreates.written_of_dropNull hnulls) g _ _).2
        (hcreates.key_mem_createdEntries hr rfl hfields)
    rw [nodes_withNode, List.map_append, h.keys, distinctKeys_append_of_notMem hkey,
      List.map_append, List.map_singleton, List.map_singleton, hnew]
  condenses := by
    intro n hn key hv
    rw [nodes_withNode, List.mem_append, List.mem_singleton] at hn
    rcases hn with hn | rfl
    · have hne : s.keyOf record ≠ key := fun heq => hkey (heq ▸ h.mem_distinctKeys hn hv)
      rw [withKey_append_of_ne hne]
      exact h.condenses n hn key hv
    · obtain rfl := key_createdNode hcreates hr.distinct hv
      have hnone : s.withKey records (s.keyOf record) = [] := by
        rw [withKey, List.filter_eq_nil_iff]
        intro r hmem heq
        have hsame : s.keyOf r = s.keyOf record := by simpa using heq
        exact hkey (List.mem_eraseDups.2 (hsame ▸ List.mem_map_of_mem hmem))
      rw [withKey_append_self, hnone, List.nil_append]
      exact hcreates.condenses_createdNode hr.distinct hnulls g

theorem update (h : s.Reflects records g) (hr : record.Valid)
    (hschema : ∀ r ∈ records, r.schema = record.schema)
    (hcreates : s.Creates record identity layout bound) {n : Node} (hn : n ∈ g.nodes)
    (hv : n.property? s.keyField = some (s.keyOf record))
    (hkeyed : (g.replace (n.assign (s.updatedEntries record))).Keyed s.keyField) :
    s.Reflects (records ++ [record]) (g.replace (n.assign (s.updatedEntries record))) where
  keyed := hkeyed
  edges := h.edges
  keys := by
    obtain ⟨update, hupdate⟩ := hcreates.compileUpdate_ok
    rw [distinctKeys_append_of_mem (h.mem_distinctKeys hn hv), ← h.keys, Store.replace,
      List.map_map]
    refine List.map_congr_left fun m hm => ?_
    by_cases hid : m.id = n.id
    · obtain rfl := h.keyed.wellFormed.eq_of_id hm hn hid
      simpa using key_assign hupdate m
    · simp [hid]
  condenses := by
    intro m' hm' key hkey
    obtain ⟨update, hupdate⟩ := hcreates.compileUpdate_ok
    obtain ⟨m, hm, rfl⟩ := List.mem_map.1 hm'
    by_cases hid : m.id = n.id
    · obtain rfl := h.keyed.wellFormed.eq_of_id hm hn hid
      rw [if_pos (Node.id_assign m).symm] at hkey ⊢
      rw [key_assign hupdate, hv] at hkey
      obtain rfl := Option.some.inj hkey
      rw [withKey_append_self]
      exact (h.condenses m hm _ hv).assign hcreates hr
        (fun r hr => hschema r (List.mem_filter.1 hr).1) hv
    · rw [Node.id_assign, if_neg hid] at hkey ⊢
      have hne : s.keyOf record ≠ key := by
        rintro rfl
        exact hid (congrArg Node.id (h.keyed.unique m hm n hn _ hkey hv))
      rw [withKey_append_of_ne hne]
      exact h.condenses m hm key hkey

/-- The step lemma: a flat record is written, and counts as created if its key is new. -/
theorem upsert (h : s.Reflects records g) (hs : s.escape = .cypher)
    (hnulls : s.createNulls = .dropNull) (hfields : s.labelField ≠ s.keyField)
    (hr : record.Valid) (hflat : record.schema.Flat)
    (hschema : ∀ r ∈ records, r.schema = record.schema) {c : CompiledStatement}
    (hcreate : s.compileCreate record relations = .ok c) :
    ∃ outcome g', s.upsert (⟨g, false⟩ : MemorySession) record relations =
        (.ok outcome, ⟨g', false⟩) ∧
      s.Reflects (records ++ [record]) g' ∧
      (s.distinctKeys (records ++ [record])).length =
        (s.distinctKeys records).length + if outcome.isCreated then 1 else 0 := by
  obtain ⟨identity, layout, bound, hcreates⟩ := creates_of_compileCreate hcreate
  obtain ⟨update, hupdate⟩ := hcreates.compileUpdate_ok
  have hisKey := isKey_keyOf hcreates.identified
  obtain ⟨g', hsession, hkeyed⟩ := (keyed_upsert hs h.keyed hr.distinct relations).1
  by_cases hkey : s.keyOf record ∈ s.distinctKeys records
  · obtain ⟨n, hmatching, hn, hv⟩ := h.matching_of_mem hisKey hkey
    have hupsert := upsert_of_matching_singleton hs h.keyed.wellFormed hcreates.identified hupdate
      hmatching relations
    obtain rfl : g.replace _ = g' :=
      congrArg MemorySession.graph ((congrArg Prod.snd hupsert).symm.trans hsession)
    refine ⟨_, _, hupsert, h.update hr hschema hcreates hn hv hkeyed, ?_⟩
    rw [distinctKeys_append_of_mem hkey]
    rfl
  · have hupsert := upsert_of_related_eq_nil hs hfields hr h.keyed.wellFormed
      hflat.unrelated.related_eq_nil hcreate (hcreates.written_createdPattern hr.distinct hnulls)
      (h.matching_of_notMem hisKey hkey)
    obtain rfl : s.withNode g record = g' :=
      congrArg MemorySession.graph ((congrArg Prod.snd hupsert).symm.trans hsession)
    refine ⟨_, _, hupsert, h.create hnulls hfields hr hcreates hkeyed hkey, ?_⟩
    rw [distinctKeys_append_of_notMem hkey, List.length_append]
    rfl

end Reflects

theorem writeAll_reflects (hs : s.escape = .cypher) (hnulls : s.createNulls = .dropNull)
    (hfields : s.labelField ≠ s.keyField) {schema : RecordSchema} (hdistinct : schema.Distinct)
    (hflat : schema.Flat) (hrecords : ∀ r ∈ records, r.schema = schema ∧ r.Complete)
    (hcompiles : ∀ r ∈ records, ∃ c, s.compileCreate r relations = .ok c)
    (policy : FailurePolicy) :
    ∃ g summary, Writer.writeAll records
        (.create (⟨Store.empty, false⟩ : MemorySession) s relations policy) =
          (.ok summary, ⟨⟨g, false⟩, s, relations, policy, summary⟩) ∧
      s.Reflects records g ∧ summary.created = (s.distinctKeys records).length ∧
      summary.created + summary.updated = records.length ∧ summary.skipped = 0 := by
  induction records using List.reverseRecOn with
  | nil => exact ⟨Store.empty, .zero, rfl, .empty s, rfl, rfl, rfl⟩
  | append_singleton records record ih =>
    simp only [List.forall_mem_append, List.forall_mem_singleton] at hrecords hcompiles
    obtain ⟨hrecords, rfl, hcomplete⟩ := hrecords
    obtain ⟨hcompiles, c, hcreate⟩ := hcompiles
    obtain ⟨g, summary, hrun, hreflects, hcreated, htotal, hskipped⟩ := ih hrecords hcompiles
    obtain ⟨outcome, g', hupsert, hnext, hkeys⟩ := hreflects.upsert hs hnulls hfields
      ⟨hdistinct, hcomplete⟩ hflat (fun r hr => (hrecords r hr).1) hcreate
    refine ⟨g', summary.count outcome, ?_, hnext, ?_, ?_, ?_⟩
    · rw [Writer.writeAll_append_of_ok (congrArg Prod.fst hrun), hrun,
        Writer.writeAll_cons_of_ok (Writer.write_of_ok hupsert)]
      rfl
    · rw [hkeys, ← hcreated, WriteSummary.count]
      split <;> rfl
    · rw [List.length_append, ← htotal, WriteSummary.count]
      split <;> simp only [List.length_singleton] <;> omega
    · rw [WriteSummary.skipped_count, hskipped]

/-- A batch of flat records of one schema, written to an empty graph under either policy, fails on
none of them. It creates a node for each distinct key and updates one for every other record. The
graph then has no edges and its nodes are the keys in the order in which they come up, each with
the label of the first record with the key and, if that is the only one, its fields that are not
null, and otherwise the fields of the last that are neither null nor the empty string. -/
theorem writeAll_flat (hs : s.escape = .cypher) (hnulls : s.createNulls = .dropNull)
    (hfields : s.labelField ≠ s.keyField) {schema : RecordSchema} (hdistinct : schema.Distinct)
    (hflat : schema.Flat) (hrecords : ∀ r ∈ records, r.schema = schema ∧ r.Complete)
    (hcompiles : ∀ r ∈ records, ∃ c, s.compileCreate r relations = .ok c)
    (policy : FailurePolicy) :
    ∃ g summary, Writer.writeAll records
        (.create (⟨Store.empty, false⟩ : MemorySession) s relations policy) =
          (.ok summary, ⟨⟨g, false⟩, s, relations, policy, summary⟩) ∧
      summary.created = (records.map s.keyOf).eraseDups.length ∧
      summary.created + summary.updated = records.length ∧ summary.skipped = 0 ∧
      g.edges = [] ∧
      g.nodes.map (·.property? s.keyField) = (records.map s.keyOf).eraseDups.map some ∧
      ∀ n ∈ g.nodes, ∃ key first last,
        n.property? s.keyField = some key ∧ n.labels = [s.labelOf first] ∧
        (records.filter fun r => s.keyOf r = key).head? = some first ∧
        (records.filter fun r => s.keyOf r = key).getLast? = some last ∧
        ∀ name value, n.property? name = some value ↔
          name ≠ s.labelField ∧ ∃ v, last.Holds name v ∧ v.stored = value ∧
            if (records.filter fun r => s.keyOf r = key).length = 1 then v.isNull = false
            else v.isBlank = false := by
  obtain ⟨g, summary, hrun, hreflects, hcreated, htotal, hskipped⟩ :=
    writeAll_reflects hs hnulls hfields hdistinct hflat hrecords hcompiles policy
  refine ⟨g, summary, hrun, hcreated, htotal, hskipped, hreflects.edges, hreflects.keys, ?_⟩
  intro n hn
  have hkeyed := List.mem_map_of_mem (f := (·.property? s.keyField)) hn
  rw [hreflects.keys] at hkeyed
  obtain ⟨key, -, hkey⟩ := List.mem_map.1 hkeyed
  obtain ⟨⟨first, hfirst, hlabels⟩, last, hlast, hproperties⟩ :=
    hreflects.condenses n hn key hkey.symm
  exact ⟨key, first, last, hkey.symm, hlabels, hfirst, hlast, hproperties⟩

end CompilerSettings

namespace Sample

def pupilSchema : RecordSchema :=
  ⟨"Pupil", [("type", .string), ("uid", .long), ("name", .nullable .string)]⟩

def pupil (type : String) (uid name : FieldValue) : Record :=
  ⟨pupilSchema, [("type", .string type), ("uid", uid), ("name", name)]⟩

def pupils : List Record :=
  [pupil "Person" (.int 7) (.string "Ann"), pupil "Person" (.long 8) (.string ""),
    pupil "Captain" (.long 7) .null]

end Sample

theorem writeAll_flat_pupils : Sample.pupilSchema.Distinct ∧ Sample.pupilSchema.Flat ∧
    ∃ g, (Writer.writeAll Sample.pupils
        (.create (⟨Store.empty, false⟩ : MemorySession) .default [] .abort)).2.session = ⟨g, false⟩ ∧
      (Writer.writeAll Sample.pupils
        (.create (⟨Store.empty, false⟩ : MemorySession) .default [] .abort)).1 = .ok ⟨2, 1, 0⟩ ∧
      g.edges = [] ∧
      g.nodes.map (·.property? "uid") = [some (.integer 7), some (.integer 8)] := by
  have hdistinct : Sample.pupilSchema.Distinct := by
    unfold RecordSchema.Distinct
    decide
  have hflat : Sample.pupilSchema.Flat := by
    intro f hf shape hshape
    simp only [Sample.pupilSchema, List.mem_cons, List.not_mem_nil, or_false] at hf
    rcases hf with rfl | rfl | rfl
    all_goals
      obtain rfl := Except.ok.inj hshape
      rfl
  have hrecords : ∀ r ∈ Sample.pupils, r.schema = Sample.pupilSchema ∧ r.Complete := by
    simp [Sample.pupils, Sample.pupil, Sample.pupilSchema, Record.Complete]
  have hcompiles : ∀ r ∈ Sample.pupils,
      ∃ c, CompilerSettings.default.compileCreate r [] = .ok c := by
    simp only [Sample.pupils, List.forall_mem_cons]
    exact ⟨⟨_, rfl⟩, ⟨_, rfl⟩, ⟨_, rfl⟩, by simp⟩
  have hkeys : (Sample.pupils.map CompilerSettings.default.keyOf).eraseDups =
      [.integer 7, .integer 8] := by
    decide +kernel
  obtain ⟨g, ⟨created, updated, skipped⟩, hrun, hcreated, htotal, hskipped, hedges, hnodes, -⟩ :=
    CompilerSettings.writeAll_flat rfl rfl (by decide) hdistinct hflat hrecords hcompiles .abort
  rw [hkeys] at hcreated hnodes
  obtain rfl : created = 2 := hcreated
  obtain rfl : updated = 1 := Nat.add_left_cancel htotal
  obtain rfl : skipped = 0 := hskipped
  rw [hrun]
  exact ⟨hdistinct, hflat, g, rfl, rfl, hedges, hnodes⟩

end RecordGraph
