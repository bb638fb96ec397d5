import RecordGraph.Proofs.CompiledExecution
import RecordGraph.Proofs.SuccessfulUpsert

/-!
Related records without a node. They are looked up one after the other, while a create
statement matches them all at once. Both take the same records in the same order by the same
keys, so the look-ups tell beforehand what an upsert of a new record comes to.
-/

namespace RecordGraph

open Dialect Statement

namespace Dialect

theorem length_le_of_mergeNodeRows_ok {p : NodePattern} {rows merged : List Row} {g : Progress}
    (h : (mergeNodeRows p rows g).1 = .ok merged) : rows.length ≤ merged.length := by
  induction rows generalizing g merged with
  | nil => exact Nat.zero_le _
  | cons row rest ih =>
    have hfound : 1 ≤ (findOrCreate p g).1.length := by
      unfold findOrCreate
      split
      · simp
      · rename_i hne
        exact List.length_pos_of_ne_nil hne
    unfold mergeNodeRows at h
    split at h
    · simp at h
    · rcases hmerge : mergeNodeRows p rest (findOrCreate p g).2 with ⟨e | more, g'⟩
      · simp [hmerge] at h
      · have hmore := ih (congrArg Prod.fst hmerge)
        simp only [hmerge] at h
        rw [← Except.ok.inj h, List.length_append, List.length_map, List.length_cons]
        omega

theorem length_of_returned_ok {var : String} {store : Store} {rows : List Row}
    {nodes : List Node} (h : returned var store rows = .ok nodes) :
    nodes.length = rows.length := by
  induction rows generalizing nodes with
  | nil =>
    obtain rfl := Except.ok.inj h
    rfl
  | cons row rest ih =>
    cases hid : bound row var with
    | error e => simp [returned, bind, Except.bind, hid] at h
    | ok id =>
      cases hnode : store.node? id with
      | none => simp [returned, bind, Except.bind, hid, hnode] at h
      | some n =>
        cases hmore : returned var store rest with
        | error e => simp [returned, bind, Except.bind, hid, hnode, hmore] at h
        | ok more =>
          simp only [returned, bind, Except.bind, hid, hnode, hmore, pure_eq_ok] at h
          rw [← h, List.length_cons, List.length_cons, ih hmore]

end Dialect

namespace Identity

variable {labelField keyField path : String} {record : Record} {i : Identity}

theorem ofRecord?_of_require (h : require labelField keyField record path = .ok i) :
    ofRecord? labelField keyField record = some i := by
  unfold require at h
  split at h
  · rename_i identity hidentity
    rw [hidentity, Except.ok.inj h]
  · simp at h

theorem ofRecord?_eq_some (h : ofRecord? labelField keyField record = some i) :
    i.keyField = keyField ∧ record.get? keyField = some i.keyValue ∧ isKey i.keyValue = true := by
  have hrequire : require labelField keyField record "" = .ok i := by
    simp [require, h]
  obtain ⟨hfield, -, hkey⟩ := require_eq_ok hrequire
  exact ⟨hfield, hkey⟩

end Identity

theorem singleNode_of_length_le_one {nodes : List GraphNode} (h : nodes.length ≤ 1)
    (keyField : String) (keyValue : FieldValue) :
    singleNode nodes keyField keyValue = .ok nodes.head? := by
  rcases nodes with _ | ⟨n, _ | ⟨m, more⟩⟩
  · rfl
  · rfl
  · simp at h

theorem singleNode_of_two_le {nodes : List GraphNode} (h : 2 ≤ nodes.length) (keyField : String)
    (keyValue : FieldValue) :
    singleNode nodes keyField keyValue =
      .error (.ambiguous keyField keyValue.display nodes.length) := by
  rcases nodes with _ | ⟨n, _ | ⟨m, more⟩⟩
  · simp at h
  · simp at h
  · rfl

namespace CompilerSettings

/-- The identity by which a related record is looked up. -/
def Identifies (s : CompilerSettings) (i : Identity) (record : Record) : Prop :=
  Identity.ofRecord? s.labelField s.keyField record = some i

end CompilerSettings

theorem records_relatedFrom (next : Nat) (bound : List Layout.Bound) :
    (relatedFrom next bound).map (·.record) = bound.flatMap (·.value.records) := by
  rw [relatedFrom, List.map_map]
  change List.map (Prod.snd ∘ Prod.fst) _ = _
  rw [← List.map_map, List.zipIdx_map_fst, List.map_flatMap]
  simp

namespace Related

variable {s : CompilerSettings}

theorem identifies_of_identify {located : Located} {i : Identity}
    (h : identify s located = .ok i) : s.Identifies i located.2 := by
  simp only [identify, bind_eq_ok] at h
  obtain ⟨_, -, _, -, hrequire⟩ := h
  exact Identity.ofRecord?_of_require hrequire

theorem identities_matchRecords {next : Nat} {located : List Located}
    {found : List (Match × String)} (h : matchRecords s next located = .ok found) :
    List.Forall₂ s.Identifies (found.map (·.1.identity)) (located.map (·.2)) := by
  induction located generalizing next found with
  | nil =>
    obtain rfl := Except.ok.inj h
    exact .nil
  | cons l rest ih =>
    simp only [matchRecords, bind_eq_ok, pure_eq_ok] at h
    obtain ⟨i, hi, _, -, more, hmore, rfl⟩ := h
    exact .cons (identifies_of_identify hi) (ih hmore)

theorem identities_ofBound {next : Nat} {bound : List Layout.Bound} {record : Record}
    (hfits : ∀ b ∈ bound, b.Fits record) {related : Related}
    (h : ofBound s next bound = .ok related) :
    List.Forall₂ s.Identifies ((related.bindings.flatMap (·.2)).map (·.identity))
      (bound.flatMap (·.value.records)) := by
  induction bound generalizing next related with
  | nil =>
    obtain rfl := Except.ok.inj h
    exact .nil
  | cons b rest ih =>
    obtain ⟨⟨-, hcheck⟩, hrest⟩ := List.forall_mem_cons.1 hfits
    unfold ofBound at h
    split at h
    · rename_i hstruct
      simp only [bind_eq_ok, pure_eq_ok] at h
      obtain ⟨found, hfound, more, hmore, rfl⟩ := h
      have hidentities := identities_matchRecords hfound
      rw [Layout.Bound.locate_records hstruct hcheck] at hidentities
      simpa [Function.comp_def] using List.rel_append hidentities (ih hrest hmore)
    · rename_i hstruct
      rw [List.flatMap_cons,
        Layout.Bound.records_eq_nil (Bool.not_eq_true _ ▸ hstruct) hcheck]
      exact ih hrest h

end Related

namespace CompilerSettings

variable {s : CompilerSettings} {record : Record} {g : Store} {relations : List Relation}
  {c : CompiledStatement}

theorem missingReferences_eq (hrecord : record.schema.Distinct)
    (h : s.compileCreate record relations = .ok c) (session : MemorySession) :
    ∃ ids, s.missingReferences session record = s.missingAmong ids session ∧
      List.Forall₂ (fun i x => s.Identifies i x.record) ids record.related := by
  simp only [compileCreate, bind_eq_ok, mapError_eq_ok, layoutOf, Related.ofRecord_eq_ok_iff] at h
  obtain ⟨_, -, layout, hlayout, _, -, _, ⟨bound, hbound, related, hrelated, rfl⟩, -⟩ := h
  have hsame : s.related record = .ok related := by
    simp only [CompilerSettings.related, bind_eq_ok, mapError_eq_ok, layoutOf,
      Related.ofRecord_eq_ok_iff]
    refine ⟨layout, hlayout, bound, hbound, related, hrelated, Related.byField_eq ?_⟩
    exact Related.nodup_ofBound hrecord hlayout hbound hrelated
  refine ⟨_, by rw [missingReferences, hsame], ?_⟩
  rw [Record.related, Record.boundFields_eq hlayout hbound, ← List.forall₂_map_right_iff,
    records_relatedFrom]
  exact Related.identities_ofBound (Record.bound_fits hbound) hrelated

theorem findByKey_identified (hs : s.escape = .cypher) (hg : g.WellFormed) {i : Identity}
    {x : RelatedRecord} (h : s.Identifies i x.record) :
    s.findByKey (⟨g, false⟩ : MemorySession) i.keyField i.keyValue =
      (singleNode ((s.matchesOf g x).map GraphNode.ofNode) s.keyField
        ((x.record.get? s.keyField).getD .null), ⟨g, false⟩) := by
  obtain ⟨hfield, hget, hkey⟩ := Identity.ofRecord?_eq_some h
  obtain ⟨c, hc⟩ := s.compileKeyLookup_of_isKey i.keyField hkey
  rw [findByKey_eq hs hg hc, matchesOf, keyOf, hfield, hget, Option.getD_some]

theorem missingAmong_related (hs : s.escape = .cypher) (hg : g.WellFormed) {ids : List Identity}
    {xs : List RelatedRecord} (hids : List.Forall₂ (fun i x => s.Identifies i x.record) ids xs) :
    (∃ x ∈ xs, 2 ≤ (s.matchesOf g x).length ∧
      s.missingAmong ids (⟨g, false⟩ : MemorySession) =
        (.error (.ambiguous s.keyField ((x.record.get? s.keyField).getD .null).display
          (s.matchesOf g x).length), ⟨g, false⟩)) ∨
    (∀ x ∈ xs, (s.matchesOf g x).length ≤ 1) ∧
      ∃ missing, s.missingAmong ids (⟨g, false⟩ : MemorySession) = (.ok missing, ⟨g, false⟩) ∧
        List.Forall₂ (fun i x => s.Identifies i x.record) missing
          (xs.filter fun x => (s.matchesOf g x).isEmpty) := by
  induction hids with
  | nil => exact .inr ⟨by simp, [], rfl, .nil⟩
  | @cons i x ids xs hx _ ih =>
    have hlookup := findByKey_identified hs hg hx
    by_cases hmany : 2 ≤ (s.matchesOf g x).length
    · rw [singleNode_of_two_le (by rwa [List.length_map]), List.length_map] at hlookup
      exact .inl ⟨x, List.mem_cons_self, hmany, by simp only [missingAmong, hlookup]⟩
    have hone : (s.matchesOf g x).length ≤ 1 := Nat.le_of_lt_succ (Nat.lt_of_not_le hmany)
    rw [singleNode_of_length_le_one (by rwa [List.length_map]), List.head?_map] at hlookup
    obtain ⟨y, hy, hmany, herror⟩ | ⟨hfew, missing, hmissing, hrest⟩ := ih
    · refine .inl ⟨y, List.mem_cons_of_mem _ hy, hmany, ?_⟩
      simp only [missingAmong, hlookup, herror]
    · refine .inr ⟨List.forall_mem_cons.2 ⟨hone, hfew⟩, ?_⟩
      simp only [missingAmong, hlookup, hmissing, Prod.mk.injEq, and_true, Except.ok.injEq,
        exists_eq_left']
      cases hnodes : s.matchesOf g x with
      | nil => simpa [hnodes] using And.intro hx hrest
      | cons n more => simpa [hnodes] using hrest

theorem upsert_of_missing (hs : s.escape = .cypher) (hnulls : s.createNulls = .dropNull)
    (hrecord : record.schema.Distinct) (hg : g.WellFormed)
    (hcreate : s.compileCreate record relations = .ok c)
    (hmissing : g.matching s.keyField (s.keyOf record) = []) :
    ((∃ x ∈ record.related, s.matchesOf g x = []) →
      s.upsert (⟨g, false⟩ : MemorySession) record relations =
        (.error (.creationFailed s.keyField ((record.get? s.keyField).getD .null).display),
          ⟨g, false⟩)) ∧
    ((∀ x ∈ record.related, s.matchesOf g x ≠ []) →
      ∃ n session, s.upsert (⟨g, false⟩ : MemorySession) record relations =
        (.ok (.created n), session)) := by
  obtain ⟨identity, layout, bound, hcreates⟩ := creates_of_compileCreate hcreate
  obtain ⟨update, hupdate⟩ := hcreates.compileUpdate_ok
  have hupsert := upsert_eq hs hg hcreates.identified hupdate relations
  have hexecute := execute_compileCreate hs hrecord hcreate g
  rw [hmissing] at hupsert
  simp only [hcreate, hexecute] at hupsert
  constructor
  · intro hunmatched
    obtain ⟨stats, hrun⟩ := run_createStatement_none
      (hcreates.written_createdPattern hrecord hnulls) ((choices_eq_nil_iff _).2 hunmatched)
      relations
    obtain ⟨hfield, -, hget, -⟩ := Identity.require_eq_ok hcreates.identified
    rw [hupsert, hrun, hget, ← hfield]
    rfl
  · intro hmatched
    obtain ⟨nodes, hnodes⟩ := execute_create_ok hs hg hrecord hcreate
      fun hwrite => NullPolicy.noConfusion (hnulls.symm.trans hwrite.1)
    rw [hexecute] at hnodes
    obtain ⟨rows, g', hmerge, -, hreturned⟩ := run_createStatement_eq_ok hnodes
    rw [mergePattern_eq (noNull_of_mergePattern_ok (congrArg Prod.fst hmerge))] at hmerge
    -- At least one node is returned for each choice of related nodes.
    have hlength : (s.choices g record.related).length ≤ nodes.length :=
      (length_of_returned_ok hreturned).symm ▸
        length_le_of_mergeNodeRows_ok (congrArg Prod.fst hmerge)
    have hchoices := List.length_pos_of_ne_nil (choices_ne_nil_iff.2 hmatched)
    obtain ⟨n, more, rfl⟩ : ∃ n more, nodes = n :: more :=
      List.exists_cons_of_length_pos (Nat.lt_of_lt_of_le hchoices hlength)
    rw [hupsert, hnodes]
    exact ⟨_, _, rfl⟩

/-- Looking up the related records of a new record changes nothing and tells what its upsert comes
to. It is ambiguous exactly if one of them has two nodes or more, and otherwise returns the
identities of those without a node, in the order of the create statement; the upsert creates
the record's node if there are none and fails if there are some. -/
theorem missingReferences_predicts (hs : s.escape = .cypher) (hnulls : s.createNulls = .dropNull)
    (hrecord : record.schema.Distinct) (hg : g.Reachable)
    (hcreate : s.compileCreate record relations = .ok c)
    (hmissing : g.matching s.keyField (s.keyOf record) = []) :
    (s.missingReferences (⟨g, false⟩ : MemorySession) record).2 = ⟨g, false⟩ ∧
    ((∃ keyField keyValue count,
        (s.missingReferences (⟨g, false⟩ : MemorySession) record).1 =
          .error (.ambiguous keyField keyValue count)) ↔
      ∃ x ∈ record.related, 2 ≤ (s.matchesOf g x).length) ∧
    ((∀ x ∈ record.related, (s.matchesOf g x).length ≤ 1) →
      ∃ ids, (s.missingReferences (⟨g, false⟩ : MemorySession) record).1 = .ok ids ∧
        List.Forall₂
          (fun i x => Identity.ofRecord? s.labelField s.keyField x.record = some i) ids
          (record.related.filter fun x => (s.matchesOf g x).isEmpty)) ∧
    ∀ ids, (s.missingReferences (⟨g, false⟩ : MemorySession) record).1 = .ok ids →
      (ids = [] → ∃ n session, s.upsert (⟨g, false⟩ : MemorySession) record relations =
        (.ok (.created n), session)) ∧
      (ids ≠ [] → s.upsert (⟨g, false⟩ : MemorySession) record relations =
        (.error (.creationFailed s.keyField ((record.get? s.keyField).getD .null).display),
          ⟨g, false⟩)) := by
  obtain ⟨ids, hids, hrelated⟩ := missingReferences_eq hrecord hcreate (⟨g, false⟩ : MemorySession)
  obtain ⟨hrefused, hmade⟩ := upsert_of_missing hs hnulls hrecord hg.wellFormed hcreate hmissing
  rw [hids]
  obtain ⟨x, hx, hmany, herror⟩ | ⟨hfew, missing, hok, hmissing⟩ :=
    missingAmong_related hs hg.wellFormed hrelated
  · rw [herror]
    exact ⟨rfl, ⟨fun _ => ⟨x, hx, hmany⟩, fun _ => ⟨_, _, _, rfl⟩⟩,
      fun hfew => absurd (hfew x hx) (Nat.not_le_of_lt hmany), fun _ h => by simp at h⟩
  · rw [hok]
    refine ⟨rfl, ⟨?_, ?_⟩, fun _ => ⟨missing, rfl, hmissing⟩, ?_⟩
    · rintro ⟨_, _, _, h⟩
      simp at h
    · rintro ⟨x, hx, hmany⟩
      exact absurd (hfew x hx) (Nat.not_le_of_lt hmany)
    · intro ids hresult
      obtain rfl : missing = ids := Except.ok.inj hresult
      have hnil : missing = [] ↔ ∀ x ∈ record.related, s.matchesOf g x ≠ [] := by
        rw [← List.length_eq_zero_iff, hmissing.length_eq, List.length_eq_zero_iff]
        simp [List.filter_eq_nil_iff]
      refine ⟨fun hempty => hmade (hnil.1 hempty), fun hne => hrefused ?_⟩
      by_contra hnone
      exact hne (hnil.2 fun x hx h => hnone ⟨x, hx, h⟩)

end CompilerSettings

namespace Sample

def solo : Store :=
  (Dialect.execute "MERGE (a:person \x7buid:1\x7d) RETURN a" Store.empty).2

def duo : Store :=
  (Dialect.execute "MERGE (a:person \x7buid:1\x7d) MERGE (b:person \x7buid:7\x7d) RETURN a"
    Store.empty).2

end Sample

/-- The person 7 stands in two fields of the team: among the crew it is ambiguous, with the other
person alone it is missing twice and the team is refused, and with both the team is made. -/
theorem missingReferences_predicts_team :
    (∃ keyField keyValue count, (CompilerSettings.default.missingReferences
      (⟨Sample.crew, false⟩ : MemorySession) Sample.team).1 =
        .error (.ambiguous keyField keyValue count)) ∧
    (∃ ids, (CompilerSettings.default.missingReferences
        (⟨Sample.solo, false⟩ : MemorySession) Sample.team).1 = .ok ids ∧ ids.length = 2 ∧
      CompilerSettings.default.upsert (⟨Sample.solo, false⟩ : MemorySession) Sample.team
        Sample.relations = (.error (.creationFailed "uid" "it's"), ⟨Sample.solo, false⟩)) ∧
    ∃ n session, (CompilerSettings.default.missingReferences
        (⟨Sample.duo, false⟩ : MemorySession) Sample.team).1 = .ok [] ∧
      CompilerSettings.default.upsert (⟨Sample.duo, false⟩ : MemorySession) Sample.team
        Sample.relations = (.ok (.created n), session) := by
  have hdistinct : Sample.team.schema.Distinct := by
    unfold RecordSchema.Distinct
    decide
  obtain ⟨c, hcreate⟩ : ∃ c, CompilerSettings.default.compileCreate Sample.team
      Sample.relations = .ok c := ⟨_, rfl⟩
  have hkey : CompilerSettings.default.keyOf Sample.team = .string "it's" := rfl
  have hpredicts : ∀ text, (Dialect.execute text Store.empty).2.matching "uid" (.string "it's") =
      [] → _ := fun text hmissing =>
    CompilerSettings.missingReferences_predicts rfl rfl hdistinct (.execute .empty text) hcreate
      (hkey ▸ hmissing)
  obtain ⟨-, hcrew, -, -⟩ := hpredicts _ (by decide +kernel : Sample.crew.matching _ _ = [])
  obtain ⟨-, -, hsolo, hrefused⟩ := hpredicts _ (by decide +kernel : Sample.solo.matching _ _ = [])
  obtain ⟨-, -, hduo, hmade⟩ := hpredicts _ (by decide +kernel : Sample.duo.matching _ _ = [])
  obtain ⟨ids, hids, htwo⟩ := hsolo (by decide +kernel)
  have hlength : ids.length = 2 := htwo.length_eq.trans (by decide +kernel)
  have hne : ids ≠ [] := List.ne_nil_of_length_pos (by simp [hlength])
  obtain ⟨missing, hmissing, hnone⟩ := hduo (by decide +kernel)
  obtain rfl : missing = [] :=
    List.length_eq_zero_iff.1 (hnone.length_eq.trans (by decide +kernel))
  obtain ⟨n, session, hcreated⟩ := (hmade _ hmissing).1 rfl
  exact ⟨hcrew.2 (by decide +kernel), ⟨ids, hids, hlength, (hrefused ids hids).2 hne⟩, n, session,
    hmissing, hcreated⟩

end RecordGraph
