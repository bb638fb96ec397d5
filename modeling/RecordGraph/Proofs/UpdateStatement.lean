import RecordGraph.Proofs.CreateStatement

/-!
The update and lookup statements as data. Both match nodes by key alone; the
update then sets every other property of the record, and clears those that are
null or empty. The compiled texts are read back as exactly these statements.
-/

namespace RecordGraph

open Dialect Statement

namespace CompilerSettings

variable {s : CompilerSettings} {record : Record}

/-- Names and stored values of the fields that an update sets. -/
def updatedEntries (s : CompilerSettings) (record : Record) : List (String × PropertyValue) :=
  NullPolicy.writeNull.entries (record.boundFields.filter (s.isProperty false))

def updateStatement (s : CompilerSettings) (record : Record) (key : PropertyValue) :
    Dialect.Statement :=
  ⟨.matchNode (keyPattern s.nodeAlias s.keyField key) ::
    (s.updatedEntries record).map (fun e => .set ⟨s.nodeAlias, e.1, e.2⟩), s.nodeAlias⟩

def lookupStatement (keyField : String) (key : PropertyValue) : Dialect.Statement :=
  ⟨[.matchNode (keyPattern lookupAlias keyField key)], lookupAlias⟩

theorem keyLiteral_ok (hs : s.escape = .cypher) {keyField literal : String} {value : FieldValue}
    (h : s.keyLiteral keyField value = .ok literal) : ReadsValue literal.toList value.stored := by
  rw [keyLiteral, hs, mapError_eq_ok] at h
  exact readsValue_literal value h

theorem parse_compileKeyLookup (hs : s.escape = .cypher) {keyField : String} {value : FieldValue}
    {c : CompiledStatement} (h : s.compileKeyLookup keyField value = .ok c) :
    Dialect.parse c.text = .ok (lookupStatement keyField value.stored) := by
  unfold compileKeyLookup at h
  split at h
  · simp at h
  simp only [bind_eq_ok, pure_eq_ok] at h
  obtain ⟨literal, hliteral, rfl⟩ := h
  have hnode : isPlainName lookupAlias.toList = true := by decide
  have hmatch := readsClause_matchKeyClause keyField hnode (keyLiteral_ok hs hliteral)
  exact (Draft.holds_empty.bindAlias hmatch lookupAlias).parse hnode

theorem bound_of_compileUpdate {identity : Identity} {c : CompiledStatement}
    (h : s.compileUpdate record identity = .ok c) :
    ∃ layout bound, Layout.classify record.schema = .ok layout ∧
      layout.bind record = .ok bound := by
  simp only [compileUpdate, bind_eq_ok, properties, mapError_eq_ok, layoutOf] at h
  obtain ⟨_, -, layout, hlayout, _, ⟨bound, hbound, -⟩, -⟩ := h
  exact ⟨layout, bound, hlayout, hbound⟩

theorem parse_compileUpdate (hs : s.escape = .cypher) {identity : Identity}
    (hidentity : s.identityOf record = .ok identity) {c : CompiledStatement}
    (h : s.compileUpdate record identity = .ok c) :
    Dialect.parse c.text = .ok (s.updateStatement record (s.keyOf record)) := by
  simp only [compileUpdate, bind_eq_ok, pure_eq_ok, properties, mapError_eq_ok, layoutOf] at h
  obtain ⟨_, hvalid, layout, hlayout, texts, ⟨bound, hbound, htexts⟩, literal, hliteral, rfl⟩ := h
  obtain ⟨hfield, -, hkey, -⟩ := Identity.require_eq_ok hidentity
  have hnode := ((validate_eq_ok_iff s).1 hvalid).1
  have hvalue : identity.keyValue.stored = s.keyOf record := by
    rw [keyOf, hkey, Option.getD_some]
  have hmatch := readsClause_matchKeyClause identity.keyField hnode
    (keyLiteral_ok hs hliteral)
  rw [hvalue] at hmatch
  have hrenders := renderProperties_ok hs htexts
  rw [← Record.boundFields_eq hlayout hbound] at hrenders
  have hsets : ReadAs (texts.map fun a => "SET " ++ s.nodeAlias ++ "." ++ a)
      ((s.updatedEntries record).map fun e => .set ⟨s.nodeAlias, e.1, e.2⟩) := by
    rw [ReadAs, List.forall₂_map_left_iff, List.forall₂_map_right_iff]
    exact hrenders.imp fun _ _ => readsClause_assignment hnode
  have hdraft := (Draft.holds_empty.bindAlias hmatch s.nodeAlias).addClauses hsets
  rw [updateStatement, ← hfield]
  exact hdraft.parse hnode

end CompilerSettings

end RecordGraph
