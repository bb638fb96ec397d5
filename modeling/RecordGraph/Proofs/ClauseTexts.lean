import RecordGraph.Compiler.Basic
import RecordGraph.Proofs.Clauses
import RecordGraph.Proofs.Stored

/-!
Texts of compiled clauses. Every clause text that the compiler writes is read back
as one clause, whatever the names and strings in it, and the assembled text is
read back as these clauses with the returned variable.
-/

namespace RecordGraph

open Dialect Statement

def keyPattern (node keyField : String) (value : PropertyValue) : NodePattern :=
  ⟨node, [], Dict.ofList [(keyField, value)]⟩

def Direction.arrow : Direction → Arrow
  | outgoing => .leftToRight
  | incoming => .rightToLeft
  | undirected => .undirected

namespace Statement

theorem readsProperties_entry (key : String) {literal : String} {v : PropertyValue}
    (h : ReadsValue literal.toList v) :
    ReadsProperties (propertyMap [escapeName key ++ ":" ++ literal]).toList [(key, v)] := by
  have hread : Separated (Reads property) _ ([(key, v)].map fun e => (e.1, .ok e.2)) :=
    .last Gap.none (reads_property key Gap.none Gap.none h)
  simpa [propertyMap] using ReadsProperties.entries Gap.none hread

theorem readsClause_matchKeyClause (key : String) {node literal : String} {v : PropertyValue}
    (hnode : isPlainName node.toList = true) (h : ReadsValue literal.toList v) :
    ReadsClause (matchKeyClause node key literal).toList (.matchNode (keyPattern node key v)) := by
  have hread := ReadsNode.intro Gap.none Gap.space Gap.none node hnode .nil
    (readsProperties_entry key h) (List.nodup_singleton _)
  have hword : Spells ['M', 'A', 'T', 'C', 'H'] "match" := rfl
  simpa [matchKeyClause, keyPattern] using hread.readsClause_match hword Gap.space

/-- A property text that names its entry and writes its value. -/
def Renders (delimiter : Delimiter) (text : String) (entry : String × PropertyValue) : Prop :=
  ∃ literal : String, text = escapeName entry.1 ++ delimiter.text ++ literal ∧
    ReadsValue literal.toList entry.2

theorem Renders.reads_property {text : String} {entry : String × PropertyValue}
    (h : Renders .property text entry) :
    Reads property text.toList (entry.1, .ok entry.2) := by
  obtain ⟨literal, rfl, hread⟩ := h
  simpa [Delimiter.text] using Dialect.reads_property entry.1 Gap.none Gap.none hread

theorem readsProperties_propertyMap {texts : List String}
    {entries : List (String × PropertyValue)}
    (h : List.Forall₂ (Renders .property) texts entries) (hne : texts ≠ []) :
    ReadsProperties (propertyMap texts).toList entries := by
  have hitems : List.Forall₂ (fun t x => Reads property t.toList x) texts
      (entries.map fun e => (e.1, .ok e.2)) := by
    rw [List.forall₂_map_right_iff]
    exact h.imp fun _ _ => Renders.reads_property
  simpa [propertyMap] using ReadsProperties.entries Gap.none (Separated.of_intercalate hitems hne)

theorem readsClause_mergeNodeClause {node label : String} {texts : List String}
    {entries : List (String × PropertyValue)} (hnode : isPlainName node.toList = true)
    (h : List.Forall₂ (Renders .property) texts entries) (hkeys : (entries.map (·.1)).Nodup) :
    ReadsClause (mergeNodeClause node label texts).toList
      (.mergeNode ⟨node, [label], Dict.ofList entries⟩) := by
  have hword : Spells ['M', 'E', 'R', 'G', 'E'] "merge" := rfl
  have hlabel := ReadsLabels.cons Gap.none Gap.none label .nil
  by_cases hne : texts = []
  · subst hne
    obtain rfl := List.forall₂_nil_left_iff.1 h
    have hread := ReadsNode.intro Gap.none Gap.none Gap.none node hnode hlabel .absent hkeys
    simpa [mergeNodeClause] using hread.readsClause_merge hword Gap.space
  · have hread := ReadsNode.intro Gap.none Gap.space Gap.none node hnode hlabel
      (readsProperties_propertyMap h hne) hkeys
    simpa [mergeNodeClause, hne] using hread.readsClause_merge hword Gap.space

theorem readsClause_edgeClause {node label other : String} (direction : Direction)
    (hnode : isPlainName node.toList = true) (hother : isPlainName other.toList = true) :
    ReadsClause (Related.edgeClause node (escapeName label) direction other).toList
      (.mergeRelationship ⟨node, other, label, direction.arrow⟩) := by
  have hread := ReadsRelationship.intro Gap.none Gap.none Gap.none Gap.none Gap.none Gap.none
    Gap.none Gap.none Gap.none node other label direction.arrow hnode hother
  have hword : Spells ['M', 'E', 'R', 'G', 'E'] "merge" := rfl
  cases direction <;>
    simpa [Related.edgeClause, referenceChars, edgeChars, Direction.arrow, Arrow.opening,
      Arrow.closing] using hread.readsClause hword Gap.space

theorem readsClause_assignment {node text : String} {entry : String × PropertyValue}
    (hnode : isPlainName node.toList = true) (h : Renders .assignment text entry) :
    ReadsClause ("SET " ++ node ++ "." ++ text).toList (.set ⟨node, entry.1, entry.2⟩) := by
  obtain ⟨literal, rfl, hvalue⟩ := h
  have hread := ReadsAssignment.intro Gap.none Gap.none Gap.none Gap.none node entry.1 entry.2
    hnode hvalue
  have hword : Spells ['S', 'E', 'T'] "set" := rfl
  simpa [Delimiter.text] using hread.readsClause hword Gap.space

theorem toNat_of_isAsciiLetter {c : Char} (h : isAsciiLetter c = true) :
    97 ≤ c.toNat ∧ c.toNat ≤ 122 ∨ 65 ≤ c.toNat ∧ c.toNat ≤ 90 := by
  simpa [isAsciiLetter, Char.le_def, UInt32.le_iff_toNat_le] using h

theorem isBlankText_eq_false {text : String} {c : Clause} (h : ReadsClause text.toList c) :
    Text.isBlankText text = false := by
  obtain ⟨d, s, hs, hd⟩ := h.starts
  have hnat := toNat_of_isAsciiLetter hd
  have hblank : Text.isBlank d = false := by
    simp only [Text.isBlank, Bool.or_eq_false_iff, Bool.and_eq_false_iff, decide_eq_false_iff_not,
      beq_eq_false_iff_ne]
    omega
  simp [Text.isBlankText, hs, hblank]

abbrev ReadAs (texts : List String) (cs : List Clause) : Prop :=
  List.Forall₂ (fun text c => ReadsClause text.toList c) texts cs

theorem ReadAs.filter_eq {texts : List String} {cs : List Clause} (h : ReadAs texts cs) :
    texts.filter (fun t => !Text.isBlankText t) = texts := by
  induction h with
  | nil => rfl
  | cons h more ih => simp [isBlankText_eq_false h, ih]

theorem ReadAs.joined {texts : List String} {cs : List Clause} (h : ReadAs texts cs)
    (last : String) : ∃ text, ReadsClauses text cs ∧
      (" ".intercalate (texts ++ [last])).toList = text ++ last.toList := by
  induction h with
  | nil => exact ⟨[], .nil, by simp⟩
  | @cons t c texts cs h more ih =>
    obtain ⟨text, hread, htext⟩ := ih
    refine ⟨t.toList ++ (Gap.space.chars ++ text), .cons h Gap.space (by simp) hread, ?_⟩
    rw [List.cons_append, String.intercalate_cons_of_ne_nil (by simp)]
    simp [htext]

namespace Draft

/-- The clauses of a draft are read back in order. -/
def Holds (d : Draft) (cs : List Clause) : Prop :=
  ReadAs d.clauses cs

variable {d : Draft} {cs : List Clause}

theorem holds_empty : empty.Holds [] := .nil

theorem Holds.append (h : d.Holds cs) {texts : List String} {more : List Clause}
    (hmore : ReadAs texts more) (aliases : List String) :
    (d.append texts aliases).Holds (cs ++ more) :=
  List.rel_append h hmore

theorem Holds.addClauses (h : d.Holds cs) {texts : List String} {more : List Clause}
    (hmore : ReadAs texts more) : (d.addClauses texts).Holds (cs ++ more) := by
  rw [Holds, Draft.addClauses, hmore.filter_eq]
  exact List.rel_append h hmore

theorem Holds.bindAlias (h : d.Holds cs) {text : String} {c : Clause}
    (hc : ReadsClause text.toList c) (node : String) : (d.bindAlias text node).Holds (cs ++ [c]) :=
  Holds.addClauses (d := { d with aliases := d.aliases ++ [node] }) h (.cons hc .nil)

theorem Holds.parse (h : d.Holds cs) {node : String} (hnode : isPlainName node.toList = true) :
    parse (d.returning node).text = .ok ⟨cs, node⟩ := by
  obtain ⟨text, hread, htext⟩ := ReadAs.joined h ("RETURN " ++ node)
  have hword : Spells ['R', 'E', 'T', 'U', 'R', 'N'] "return" := rfl
  have hparse := hread.parse hword hnode Gap.none Gap.space Gap.none
  rw [CompiledStatement.text, returning, ← String.ofList_toList (s := " ".intercalate _), htext]
  simpa using hparse

end Draft

end Statement

/-- The property value written for a field value, unless none is written. -/
def NullPolicy.written? : NullPolicy → FieldValue → Option PropertyValue
  | dropNull, v => if v.isNull then none else some v.stored
  | writeNull, v => some (if v.isBlank then .null else v.stored)

def NullPolicy.entries (nulls : NullPolicy) (bound : List Layout.Bound) :
    List (String × PropertyValue) :=
  bound.filterMap fun b => (nulls.written? b.value).map fun v => (b.name, v)

namespace Statement

theorem renders_property? {name : String} {value : FieldValue} {shape : FieldShape}
    {delimiter : Delimiter} {nulls : NullPolicy} {text? : Option String}
    (h : property? .cypher name value shape delimiter nulls = .ok text?) :
    List.Forall₂ (Renders delimiter) text?.toList
      ((nulls.written? value).map fun v => (name, v)).toList := by
  have hliteral : ∀ {r : Except Inconsistency (Option String)},
      r = ((literal .cypher value).map fun t =>
          some (escapeName name ++ delimiter.text ++ t)).mapError (fun reason => ⟨name, reason⟩) →
      r = .ok text? →
      List.Forall₂ (Renders delimiter) text?.toList [(name, value.stored)] := by
    rintro r rfl hr
    obtain ⟨t, ht, rfl⟩ := map_eq_ok.1 (mapError_eq_ok.1 hr)
    exact .cons ⟨t, rfl, readsValue_literal value ht⟩ .nil
  unfold property? at h
  split at h
  · simp at h
  cases nulls with
  | dropNull =>
    by_cases hnull : value.isNull = true
    · simp only [hnull, if_true, Except.ok.injEq] at h
      simp [NullPolicy.written?, hnull, ← h]
    · simp only [hnull] at h
      simpa [NullPolicy.written?, hnull] using hliteral rfl h
  | writeNull =>
    by_cases hblank : value.isBlank = true
    · simp only [hblank, if_true, Except.ok.injEq] at h
      simp only [NullPolicy.written?, hblank, if_true, ← h]
      have hword : ReadsValue "null".toList .null := readsValue_word (by decide)
      exact .cons ⟨"null", rfl, hword⟩ .nil
    · simp only [hblank] at h
      simpa [NullPolicy.written?, hblank] using hliteral rfl h

end Statement

theorem CompilerSettings.renderProperties_ok {s : CompilerSettings} (hs : s.escape = .cypher)
    {delimiter : Delimiter} {nulls : NullPolicy} {bound : List Layout.Bound} {texts : List String}
    (h : s.renderProperties delimiter nulls bound = .ok texts) :
    List.Forall₂ (Renders delimiter) texts (nulls.entries bound) := by
  induction bound generalizing texts with
  | nil =>
    obtain rfl := Except.ok.inj h
    exact .nil
  | cons b rest ih =>
    simp only [renderProperties, hs, bind_eq_ok, pure_eq_ok] at h
    obtain ⟨text?, htext, more, hmore, rfl⟩ := h
    have happend := List.rel_append (renders_property? htext) (ih hmore)
    cases hv : nulls.written? b.value <;> simpa [NullPolicy.entries, hv] using happend

end RecordGraph
