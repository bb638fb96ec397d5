import RecordGraph.Proofs.RelationTexts
import RecordGraph.Proofs.Scanning

/-!
The authored form of relations as a grammar. A fragment either writes a relation or breaks
off at one place, and reading it finds out which. A list of fragments is read exactly when
each writes a relation to an allowed field and no field stands twice; otherwise the first
fragment from the left that is at fault is the error.
-/

namespace RecordGraph

namespace Relation

/-- Text of which a label can be made: any but the marks that end one. -/
structure IsLabel (s : List Char) : Prop where
  ne_nil : s ≠ []
  chars : ∀ c ∈ s, c ≠ ':' ∧ c ≠ ',' ∧ c ≠ '|'

def IsFieldChar (c : Char) : Prop :=
  ('A' ≤ c ∧ c ≤ 'Z') ∨ ('a' ≤ c ∧ c ≤ 'z') ∨ ('0' ≤ c ∧ c ≤ '9') ∨ c = '_'

structure IsFieldName (s : List Char) : Prop where
  ne_nil : s ≠ []
  chars : ∀ c ∈ s, IsFieldChar c

def IsArrow (d : Direction) : Prop :=
  d = .outgoing ∨ d = .incoming

/-- A text writes a relation; blanks around the label are no part of it. -/
inductive Writes : List Char → Relation → Prop
  | intro {label field : List Char} {d : Direction} (hlabel : IsLabel label) (hd : IsArrow d)
      (hfield : IsFieldName field) :
      Writes (label ++ ':' :: d.char :: '(' :: (field ++ [')']))
        ⟨String.ofList (Text.trimChars label), d, String.ofList field⟩

def Lacks (p : Char → Prop) (rest : List Char) : Prop :=
  ∀ c ∈ rest.head?, ¬ p c

/-- A text follows the form of a relation up to a place at which it breaks off. -/
inductive Breaks : List Char → RelationDefect → Prop
  | label {s : List Char} (h : Lacks (fun c => c ≠ ':' ∧ c ≠ ',' ∧ c ≠ '|') s) :
      Breaks s .expectedLabel
  | colon {label s : List Char} (hlabel : IsLabel label) (h : Lacks (fun c => c ≠ ',' ∧ c ≠ '|') s) :
      Breaks (label ++ s) .expectedRelation
  | direction {label s : List Char} (hlabel : IsLabel label)
      (h : Lacks (fun c => c = '>' ∨ c = '<') s) : Breaks (label ++ ':' :: s) .expectedDirection
  | opening {label s : List Char} {d : Direction} (hlabel : IsLabel label) (hd : IsArrow d)
      (h : Lacks (· = '(') s) : Breaks (label ++ ':' :: d.char :: s) .expectedRelation
  | field {label s : List Char} {d : Direction} (hlabel : IsLabel label) (hd : IsArrow d)
      (h : Lacks IsFieldChar s) :
      Breaks (label ++ ':' :: d.char :: '(' :: s) .expectedFieldName
  | closing {label field s : List Char} {d : Direction} (hlabel : IsLabel label) (hd : IsArrow d)
      (hfield : IsFieldName field)
      (h : Lacks (fun c => IsFieldChar c ∨ c = ')') s) :
      Breaks (label ++ ':' :: d.char :: '(' :: (field ++ s)) .expectedRelation
  | ending {label field s : List Char} {d : Direction} (hlabel : IsLabel label) (hd : IsArrow d)
      (hfield : IsFieldName field) (h : s ≠ []) :
      Breaks (label ++ ':' :: d.char :: '(' :: (field ++ ')' :: s)) .expectedEnd

theorem continuesName_iff (c : Char) : Statement.continuesName c = true ↔ IsFieldChar c := by
  simp only [Statement.continuesName, Statement.startsName, Statement.isAsciiLetter,
    Statement.isAsciiDigit, IsFieldChar, Bool.or_eq_true, Bool.and_eq_true, decide_eq_true_eq,
    beq_iff_eq]
  tauto

theorem inLabel_iff (c : Char) : inLabel c = true ↔ c ≠ ':' ∧ c ≠ ',' ∧ c ≠ '|' := by
  simp [inLabel, and_assoc]

variable {label field s : List Char} {d : Direction}

theorem IsLabel.inLabel (h : IsLabel label) : ∀ c ∈ label, inLabel c = true := fun c hc =>
  (inLabel_iff c).2 (h.chars c hc)

theorem IsFieldName.continuesName (h : IsFieldName field) :
    ∀ c ∈ field, Statement.continuesName c = true := fun c hc =>
  (continuesName_iff c).2 (h.chars c hc)

theorem Lacks.inLabel (h : Lacks (fun c => c ≠ ':' ∧ c ≠ ',' ∧ c ≠ '|') s) :
    ∀ c ∈ s.head?, Relation.inLabel c = false := fun c hc =>
  Bool.eq_false_iff.2 fun hin => h c hc ((inLabel_iff c).1 hin)

theorem Lacks.continuesName (h : Lacks IsFieldChar s) :
    ∀ c ∈ s.head?, Statement.continuesName c = false := fun c hc =>
  Bool.eq_false_iff.2 fun hin => h c hc ((continuesName_iff c).1 hin)

theorem scan_arrow (hlabel : IsLabel label) (hd : IsArrow d) (s : List Char) :
    scan (label ++ ':' :: d.char :: s) = scanField label d s := by
  have hne : label.isEmpty = false := by simpa using hlabel.ne_nil
  have hcolon : ∀ c ∈ (':' :: d.char :: s).head?, Relation.inLabel c = false := by
    simp [Relation.inLabel]
  simp only [scan, Dialect.takeWhile_append_of_end hlabel.inLabel hcolon,
    Dialect.dropWhile_append_of_end hlabel.inLabel hcolon, hne, Bool.false_eq_true, if_false]
  rcases hd with rfl | rfl <;> rfl

theorem scan_colon (hlabel : IsLabel label) (h : Lacks (fun c => c = '>' ∨ c = '<') s) :
    scan (label ++ ':' :: s) = .error .expectedDirection := by
  have hne : label.isEmpty = false := by simpa using hlabel.ne_nil
  have hcolon : ∀ c ∈ (':' :: s).head?, Relation.inLabel c = false := by
    simp [Relation.inLabel]
  simp only [scan, Dialect.takeWhile_append_of_end hlabel.inLabel hcolon,
    Dialect.dropWhile_append_of_end hlabel.inLabel hcolon, hne, Bool.false_eq_true, if_false]
  cases s with
  | nil => rfl
  | cons c rest =>
    have hc : c ≠ '>' ∧ c ≠ '<' := by simpa using h c rfl
    split <;> simp_all

theorem scan_label (hlabel : IsLabel label)
    (h : Lacks (fun c => c ≠ ',' ∧ c ≠ '|') s) :
    scan (label ++ s) = .error .expectedRelation := by
  have hne : label.isEmpty = false := by simpa using hlabel.ne_nil
  have hend : ∀ c ∈ s.head?, Relation.inLabel c = false := Lacks.inLabel fun c hc hin => h c hc hin.2
  simp only [scan, Dialect.takeWhile_append_of_end hlabel.inLabel hend,
    Dialect.dropWhile_append_of_end hlabel.inLabel hend, hne, Bool.false_eq_true, if_false]
  cases s with
  | nil => rfl
  | cons c rest =>
    have hc : ¬ (c ≠ ',' ∧ c ≠ '|') := h c rfl
    split <;> simp_all

theorem scanField_opening (h : Lacks (· = '(') s) (label : List Char) (d : Direction) :
    scanField label d s = .error .expectedRelation := by
  cases s with
  | nil => rfl
  | cons c rest =>
    have hc : c ≠ '(' := h c rfl
    unfold scanField
    split <;> simp_all

theorem scanField_empty (h : Lacks IsFieldChar s) (label : List Char)
    (d : Direction) : scanField label d ('(' :: s) = .error .expectedFieldName := by
  have hnone : s.takeWhile Statement.continuesName = [] :=
    Dialect.takeWhile_append_of_end (List.forall_mem_nil _) h.continuesName
  simp [scanField, hnone]

theorem scanField_name (hfield : IsFieldName field)
    (h : Lacks IsFieldChar s) (label : List Char) (d : Direction) :
    scanField label d ('(' :: (field ++ s)) =
      if s = [')'] then .ok (label, d, field)
      else if s.head? = some ')' then .error .expectedEnd
      else .error .expectedRelation := by
  have hne : field.isEmpty = false := by simpa using hfield.ne_nil
  simp only [scanField, Dialect.takeWhile_append_of_end hfield.continuesName h.continuesName,
    Dialect.dropWhile_append_of_end hfield.continuesName h.continuesName, hne, Bool.false_eq_true,
    if_false]
  cases s with
  | nil => rfl
  | cons c rest =>
    split <;> simp_all

theorem lacks_closing (s : List Char) :
    Lacks IsFieldChar (')' :: s) := by
  simp only [Lacks, List.head?_cons, Option.mem_some_iff, forall_eq', IsFieldChar]
  decide

theorem scan_relation (hlabel : IsLabel label) (hd : IsArrow d) (hfield : IsFieldName field) :
    scan (label ++ ':' :: d.char :: '(' :: (field ++ [')'])) = .ok (label, d, field) := by
  rw [scan_arrow hlabel hd, scanField_name hfield (lacks_closing []), if_pos rfl]

theorem scan_of_breaks {defect : RelationDefect} (h : Breaks s defect) :
    scan s = .error defect := by
  cases h with
  | label h =>
    have hnone : s.takeWhile Relation.inLabel = [] :=
      Dialect.takeWhile_append_of_end (List.forall_mem_nil _) (Lacks.inLabel h)
    simp [scan, hnone]
  | colon hlabel h => exact scan_label hlabel h
  | direction hlabel h => exact scan_colon hlabel h
  | opening hlabel hd h => rw [scan_arrow hlabel hd, scanField_opening h]
  | field hlabel hd h => rw [scan_arrow hlabel hd, scanField_empty h]
  | @closing _ _ s _ hlabel hd hfield h =>
    have hname : Lacks IsFieldChar s := fun c hc hin =>
      h c hc (.inl hin)
    have hclose : s.head? ≠ some ')' := fun hc => h ')' hc (.inr rfl)
    have hs : s ≠ [')'] := fun hs => hclose (by rw [hs]; rfl)
    rw [scan_arrow hlabel hd, scanField_name hfield hname, if_neg hs, if_neg hclose]
  | ending hlabel hd hfield h =>
    rw [scan_arrow hlabel hd, scanField_name hfield (lacks_closing _), if_neg (by simpa using h)]
    rfl

theorem exists_run (p : Char → Bool) (s : List Char) :
    ∃ run rest, s = run ++ rest ∧ (∀ c ∈ run, p c = true) ∧ ∀ c ∈ rest.head?, p c = false := by
  refine ⟨s.takeWhile p, s.dropWhile p, List.takeWhile_append_dropWhile.symm,
    fun c hc => List.mem_takeWhile_imp hc, fun c hc => ?_⟩
  have hne : s.dropWhile p ≠ [] := by
    intro hnil
    simp [hnil] at hc
  obtain rfl : (s.dropWhile p).head hne = c := by simpa [List.head?_eq_some_head hne] using hc
  exact List.head_dropWhile_not p hne

theorem writes_or_breaks (s : List Char) :
    (∃ r, Writes s r) ∨ ∃ defect, Breaks s defect := by
  obtain ⟨label, rest, rfl, hrun, hend⟩ := exists_run Relation.inLabel s
  have hlacks : Lacks (fun c => c ≠ ':' ∧ c ≠ ',' ∧ c ≠ '|') rest := fun c hc hin => by
    simpa [(inLabel_iff c).2 hin] using hend c hc
  by_cases hempty : label = []
  · subst hempty
    exact .inr ⟨_, .label hlacks⟩
  have hlabel : IsLabel label := ⟨hempty, fun c hc => (inLabel_iff c).1 (hrun c hc)⟩
  by_cases hcolon : rest.head? = some ':'
  swap
  · refine .inr ⟨_, .colon hlabel fun c hc hin => hlacks c hc ⟨?_, hin⟩⟩
    rintro rfl
    exact hcolon hc
  obtain ⟨rest, rfl⟩ : ∃ more, rest = ':' :: more := List.head?_eq_some_iff.1 hcolon
  by_cases harrow : ∃ d more, IsArrow d ∧ rest = d.char :: more
  swap
  · refine .inr ⟨_, .direction hlabel fun c hc hin => harrow ?_⟩
    obtain ⟨more, rfl⟩ := List.head?_eq_some_iff.1 hc
    rcases hin with rfl | rfl
    · exact ⟨.outgoing, more, .inl rfl, rfl⟩
    · exact ⟨.incoming, more, .inr rfl, rfl⟩
  obtain ⟨d, rest, hd, rfl⟩ := harrow
  by_cases hopen : rest.head? = some '('
  swap
  · refine .inr ⟨_, .opening hlabel hd fun c hc hin => hopen ?_⟩
    obtain rfl : c = '(' := hin
    exact hc
  obtain ⟨rest, rfl⟩ := List.head?_eq_some_iff.1 hopen
  obtain ⟨field, rest, rfl, hrun, hend⟩ := exists_run Statement.continuesName rest
  have hname : Lacks IsFieldChar rest := fun c hc hin => by
    simpa [(continuesName_iff c).2 hin] using hend c hc
  by_cases hempty : field = []
  · subst hempty
    exact .inr ⟨_, .field hlabel hd hname⟩
  have hfield : IsFieldName field :=
    ⟨hempty, fun c hc => (continuesName_iff c).1 (hrun c hc)⟩
  by_cases hclose : rest.head? = some ')'
  swap
  · refine .inr ⟨_, .closing hlabel hd hfield fun c hc hin => ?_⟩
    rcases hin with hin | rfl
    · exact hname c hc hin
    · exact hclose hc
  obtain ⟨rest, rfl⟩ := List.head?_eq_some_iff.1 hclose
  by_cases hrest : rest = []
  · subst hrest
    exact .inl ⟨_, .intro hlabel hd hfield⟩
  · exact .inr ⟨_, .ending hlabel hd hfield hrest⟩

/-! Fragments -/

theorem ofText_of_writes {fragment : String} {r : Relation} (h : Writes fragment.toList r)
    (hstart : ∀ c ∈ fragment.toList.head?, Text.isBlank c = false) : ofText fragment = .ok r := by
  generalize hs : fragment.toList = s at h hstart
  cases h with
  | @intro label field d hlabel hd hfield =>
    have htrimmed : (Text.trimChars label).isEmpty = false := by
      -- The first character is not blank, so it stays when blanks at both ends go.
      obtain ⟨c, rest, rfl⟩ := List.exists_cons_of_ne_nil hlabel.ne_nil
      have hc : Text.isBlank c = false := hstart c rfl
      have hself : Text.trimStart (c :: rest) = c :: rest := by simp [Text.trimStart, hc]
      rw [List.isEmpty_eq_false_iff, Text.trimChars, hself]
      intro hnil
      simpa [hc] using List.rdropWhile_eq_nil_iff.1 hnil c List.mem_cons_self
    simp [ofText, hs, scan_relation hlabel hd hfield, htrimmed]

theorem ofText_of_breaks {fragment : String} {defect : RelationDefect}
    (h : Breaks fragment.toList defect) : ofText fragment = .error (.malformed fragment defect) := by
  simp [ofText, scan_of_breaks h]

theorem ofText_trim_eq_ok_iff {fragment : String} {r : Relation} :
    ofText (Text.trim fragment) = .ok r ↔ Writes (Text.trim fragment).toList r := by
  have hread {r' : Relation} (h : Writes (Text.trim fragment).toList r') :
      ofText (Text.trim fragment) = .ok r' :=
    ofText_of_writes h (by simpa using Text.head?_trimChars fragment.toList)
  refine ⟨fun h => ?_, hread⟩
  obtain ⟨r', hr'⟩ | ⟨defect, hdefect⟩ := writes_or_breaks (Text.trim fragment).toList
  · obtain rfl : r' = r := Except.ok.inj ((hread hr').symm.trans h)
    exact hr'
  · simp [ofText_of_breaks hdefect] at h

theorem ofText_trim_eq_error_iff {fragment : String} {e : RelationError} :
    ofText (Text.trim fragment) = .error e ↔
      ∃ defect, Breaks (Text.trim fragment).toList defect ∧
        e = .malformed (Text.trim fragment) defect := by
  constructor
  · intro h
    obtain ⟨r, hr⟩ | ⟨defect, hdefect⟩ := writes_or_breaks (Text.trim fragment).toList
    · simp [ofText_trim_eq_ok_iff.2 hr] at h
    · exact ⟨defect, hdefect, Except.error.inj (h.symm.trans (ofText_of_breaks hdefect))⟩
  · rintro ⟨defect, hdefect, rfl⟩
    exact ofText_of_breaks hdefect

/-- What is wrong with a fragment to which relations were read before it. -/
inductive Offends (allowed : List String) (earlier : List Relation) (fragment : String) :
    RelationError → Prop
  | malformed {defect : RelationDefect} (h : Breaks (Text.trim fragment).toList defect) :
      Offends allowed earlier fragment (.malformed (Text.trim fragment) defect)
  | unknownTarget {r : Relation} (h : Writes (Text.trim fragment).toList r)
      (hfield : r.field ∉ allowed) : Offends allowed earlier fragment (.unknownTarget r.field)
  | duplicateTarget {r : Relation} (h : Writes (Text.trim fragment).toList r)
      (hfield : r.field ∈ allowed) (hearlier : r.field ∈ earlier.map (·.field)) :
      Offends allowed earlier fragment (.duplicateTarget r.field)

theorem ofFragment_eq_error_iff {allowed : List String} {fragment : String} {e : RelationError} :
    ofFragment allowed fragment = .error e ↔
      ofText (Text.trim fragment) = .error e ∨
        ∃ r, ofText (Text.trim fragment) = .ok r ∧ r.field ∉ allowed ∧
          e = .unknownTarget r.field := by
  unfold ofFragment
  cases ofText (Text.trim fragment) with
  | error e' => simp
  | ok r =>
    by_cases hr : r.field ∈ allowed
    · simp [hr]
    · simp [hr, eq_comm]

theorem collect_eq_error_iff {read : String → Except RelationError Relation}
    {done : List Relation} {fragments : List String} {e : RelationError} :
    collect read done fragments = .error e ↔
      ∃ before fragment after rs, fragments = before ++ fragment :: after ∧
        collect read done before = .ok rs ∧
        (read fragment = .error e ∨
          ∃ r, read fragment = .ok r ∧ r.field ∈ rs.map (·.field) ∧
            e = .duplicateTarget r.field) := by
  induction fragments generalizing done with
  | nil => simp [collect]
  | cons f rest ih =>
    have hany (r : Relation) : done.any (·.field = r.field) = true ↔
        r.field ∈ done.map (·.field) := by simp
    constructor
    · intro h
      simp only [collect] at h
      cases hread : read f with
      | error e' =>
        obtain rfl : e' = e := by simpa [hread] using h
        exact ⟨[], f, rest, done, rfl, rfl, .inl hread⟩
      | ok r =>
        simp only [hread, hany] at h
        split at h
        · rename_i hr
          exact ⟨[], f, rest, done, rfl, rfl, .inr ⟨r, hread, hr, (Except.error.inj h).symm⟩⟩
        · rename_i hr
          obtain ⟨before, fragment, after, rs, rfl, hbefore, hfault⟩ := ih.1 h
          refine ⟨f :: before, fragment, after, rs, rfl, ?_, hfault⟩
          simpa only [collect, hread, hany, if_neg hr] using hbefore
    · rintro ⟨_ | ⟨g, before⟩, fragment, after, rs, hsplit, hbefore, hfault⟩
      · obtain ⟨rfl, rfl⟩ : f = fragment ∧ rest = after := by simpa using hsplit
        obtain rfl : done = rs := by simpa [collect] using hbefore
        obtain hread | ⟨r, hread, hr, rfl⟩ := hfault
        · simp [collect, hread]
        · simp only [collect, hread, hany, if_pos hr]
      · obtain ⟨rfl, rfl⟩ : f = g ∧ rest = before ++ fragment :: after := by simpa using hsplit
        simp only [collect] at hbefore ⊢
        cases hread : read f with
        | error e' => simp [hread] at hbefore
        | ok r =>
          simp only [hread, hany] at hbefore ⊢
          split at hbefore
          · simp at hbefore
          · rename_i hr
            rw [if_neg hr]
            exact ih.2 ⟨before, fragment, after, rs, rfl, hbefore, hfault⟩

theorem offends_iff {allowed : List String} {earlier : List Relation} {fragment : String}
    {e : RelationError} :
    Offends allowed earlier fragment e ↔
      ofFragment allowed fragment = .error e ∨
        ∃ r, ofFragment allowed fragment = .ok r ∧ r.field ∈ earlier.map (·.field) ∧
          e = .duplicateTarget r.field := by
  simp only [ofFragment_eq_error_iff, ofFragment_eq_ok_iff, ofText_trim_eq_ok_iff,
    ofText_trim_eq_error_iff]
  constructor
  · rintro (⟨h⟩ | ⟨h, hfield⟩ | ⟨h, hfield, hearlier⟩)
    · exact .inl (.inl ⟨_, h, rfl⟩)
    · exact .inl (.inr ⟨_, h, hfield, rfl⟩)
    · exact .inr ⟨_, ⟨h, hfield⟩, hearlier, rfl⟩
  · rintro ((⟨_, h, rfl⟩ | ⟨_, h, hfield, rfl⟩) | ⟨_, ⟨h, hfield⟩, hearlier, rfl⟩)
    · exact .malformed h
    · exact .unknownTarget h hfield
    · exact .duplicateTarget h hfield hearlier

def WriteAll (allowed fragments : List String) (rs : List Relation) : Prop :=
  List.Forall₂ (fun r f => Writes (Text.trim f).toList r ∧ r.field ∈ allowed) rs fragments ∧
    (rs.map (·.field)).Nodup

theorem collect_ofFragment_eq_ok_iff {allowed fragments : List String} {rs : List Relation} :
    collect (ofFragment allowed) [] fragments = .ok rs ↔ WriteAll allowed fragments rs := by
  simp only [collect_nil_eq_ok_iff, ofFragment_eq_ok_iff, ofText_trim_eq_ok_iff, WriteAll]

theorem not_writeAll_of_isBlankText {text : String} (h : Text.isBlankText text = true)
    {allowed : List String} {rs : List Relation} :
    ¬ WriteAll allowed (Text.split ',' text) rs := by
  have hcomma : ∀ t ∈ [text], ',' ∉ t.toList := by
    simp only [List.mem_singleton, forall_eq]
    intro hmem
    simp [Text.isBlankText_of_mem hmem (by decide)] at h
  have hone : Text.split ',' text = [text] := by
    simpa using Text.split_intercalate hcomma (List.cons_ne_nil _ _)
  have hempty : (Text.trim text).toList = [] := by
    rw [Text.toList_trim, Text.trimChars, (Text.trimStart_eq_nil_iff _).2 h]
    rfl
  rw [hone]
  rintro ⟨hwrites, -⟩
  obtain ⟨r, -, ⟨hr, -⟩, -, -⟩ := List.forall₂_cons_right_iff.1 hwrites
  rw [hempty] at hr
  generalize hs : ([] : List Char) = s at hr
  cases hr
  simp at hs

/-- An authored text is read exactly as the relations that its fragments write, and a blank one
as none; a text that is not read fails for its first fragment at fault. -/
theorem parseList_iff (text : String) (allowed : List String) :
    (∀ rs, parseList text allowed = .ok rs ↔
      (Text.isBlankText text = true ∧ rs = []) ∨ WriteAll allowed (Text.split ',' text) rs) ∧
    ∀ e, parseList text allowed = .error e ↔
      Text.isBlankText text = false ∧
        ∃ before fragment after earlier, Text.split ',' text = before ++ fragment :: after ∧
          WriteAll allowed before earlier ∧ Offends allowed earlier fragment e := by
  unfold parseList
  cases hblank : Text.isBlankText text with
  | true => simp [not_writeAll_of_isBlankText hblank, eq_comm]
  | false => simp [collect_ofFragment_eq_ok_iff, collect_eq_error_iff, offends_iff]

/-- The first fragment at fault decides, whatever stands after it. -/
example :
    parseList " A B:>(x) , C:<(y), D:>(x)" ["x", "y"] = .error (.duplicateTarget "x") ∧
    parseList "A:>(z),B:<(z)" ["x", "y"] = .error (.unknownTarget "z") ∧
    parseList "A:>(x), B:-(x)" ["x"] = .error (.malformed "B:-(x)" .expectedDirection) := by
  decide +kernel

end Relation

end RecordGraph
