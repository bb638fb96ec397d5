import RecordGraph.Proofs.Results
import RecordGraph.Proofs.Splitting
import RecordGraph.Relation.Text
import RecordGraph.Relation.Wire

/-!
Relations in their written forms. A wire fragment is read as the one relation that
writes it, and an authored fragment as one whose names are fit for the wire; a list of
fragments is read when each of them is and no field stands twice.
-/

namespace RecordGraph

theorem Direction.ofChars?_eq_some_iff {s : List Char} {d : Direction} :
    ofChars? s = some d ↔ s = [d.char] := by
  constructor
  · intro h
    unfold ofChars? at h
    split at h <;> simp at h
    all_goals
      subst h
      rfl
  · rintro rfl
    exact ofChars?_char d

namespace Relation

theorem collect_eq_ok_iff {read : String → Except RelationError Relation} {done rs : List Relation}
    {fragments : List String} (hdone : (done.map (·.field)).Nodup) :
    collect read done fragments = .ok rs ↔
      ∃ more, rs = done ++ more ∧ List.Forall₂ (fun r f => read f = .ok r) more fragments ∧
        (rs.map (·.field)).Nodup := by
  induction fragments generalizing done with
  | nil =>
    simp only [collect, Except.ok.injEq, List.forall₂_nil_right_iff]
    constructor
    · rintro rfl
      exact ⟨[], by simp, rfl, hdone⟩
    · rintro ⟨_, rfl, rfl, -⟩
      simp
  | cons f rest ih =>
    simp only [collect, List.forall₂_cons_right_iff]
    cases hread : read f with
    | error e => simp
    | ok r =>
      have hany : done.any (·.field = r.field) = true ↔ r.field ∈ done.map (·.field) := by simp
      simp only [hany, Except.ok.injEq]
      split
      · rename_i hr
        -- The field is among those read already, so no list that keeps them has it once more.
        simp only [reduceCtorEq, false_iff]
        rintro ⟨_, rfl, ⟨_, more, rfl, -, rfl⟩, hnodup⟩
        rw [List.map_append, List.map_cons, List.nodup_append] at hnodup
        exact hnodup.2.2 _ hr _ List.mem_cons_self rfl
      · rename_i hr
        have hnext : ((done ++ [r]).map (·.field)).Nodup := by
          rw [List.map_append, List.map_singleton, ← List.concat_eq_append, List.nodup_concat]
          exact ⟨hr, hdone⟩
        rw [ih hnext]
        constructor
        · rintro ⟨more, rfl, hmore, hnodup⟩
          exact ⟨r :: more, by simp, ⟨r, more, rfl, hmore, rfl⟩, hnodup⟩
        · rintro ⟨_, rfl, ⟨_, more, rfl, hmore, rfl⟩, hnodup⟩
          exact ⟨more, by simp, hmore, hnodup⟩

theorem collect_nil_eq_ok_iff {read : String → Except RelationError Relation}
    {rs : List Relation} {fragments : List String} :
    collect read [] fragments = .ok rs ↔
      List.Forall₂ (fun r f => read f = .ok r) rs fragments ∧ (rs.map (·.field)).Nodup := by
  have hnil : (([] : List Relation).map (·.field)).Nodup := List.nodup_nil
  simp [collect_eq_ok_iff hnil]

/-! Wire form -/

/-- Both names are there, and neither holds the mark between the parts of a wire fragment. -/
structure Delimited (r : Relation) : Prop where
  field_ne_empty : r.field ≠ ""
  label_ne_empty : r.label ≠ ""
  bar_notMem_field : '|' ∉ r.field.toList
  bar_notMem_label : '|' ∉ r.label.toList

theorem toList_toWire (r : Relation) :
    r.toWire.toList =
      ['|'].intercalate [r.field.toList, [r.direction.char], r.label.toList] := by
  simp [toWire, Direction.token]

theorem ofWire_eq_ok_iff {fragment : String} {r : Relation} :
    ofWire fragment = .ok r ↔ r.Delimited ∧ fragment = r.toWire := by
  constructor
  · intro h
    have hjoin := Text.intercalate_splitChars '|' fragment.toList
    have hbar : ∀ piece ∈ Text.splitChars '|' fragment.toList, '|' ∉ piece := fun _ =>
      Text.not_mem_of_mem_splitChars
    unfold ofWire at h
    split at h
    · rename_i field direction label hparts
      rw [hparts] at hjoin hbar
      split at h
      · simp at h
      rename_i hne
      simp only [Bool.or_eq_true, List.isEmpty_iff, not_or] at hne
      split at h
      · simp at h
      rename_i d hd
      obtain rfl := Except.ok.inj h
      obtain rfl := Direction.ofChars?_eq_some_iff.1 hd
      refine ⟨⟨?_, ?_, ?_, ?_⟩, ?_⟩
      · simpa [← String.toList_inj] using hne.1
      · simpa [← String.toList_inj] using hne.2
      · simpa using hbar field (by simp)
      · simpa using hbar label (by simp)
      · rw [← String.toList_inj, toList_toWire, ← hjoin]
        simp
    · simp at h
  · rintro ⟨⟨hfield, hlabel, hbar, hbar'⟩, rfl⟩
    have hdirection : '|' ∉ [r.direction.char] := by cases r.direction <;> decide
    have hpieces : ∀ p ∈ [r.field.toList, [r.direction.char], r.label.toList], '|' ∉ p := by
      simp [hbar, hbar', hdirection]
    have hparts := Text.splitChars_intercalate hpieces (List.cons_ne_nil _ _)
    rw [← toList_toWire] at hparts
    simp [ofWire, hparts, hfield, hlabel]

/-- No part is empty or holds a delimiter, and no blank stands at either end of the wire form. -/
structure Portable (r : Relation) : Prop where
  field_ne_empty : r.field ≠ ""
  label_ne_empty : r.label ≠ ""
  field_delimiters : ',' ∉ r.field.toList ∧ '|' ∉ r.field.toList
  label_delimiters : ',' ∉ r.label.toList ∧ '|' ∉ r.label.toList
  field_start : ∀ c ∈ r.field.toList.head?, Text.isBlank c = false
  label_end : ∀ c ∈ r.label.toList.getLast?, Text.isBlank c = false

theorem trim_toWire_eq_self_iff {r : Relation} (h : r.Delimited) :
    Text.trim r.toWire = r.toWire ↔ (∀ c ∈ r.field.toList.head?, Text.isBlank c = false) ∧
      ∀ c ∈ r.label.toList.getLast?, Text.isBlank c = false := by
  have hhead : r.toWire.toList.head? = r.field.toList.head? := by
    have hne : r.field.toList ≠ [] := by simpa using h.field_ne_empty
    obtain ⟨c, rest, hc⟩ := List.exists_cons_of_ne_nil hne
    simp [toWire, hc]
  have hlast : r.toWire.toList.getLast? = r.label.toList.getLast? := by
    have hne : r.label.toList ≠ [] := by simpa using h.label_ne_empty
    rw [toWire, String.toList_append, List.getLast?_append_of_ne_nil _ hne]
  rw [Text.trim_eq_self_iff, hhead, hlast]

theorem comma_notMem_toWire_iff (r : Relation) :
    ',' ∉ r.toWire.toList ↔ ',' ∉ r.field.toList ∧ ',' ∉ r.label.toList := by
  have hdirection : ',' ∉ [r.direction.char] := by cases r.direction <;> decide
  simp [toWire, Direction.token] at hdirection ⊢
  tauto

theorem portable_iff (r : Relation) :
    r.Portable ↔ r.Delimited ∧ ',' ∉ r.toWire.toList ∧ Text.trim r.toWire = r.toWire := by
  rw [comma_notMem_toWire_iff]
  constructor
  · intro h
    have hdelimited : r.Delimited :=
      ⟨h.field_ne_empty, h.label_ne_empty, h.field_delimiters.2, h.label_delimiters.2⟩
    exact ⟨hdelimited, ⟨h.field_delimiters.1, h.label_delimiters.1⟩,
      (trim_toWire_eq_self_iff hdelimited).2 ⟨h.field_start, h.label_end⟩⟩
  · rintro ⟨h, ⟨hfield, hlabel⟩, htrim⟩
    obtain ⟨hstart, hend⟩ := (trim_toWire_eq_self_iff h).1 htrim
    exact ⟨h.field_ne_empty, h.label_ne_empty, ⟨hfield, h.bar_notMem_field⟩,
      ⟨hlabel, h.bar_notMem_label⟩, hstart, hend⟩

theorem isBlankText_encodeList (rs : List Relation) :
    Text.isBlankText (encodeList rs) = rs.isEmpty := by
  cases rs with
  | nil => rfl
  | cons r rest =>
    have hbar : '|' ∈ (encodeList (r :: rest)).toList := by
      cases rest <;> simp [encodeList, toWire]
    exact Text.isBlankText_of_mem hbar (by decide)

theorem decodeList_eq_ok_iff {wire : String} {rs : List Relation} :
    decodeList wire = .ok rs ↔
      if Text.isBlankText wire then rs = []
      else (Text.split ',' wire).map Text.trim = rs.map toWire ∧ (∀ r ∈ rs, r.Delimited) ∧
        (rs.map (·.field)).Nodup := by
  unfold decodeList
  split
  · simp [eq_comm]
  · have hwire : List.Forall₂ (fun r f => Text.trim f = r.toWire) rs (Text.split ',' wire) ↔
        (Text.split ',' wire).map Text.trim = rs.map toWire := by
      rw [eq_comm, ← List.forall₂_eq_eq_eq, List.forall₂_map_left_iff, List.forall₂_map_right_iff]
      simp only [eq_comm]
    simp only [collect_nil_eq_ok_iff, ofWire_eq_ok_iff, List.forall₂_and_left, hwire]
    tauto

theorem decodeList_encodeList_eq_ok_iff (rs : List Relation) :
    decodeList (encodeList rs) = .ok rs ↔
      (rs.map (·.field)).Nodup ∧ ∀ r ∈ rs, r.Portable := by
  rw [decodeList_eq_ok_iff, isBlankText_encodeList]
  cases rs with
  | nil => simp
  | cons r rest =>
    have hcomma : "," = String.singleton ',' := rfl
    simp only [List.isEmpty_cons, Bool.false_eq_true, if_false, portable_iff, forall_and]
    rw [encodeList, hcomma, Text.map_trim_split_intercalate_iff (by simp)]
    simp only [List.mem_map, forall_exists_index, and_imp, forall_apply_eq_imp_iff₂, forall_and]
    tauto

/-! Authored form -/

theorem toNat_of_continuesName {c : Char} (h : Statement.continuesName c = true) :
    48 ≤ c.toNat ∧ c.toNat ≤ 122 := by
  simp only [Statement.continuesName, Statement.startsName, Statement.isAsciiLetter,
    Statement.isAsciiDigit, Char.le_def, UInt32.le_iff_toNat_le, Bool.or_eq_true, Bool.and_eq_true,
    decide_eq_true_eq, beq_iff_eq] at h
  rcases h with ((h | h) | rfl) | h
  · exact ⟨le_trans (by decide) h.1, h.2⟩
  · exact ⟨le_trans (by decide) h.1, le_trans h.2 (by decide)⟩
  · decide
  · exact ⟨h.1, le_trans h.2 (by decide)⟩

theorem not_blank_of_continuesName {c : Char} (h : Statement.continuesName c = true) :
    Text.isBlank c = false := by
  have hnat := toNat_of_continuesName h
  simp only [Text.isBlank, Bool.or_eq_false_iff, Bool.and_eq_false_iff, decide_eq_false_iff_not,
    beq_eq_false_iff_ne]
  omega

theorem notMem_of_continuesName {s : List Char} (h : ∀ c ∈ s, Statement.continuesName c = true)
    {d : Char} (hd : d.toNat < 48 ∨ 122 < d.toNat) : d ∉ s := by
  intro hmem
  have hnat := toNat_of_continuesName (h d hmem)
  omega

theorem scanField_eq_ok {label label' : List Char} {d d' : Direction} {s field : List Char}
    (h : scanField label d s = .ok (label', d', field)) :
    label' = label ∧ field ≠ [] ∧ ∀ c ∈ field, Statement.continuesName c = true := by
  unfold scanField at h
  split at h
  · rename_i r
    simp only at h
    split at h
    · simp at h
    rename_i hne
    split at h
    · obtain ⟨rfl, -, rfl⟩ : label = label' ∧ d = d' ∧ _ = field := by simpa using h
      exact ⟨rfl, by simpa using hne, fun c hc => List.mem_takeWhile_imp hc⟩
    · simp at h
    · simp at h
  · simp at h

theorem scan_eq_ok {s label field : List Char} {d : Direction}
    (h : scan s = .ok (label, d, field)) :
    (∀ c ∈ label, inLabel c = true) ∧ field ≠ [] ∧
      ∀ c ∈ field, Statement.continuesName c = true := by
  have hlabel : ∀ c ∈ s.takeWhile inLabel, inLabel c = true := fun c hc =>
    List.mem_takeWhile_imp hc
  have hfield {r d'} (hr : scanField (s.takeWhile inLabel) d' r = .ok (label, d, field)) :
      (∀ c ∈ label, inLabel c = true) ∧ field ≠ [] ∧
        ∀ c ∈ field, Statement.continuesName c = true := by
    obtain ⟨rfl, hne, hname⟩ := scanField_eq_ok hr
    exact ⟨hlabel, hne, hname⟩
  unfold scan at h
  simp only at h
  split at h
  · simp at h
  split at h
  · exact hfield h
  · exact hfield h
  · simp at h
  · simp at h

theorem portable_ofText {fragment : String} {r : Relation} (h : ofText fragment = .ok r) :
    r.Portable := by
  unfold ofText at h
  split at h
  · simp at h
  rename_i label d field hscan
  obtain ⟨hlabel, hfield, hname⟩ := scan_eq_ok hscan
  simp only at h
  split at h
  · simp at h
  rename_i hne
  obtain rfl := Except.ok.inj h
  -- Trimming takes characters away only, so the label still holds no delimiter.
  have htrimmed : ∀ c ∈ Text.trimChars label, inLabel c = true := fun c hc =>
    hlabel c (Text.mem_trimChars hc)
  have hdelimiter {c : Char} (hc : inLabel c = false) : c ∉ Text.trimChars label := fun hmem => by
    simp [htrimmed c hmem] at hc
  constructor
  · simpa using hfield
  · simpa using hne
  · simpa using ⟨notMem_of_continuesName hname (by decide),
      notMem_of_continuesName hname (by decide)⟩
  · simpa using ⟨hdelimiter (by decide), hdelimiter (by decide)⟩
  · intro c hc
    exact not_blank_of_continuesName (hname c (List.mem_of_mem_head? (by simpa using hc)))
  · simpa using Text.getLast?_trimChars label

theorem ofFragment_eq_ok_iff {allowed : List String} {fragment : String} {r : Relation} :
    ofFragment allowed fragment = .ok r ↔
      ofText (Text.trim fragment) = .ok r ∧ r.field ∈ allowed := by
  unfold ofFragment
  cases ofText (Text.trim fragment) with
  | error e => simp
  | ok r' =>
    by_cases hr' : r'.field ∈ allowed
    · simp only [hr', if_true, Except.ok.injEq]
      exact ⟨fun h => ⟨h, h ▸ hr'⟩, And.left⟩
    · simp only [hr', if_false, reduceCtorEq, false_iff, Except.ok.injEq]
      rintro ⟨rfl, hr⟩
      exact hr' hr

theorem parseList_eq_ok {text : String} {allowed : List String} {rs : List Relation}
    (h : parseList text allowed = .ok rs) :
    (rs.map (·.field)).Nodup ∧ ∀ r ∈ rs, r.Portable ∧ r.field ∈ allowed := by
  unfold parseList at h
  split at h
  · obtain rfl : [] = rs := by simpa using h
    simp
  · obtain ⟨hread, hnodup⟩ := collect_nil_eq_ok_iff.1 h
    have hfit : List.Forall₂ (fun r f => (r.Portable ∧ r.field ∈ allowed) ∧ ofText (Text.trim f) =
        .ok r) rs (Text.split ',' text) := by
      refine hread.imp fun r f hr => ?_
      obtain ⟨hr, hallowed⟩ := ofFragment_eq_ok_iff.1 hr
      exact ⟨⟨portable_ofText hr, hallowed⟩, hr⟩
    exact ⟨hnodup, ((List.forall₂_and_left _ _).1 hfit).1⟩

/-! Both forms -/

theorem encodeList_of_decodeList {wire : String} {rs : List Relation}
    (h : decodeList wire = .ok rs) :
    encodeList rs = if Text.isBlankText wire then ""
      else ",".intercalate ((Text.split ',' wire).map Text.trim) := by
  rw [decodeList_eq_ok_iff] at h
  split at h
  · subst h
    simp [*, encodeList]
  · simp [*, encodeList]

theorem portable_of_decodeList {wire : String} {rs : List Relation}
    (h : decodeList wire = .ok rs) :
    (rs.map (·.field)).Nodup ∧ ∀ r ∈ rs, r.Portable := by
  rw [decodeList_eq_ok_iff] at h
  split at h
  · subst h
    simp
  · obtain ⟨hwires, hdelimited, hnodup⟩ := h
    refine ⟨hnodup, fun r hr => (portable_iff r).2 ⟨hdelimited r hr, ?_⟩⟩
    have hmem := List.mem_map_of_mem (f := toWire) hr
    rw [← hwires] at hmem
    obtain ⟨fragment, hfragment, hr⟩ := List.mem_map.1 hmem
    rw [← hr, Text.toList_trim, Text.trim_trim]
    exact ⟨fun hcomma => Text.not_mem_of_mem_split hfragment (Text.mem_trimChars hcomma), rfl⟩

/-- Relations survive the wire exactly when they are portable with each field once, which all
relations read from an authored text are; and a wire text that is read is written back with its
fragments trimmed, to the same relations. -/
theorem wire_roundTrip :
    (∀ rs, decodeList (encodeList rs) = .ok rs ↔
      (rs.map (·.field)).Nodup ∧ ∀ r ∈ rs, r.Portable) ∧
    (∀ text allowed rs, parseList text allowed = .ok rs →
      ((rs.map (·.field)).Nodup ∧ ∀ r ∈ rs, r.Portable) ∧
        decodeList (encodeList rs) = .ok rs) ∧
    ∀ wire rs, decodeList wire = .ok rs →
      encodeList rs = (if Text.isBlankText wire then ""
        else ",".intercalate ((Text.split ',' wire).map Text.trim)) ∧
      decodeList (encodeList rs) = .ok rs := by
  refine ⟨decodeList_encodeList_eq_ok_iff, fun text allowed rs h => ?_, fun wire rs h => ?_⟩
  · obtain ⟨hnodup, hfit⟩ := parseList_eq_ok h
    have hportable : ∀ r ∈ rs, r.Portable := fun r hr => (hfit r hr).1
    exact ⟨⟨hnodup, hportable⟩, (decodeList_encodeList_eq_ok_iff rs).2 ⟨hnodup, hportable⟩⟩
  · exact ⟨encodeList_of_decodeList h,
      (decodeList_encodeList_eq_ok_iff rs).2 (portable_of_decodeList h)⟩

/-- A label with a blank inside, and a relation of each written direction. -/
def Sample.employed : List Relation :=
  [⟨"works at", .outgoing, "jobs"⟩, ⟨"KNOWS", .incoming, "friends"⟩]

theorem wire_roundTrip_employed :
    (parseList " works at :>(jobs), KNOWS:<(friends)" ["friends", "jobs"] = .ok Sample.employed ∧
      decodeList " jobs|>|works at , friends|<|KNOWS\n" = .ok Sample.employed) ∧
    encodeList Sample.employed = "jobs|>|works at,friends|<|KNOWS" ∧
    decodeList (encodeList Sample.employed) = .ok Sample.employed := by
  have hparsed : parseList " works at :>(jobs), KNOWS:<(friends)" ["friends", "jobs"] =
      .ok Sample.employed := by decide +kernel
  have hdecoded : decodeList " jobs|>|works at , friends|<|KNOWS\n" = .ok Sample.employed := by
    decide +kernel
  refine ⟨⟨hparsed, hdecoded⟩, ?_, (wire_roundTrip.2.1 _ _ _ hparsed).2⟩
  rw [(wire_roundTrip.2.2 _ _ hdecoded).1]
  decide +kernel

end Relation

end RecordGraph
