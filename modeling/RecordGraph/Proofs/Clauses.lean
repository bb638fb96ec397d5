import RecordGraph.Proofs.Patterns

/-!
Reading of written statements. Each clause begins with its keyword, in any case of
the letters, so no rule takes the clause of another; blanks and a letter after a
clause end it, and the return clause ends the statement.
-/

namespace RecordGraph.Dialect

open RecordGraph.Statement

def Spells (word : List Char) (keyword : String) : Prop :=
  word.map lowerAscii = keyword.toList

theorem Spells.keyword_append {word : List Char} {k : String} (h : Spells word k)
    (rest : List Char) : keyword k.toList (word ++ rest) = some rest := by
  rw [← h]
  exact Dialect.keyword_append word rest

theorem Spells.keyword_none {word : List Char} {k : String} (h : Spells word k)
    (common : List Char) {t c : Char} {ts cs : List Char} (hk : k.toList = common ++ c :: cs)
    (hne : t ≠ c) (rest : List Char) : keyword (common ++ t :: ts) (word ++ rest) = none := by
  unfold Spells at h
  rw [hk] at h
  clear hk
  induction common generalizing word with
  | nil =>
    cases word with
    | nil => simp at h
    | cons d word =>
      have hd : lowerAscii d = c := (List.cons.inj h).1
      exact keyword_ne (by rwa [hd]) ts _
  | cons b common ih =>
    cases word with
    | nil => simp at h
    | cons d word =>
      obtain ⟨hd, hword⟩ := List.cons.inj h
      simpa [keyword, hd] using ih hword

theorem isSpace_eq_false_of_isAsciiLetter {c : Char} (h : isAsciiLetter c = true) :
    isSpace c = false :=
  isSpace_eq_false_of_startsName (by simp [startsName, h])

theorem isAsciiLetter_of_lowerAscii {c : Char} (h : isAsciiLetter (lowerAscii c) = true) :
    isAsciiLetter c = true := by
  unfold lowerAscii at h
  split at h
  · rename_i hc
    simp [isAsciiLetter, hc]
  · exact h

theorem Gap.endsName (g : Gap) {c : Char} (h : continuesName c = false) (hc : c ≠ backtick)
    (rest : List Char) : EndsName (g.chars ++ c :: rest) := by
  intro d hd
  rcases g.mem_head hd with hspace | rfl
  · exact ((endsToken_iff d).1 (endsToken_of_isSpace hspace)).imp id And.left
  · exact ⟨h, hc⟩

def Follows (rest : List Char) : Prop :=
  ∃ (g : Gap) (c : Char) (s : List Char),
    g.chars ≠ [] ∧ isAsciiLetter c = true ∧ rest = g.chars ++ c :: s

namespace Follows

variable {rest : List Char}

theorem ends (h : Follows rest) : Ends rest := by
  obtain ⟨⟨chars, blank⟩, c, s, hne, -, rfl⟩ := h
  obtain ⟨b, chars, rfl⟩ := List.exists_cons_of_ne_nil hne
  simp only [List.all_cons, Bool.and_eq_true] at blank
  simpa using endsToken_of_isSpace blank.1

theorem noEdge (h : Follows rest) : NoEdge rest := by
  obtain ⟨g, c, s, -, hc, rfl⟩ := h
  intro d hd
  rw [Gap.skip_append, skip_cons (isSpace_eq_false_of_isAsciiLetter hc)] at hd
  obtain rfl : c = d := Option.mem_some.1 hd
  constructor <;> rintro rfl <;> exact absurd hc (by decide)

end Follows

/-- The text is read as the clause wherever blanks and a letter follow. -/
structure ReadsClause (text : List Char) (c : Clause) : Prop where
  starts : ∃ d s, text = d :: s ∧ isAsciiLetter d = true
  reads : ∀ rest, Follows rest → clause (text ++ rest) = some (.ok c, rest)

theorem Spells.starts {word : List Char} {k : String} (h : Spells word k)
    (hk : ∃ c cs, k.toList = c :: cs ∧ isAsciiLetter c = true) (rest : List Char) :
    ∃ d s, word ++ rest = d :: s ∧ isAsciiLetter d = true := by
  obtain ⟨c, cs, hc, hletter⟩ := hk
  unfold Spells at h
  rw [hc] at h
  cases word with
  | nil => simp at h
  | cons d word =>
    have hd : lowerAscii d = c := (List.cons.inj h).1
    exact ⟨d, word ++ rest, rfl, isAsciiLetter_of_lowerAscii (by rwa [hd])⟩

theorem ReadsNode.readsClause_match {word text : List Char} {p : NodePattern}
    (h : ReadsNode text p) (hword : Spells word "match") (g : Gap) :
    ReadsClause (word ++ (g.chars ++ text)) (.matchNode p) where
  starts := hword.starts ⟨_, _, rfl, by decide⟩ _
  reads rest hrest := by
    simp only [clause, matchClause, List.append_assoc, hword.keyword_append, Gap.skip_append,
      h.reads.starts, h.reads.reads rest hrest.ends, Option.bind_eq_bind, Option.bind_some,
      Option.pure_def]
    rfl

theorem Spells.not_match {word : List Char} (h : Spells word "merge") (rest : List Char) :
    matchClause (word ++ rest) = none := by
  have hnone : keyword "match".toList (word ++ rest) = none :=
    h.keyword_none ['m'] rfl (by decide) rest
  simp only [matchClause, hnone, Option.bind_eq_bind, Option.bind_none]

theorem ReadsNode.readsClause_merge {word text : List Char} {p : NodePattern}
    (h : ReadsNode text p) (hword : Spells word "merge") (g : Gap) :
    ReadsClause (word ++ (g.chars ++ text)) (.mergeNode p) where
  starts := hword.starts ⟨_, _, rfl, by decide⟩ _
  reads rest hrest := by
    have hnode := h.not_relationship hrest.noEdge
    simp only [clause, hword.not_match, mergeClause, List.append_assoc, hword.keyword_append,
      Gap.skip_append, h.reads.starts, hnode, h.reads.reads rest hrest.ends,
      Option.bind_eq_bind, Option.bind_some, Option.pure_def]
    rfl

theorem ReadsRelationship.readsClause {word text : List Char} {p : RelationshipPattern}
    (h : ReadsRelationship text p) (hword : Spells word "merge") (g : Gap) :
    ReadsClause (word ++ (g.chars ++ text)) (.mergeRelationship p) where
  starts := hword.starts ⟨_, _, rfl, by decide⟩ _
  reads rest hrest := by
    simp only [clause, hword.not_match, mergeClause, List.append_assoc, hword.keyword_append,
      Gap.skip_append, h.reads.starts, h.reads.reads rest hrest.ends, Option.bind_eq_bind,
      Option.bind_some, Option.pure_def]
    rfl

/-- An assignment as it is written. -/
inductive ReadsAssignment : List Char → Assignment → Prop
  | intro {text : List Char} (g g' g'' g₃ : Gap) (var key : String) (v : PropertyValue)
      (hvar : isPlainName var.toList = true) (h : ReadsValue text v) :
      ReadsAssignment (var.toList ++ (g.chars ++ '.' :: (g'.chars ++ ((escapeName key).toList ++
        (g''.chars ++ '=' :: (g₃.chars ++ text)))))) ⟨var, key, v⟩

theorem ReadsAssignment.readsClause {word text : List Char} {a : Assignment}
    (h : ReadsAssignment text a) (hword : Spells word "set") (g₀ : Gap) :
    ReadsClause (word ++ (g₀.chars ++ text)) (.set a) where
  starts := hword.starts ⟨_, _, rfl, by decide⟩ _
  reads rest hrest := by
    have hmatch : ∀ s, matchClause (word ++ s) = none := fun s => by
      have hnone : keyword "match".toList (word ++ s) = none :=
        hword.keyword_none [] rfl (by decide) s
      simp only [matchClause, hnone, Option.bind_eq_bind, Option.bind_none]
    have hmerge : ∀ s, mergeClause (word ++ s) = none := fun s => by
      have hnone : keyword "merge".toList (word ++ s) = none :=
        hword.keyword_none [] rfl (by decide) s
      simp only [mergeClause, hnone, Option.bind_eq_bind, Option.bind_none]
    cases h with
    | @intro text g g' g'' g₃ var key v hvar hvalue =>
      have hvariable := variableName_append hvar (g.endsName (by decide : continuesName '.' = false)
        (by decide) (g'.chars ++ ((escapeName key).toList ++ (g''.chars ++ '=' :: (g₃.chars ++
          (text ++ rest))))))
      have hname := name_append key (g''.ends (by decide : endsToken '=' = true)
        (g₃.chars ++ (text ++ rest))).name
      simp (disch := decide) only [clause, setClause, List.append_assoc, List.cons_append, hmatch,
        hmerge, hword.keyword_append, Gap.skip_append, skip_cons, token_self,
        (reads_variableName hvar).starts, (reads_name key).starts, hvariable, hname,
        hvalue.anyValue.starts, hvalue.anyValue.reads rest hrest.ends, Option.bind_eq_bind,
        Option.bind_some, Option.pure_def]
      rfl

/-- Clauses with blanks after each of them. -/
inductive ReadsClauses : List Char → List Clause → Prop
  | nil : ReadsClauses [] []
  | cons {text more : List Char} {c : Clause} {cs : List Clause} (h : ReadsClause text c)
      (g : Gap) (hg : g.chars ≠ []) (rest : ReadsClauses more cs) :
      ReadsClauses (text ++ (g.chars ++ more)) (c :: cs)

namespace ReadsClauses

variable {text : List Char} {cs : List Clause}

theorem length_le (h : ReadsClauses text cs) : cs.length ≤ text.length := by
  induction h with
  | nil => exact le_refl _
  | cons h g hg rest ih =>
    obtain ⟨d, s, rfl, -⟩ := h.starts
    simp only [List.length_append, List.length_cons]
    omega

theorem starts (h : ReadsClauses text cs) {c : Char} (hc : isAsciiLetter c = true)
    (rest : List Char) : ∃ d s, text ++ c :: rest = d :: s ∧ isAsciiLetter d = true := by
  cases h with
  | nil => exact ⟨c, rest, rfl, hc⟩
  | cons h g hg more =>
    obtain ⟨d, s, rfl, hd⟩ := h.starts
    exact ⟨d, _, rfl, hd⟩

theorem many_append (h : ReadsClauses text cs) (g : Gap) {c : Char} (hc : isAsciiLetter c = true)
    (rest : List Char) (hnone : clause (c :: rest) = none) (fuel : Nat)
    (hfuel : cs.length ≤ fuel) :
    ∃ g' : Gap, many clause fuel (g.chars ++ (text ++ c :: rest)) =
      (cs.map .ok, g'.chars ++ c :: rest) := by
  induction h generalizing fuel g with
  | nil =>
    refine ⟨g, ?_⟩
    cases fuel with
    | zero => rfl
    | succ fuel => simp [many, skip_cons (isSpace_eq_false_of_isAsciiLetter hc), hnone]
  | @cons text more first cs h g' hg following ih =>
    obtain ⟨fuel, rfl⟩ := Nat.exists_eq_add_of_lt (show 0 < fuel by simp at hfuel; omega)
    obtain ⟨g'', hmore⟩ := ih g' fuel (by simp at hfuel; omega)
    refine ⟨g'', ?_⟩
    have hfollows : Follows (g'.chars ++ (more ++ c :: rest)) := by
      obtain ⟨d, s, hs, hd⟩ := following.starts hc rest
      exact ⟨g', d, s, hg, hd, by rw [hs]⟩
    have hskip : skip (text ++ (g'.chars ++ (more ++ c :: rest))) =
        text ++ (g'.chars ++ (more ++ c :: rest)) := by
      obtain ⟨d, s, rfl, hd⟩ := h.starts
      exact skip_cons (isSpace_eq_false_of_isAsciiLetter hd) _
    simp only [Nat.zero_add, many, List.append_assoc, Gap.skip_append, hskip, h.reads _ hfollows,
      hmore, List.map_cons]

end ReadsClauses

theorem Spells.not_clause {word : List Char} (h : Spells word "return") (rest : List Char) :
    clause (word ++ rest) = none := by
  have hmatch : keyword "match".toList (word ++ rest) = none :=
    h.keyword_none [] rfl (by decide) rest
  have hmerge : keyword "merge".toList (word ++ rest) = none :=
    h.keyword_none [] rfl (by decide) rest
  have hset : keyword "set".toList (word ++ rest) = none :=
    h.keyword_none [] rfl (by decide) rest
  simp only [clause, matchClause, mergeClause, setClause, hmatch, hmerge, hset,
    Option.bind_eq_bind, Option.bind_none]
  rfl

theorem ReadsClauses.parse {text word : List Char} {cs : List Clause} {var : String}
    (h : ReadsClauses text cs) (hword : Spells word "return")
    (hvar : isPlainName var.toList = true) (g g' g'' : Gap) :
    parse (String.ofList (g.chars ++ (text ++ (word ++ (g'.chars ++ (var.toList ++ g''.chars)))))) =
      .ok ⟨cs, var⟩ := by
  obtain ⟨c, s, hs, hc⟩ :=
    hword.starts ⟨_, _, rfl, by decide⟩ (g'.chars ++ (var.toList ++ g''.chars))
  obtain ⟨g₃, hmany⟩ := h.many_append g hc s (by rw [← hs]; exact hword.not_clause _)
    (g.chars ++ (text ++ c :: s)).length
    (by have := h.length_le; simp only [List.length_append]; omega)
  have hreturn : returnClause (c :: s) = some (var, g''.chars) := by
    have hends : Ends g''.chars := by simpa using g''.ends_append ends_nil
    have hvariable := variableName_append hvar hends.name
    rw [← hs]
    simp only [returnClause, hword.keyword_append, Gap.skip_append,
      (reads_variableName hvar).starts, hvariable, Option.bind_eq_bind, Option.bind_some]
  have hend : skip g''.chars = [] := by simpa using g''.skip_append []
  simp only [Dialect.parse, statement, String.toList_ofList, hs, hmany, Gap.skip_append,
    skip_cons (isSpace_eq_false_of_isAsciiLetter hc), hreturn, hend, checkAll_map_ok,
    Option.bind_eq_bind, Option.bind_some, Option.pure_def, List.isEmpty_nil, if_true,
    Option.getD_some]
  rfl

end RecordGraph.Dialect
