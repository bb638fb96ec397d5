import RecordGraph.Proofs.Tokens

/-!
Scanning of written tokens. A token followed by other text is read back with that
text left over: blanks are skipped, keywords are read in any case, and quoted
names and strings end where their own closing mark stands. Names, words and
numbers need an end that is no part of a token.
-/

namespace RecordGraph.Dialect

open RecordGraph.Statement

/-- Characters that end a name, a word or a number before them. -/
def endsToken (c : Char) : Bool :=
  !continuesName c && c != backtick && c != '.'

/-- The text is over or goes on with a character that ends a token. -/
def Ends (rest : List Char) : Prop :=
  ∀ c ∈ rest.head?, endsToken c = true

@[simp] theorem ends_nil : Ends [] := by
  simp [Ends]

@[simp] theorem ends_cons (c : Char) (rest : List Char) :
    Ends (c :: rest) ↔ endsToken c = true := by
  simp [Ends]

theorem endsToken_iff (c : Char) :
    endsToken c = true ↔ continuesName c = false ∧ c ≠ backtick ∧ c ≠ '.' := by
  simp [endsToken, and_assoc]

/-- The text is over or goes on with a character that ends a name. -/
def EndsName (rest : List Char) : Prop :=
  ∀ c ∈ rest.head?, continuesName c = false ∧ c ≠ backtick

theorem Ends.name {rest : List Char} (h : Ends rest) : EndsName rest := fun c hc =>
  ⟨((endsToken_iff c).1 (h c hc)).1, ((endsToken_iff c).1 (h c hc)).2.1⟩

theorem endsToken_of_isSpace {c : Char} (h : isSpace c = true) : endsToken c = true := by
  simp only [isSpace, Bool.or_eq_true, beq_iff_eq] at h
  rcases h with ((rfl | rfl) | rfl) | rfl <;> decide

theorem isAsciiDigit_eq_isDigit (c : Char) : isAsciiDigit c = c.isDigit := rfl

theorem continuesName_of_isDigit {c : Char} (h : c.isDigit = true) : continuesName c = true := by
  simp [continuesName, isAsciiDigit_eq_isDigit, h]

theorem isDigit_eq_false_of_endsToken {c : Char} (h : endsToken c = true) : c.isDigit = false := by
  by_contra hd
  simp [endsToken, continuesName_of_isDigit (Bool.not_eq_false _ ▸ hd)] at h

theorem takeWhile_append_of_end {p : Char → Bool} {run rest : List Char}
    (hrun : ∀ c ∈ run, p c = true) (hend : ∀ c ∈ rest.head?, p c = false) :
    (run ++ rest).takeWhile p = run := by
  rw [List.takeWhile_append_of_pos hrun]
  cases rest with
  | nil => simp
  | cons c rest => simp [hend c rfl]

theorem dropWhile_append_of_end {p : Char → Bool} {run rest : List Char}
    (hrun : ∀ c ∈ run, p c = true) (hend : ∀ c ∈ rest.head?, p c = false) :
    (run ++ rest).dropWhile p = rest := by
  rw [List.dropWhile_append_of_pos hrun]
  cases rest with
  | nil => simp
  | cons c rest => simp [hend c rfl]

theorem skip_append {gap : List Char} (h : gap.all isSpace = true) (s : List Char) :
    skip (gap ++ s) = skip s :=
  List.dropWhile_append_of_pos (List.all_eq_true.1 h)

@[simp] theorem skip_nil : skip [] = [] := rfl

theorem skip_cons {c : Char} (h : isSpace c = false) (s : List Char) : skip (c :: s) = c :: s := by
  simp [skip, h]

@[simp] theorem token_append (t rest : List Char) : token t (t ++ rest) = some rest := by
  induction t with
  | nil => rfl
  | cons c t ih => simpa [token] using ih

theorem token_ne {t c : Char} (h : t ≠ c) (ts rest : List Char) :
    token (t :: ts) (c :: rest) = none := by
  simp [token, h]

theorem keyword_append (text rest : List Char) :
    keyword (text.map lowerAscii) (text ++ rest) = some rest := by
  induction text with
  | nil => rfl
  | cons c text ih => simpa [keyword] using ih

theorem keyword_ne {t c : Char} (h : t ≠ lowerAscii c) (ts rest : List Char) :
    keyword (t :: ts) (c :: rest) = none := by
  simp [keyword, h]

theorem word_append (text : List Char) {rest : List Char} (h : Ends rest) :
    word (text.map lowerAscii) (text ++ rest) = some rest := by
  rw [word, keyword_append]
  cases rest with
  | nil => rfl
  | cons c rest =>
    have hc := ((endsToken_iff c).1 ((ends_cons c rest).1 h)).1
    simp only [continuesName, startsName, Bool.or_eq_false_iff] at hc
    simp [hc]

theorem word_ne {t c : Char} (h : t ≠ lowerAscii c) (ts rest : List Char) :
    word (t :: ts) (c :: rest) = none := by
  rw [word, keyword_ne h]
  rfl

theorem plainName_append {n rest : List Char} (hn : isPlainName n = true) (h : EndsName rest) :
    plainName (n ++ rest) = some (n, rest) := by
  cases n with
  | nil => simp [isPlainName] at hn
  | cons c n =>
    simp only [isPlainName, Bool.and_eq_true, List.all_eq_true] at hn
    have hend : ∀ d ∈ rest.head?, continuesName d = false := fun d hd => (h d hd).1
    rw [List.cons_append, plainName, if_pos hn.1, takeWhile_append_of_end hn.2 hend,
      dropWhile_append_of_end hn.2 hend]

theorem variableName_append {v : String} {rest : List Char}
    (hv : isPlainName v.toList = true) (h : EndsName rest) :
    variableName (v.toList ++ rest) = some (v, rest) := by
  simp [variableName, plainName_append hv h]

/-- A written name ends where it was written to, before anything that is no part of a name. -/
theorem nameSpan_escapeName (n : String) {rest : List Char} (h : EndsName rest) :
    nameSpan ((escapeName n).toList ++ rest) = some ((escapeName n).toList, rest) := by
  rw [toList_escapeName, nameChars]
  by_cases hn : isPlainName n.toList = true
  · rw [if_pos hn]
    have hread := plainName_append hn h
    obtain ⟨c, s, hs, hc⟩ := exists_cons_of_isPlainName hn
    rw [hs, List.cons_append] at hread
    rw [hs, List.cons_append, nameSpan, if_neg hc, hread]
  · rw [if_neg hn]
    simp [nameSpan, quotedRun_doubled n.toList fun c hc => (h c hc).2, token]

theorem name_append (n : String) {rest : List Char} (h : EndsName rest) :
    name ((escapeName n).toList ++ rest) = some (n, rest) := by
  simp only [name_eq, nameSpan_escapeName n h, Option.map_some, unquoteName_escapeName]

theorem stringBody_append (s rest : List Char) :
    stringBody (s.flatMap escapeChar ++ '\'' :: rest) = some (s, rest) := by
  simp [stringBody_eq, stringRun_escaped, resolveEscapes_escaped, token]

end RecordGraph.Dialect
