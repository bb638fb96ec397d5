import Mathlib.Tactic
import RecordGraph.Dialect.Scan

/-!
Tokens of quoted text. The grammar finds the end of a string or a quoted name by its marks
alone, and the text between them is resolved afterwards; the rules that run do both in one
pass. Here each of them is its token followed by its resolution, on every text, and escaped
text is one run that resolves to what was escaped.
-/

namespace RecordGraph.Dialect

open RecordGraph.Statement

/-- The longest run of escaped characters and characters other than a quote. -/
def stringRun : List Char → List Char × List Char
  | [] => ([], [])
  | '\'' :: s => ([], '\'' :: s)
  | '\\' :: c :: s => (stringRun s).map ('\\' :: c :: ·) id
  | c :: s => (stringRun s).map (c :: ·) id

def stringSpan : Rule (List Char)
  | '\'' :: s => (token ['\''] (stringRun s).2).map fun r => ('\'' :: (stringRun s).1 ++ ['\''], r)
  | _ => none

def resolveEscapes : List Char → List Char
  | [] => []
  | ['\\'] => []
  | '\\' :: c :: s => unescaped c :: resolveEscapes s
  | c :: s => c :: resolveEscapes s

def unescapeString (literal : List Char) : String :=
  String.ofList (resolveEscapes literal.tail.dropLast)

/-- The longest run of doubled backticks and characters other than a backtick. -/
def quotedRun : List Char → List Char × List Char
  | [] => ([], [])
  | [c] => if c = backtick then ([], [c]) else ([c], [])
  | c :: d :: s =>
    if c = backtick then
      if d = backtick then (quotedRun s).map (c :: d :: ·) id else ([], c :: d :: s)
    else (quotedRun (d :: s)).map (c :: ·) id

def nameSpan : Rule (List Char)
  | c :: s =>
    if c = backtick then
      (token [backtick] (quotedRun s).2).map fun r => (c :: (quotedRun s).1 ++ [backtick], r)
    else plainName (c :: s)
  | [] => none

def halveBackticks : List Char → List Char
  | [] => []
  | [c] => [c]
  | c :: d :: s =>
    if c = backtick ∧ d = backtick then c :: halveBackticks s else c :: halveBackticks (d :: s)

/-- The name that a token stands for; a token without backticks at both ends is its own name. -/
def unquoteName : List Char → String
  | c :: s =>
    if c = backtick ∧ s.getLast? = some backtick then String.ofList (halveBackticks s.dropLast)
    else String.ofList (c :: s)
  | [] => ""

theorem resolveEscapes_cons {c : Char} (h : c ≠ '\\') (s : List Char) :
    resolveEscapes (c :: s) = c :: resolveEscapes s := by
  cases s <;> simp [resolveEscapes, h]

theorem stringBody_eq (s : List Char) :
    stringBody s =
      (token ['\''] (stringRun s).2).map fun r => (resolveEscapes (stringRun s).1, r) := by
  fun_induction stringRun s with
  | case1 => rfl
  | case2 s => simp [stringBody, token, resolveEscapes]
  | case3 c s ih => simp [stringBody, resolveEscapes, ih, Function.comp_def]
  | case4 c s hquote hpair ih =>
    rw [stringBody.eq_4 _ _ hquote hpair, ih]
    by_cases hback : c = '\\'
    · -- a backslash that nothing follows ends the text before any closing quote
      obtain rfl : s = [] := by
        cases s with
        | nil => rfl
        | cons d s => exact (hpair d s hback rfl).elim
      rfl
    · simp [resolveEscapes_cons hback, Function.comp_def]

theorem halveBackticks_cons {c : Char} (h : c ≠ backtick) (s : List Char) :
    halveBackticks (c :: s) = c :: halveBackticks s := by
  cases s <;> simp [halveBackticks, h]

theorem quotedBody_eq (s : List Char) :
    quotedBody s =
      (token [backtick] (quotedRun s).2).map fun r => (halveBackticks (quotedRun s).1, r) := by
  fun_induction quotedRun s with
  | case1 => rfl
  | case2 => simp [quotedBody, token, halveBackticks]
  | case3 c hc => simp [quotedBody, token, hc]
  | case4 s ih => simp [quotedBody, halveBackticks, ih, Function.comp_def]
  | case5 d s hd => simp [quotedBody, token, halveBackticks, hd]
  | case6 c d s hc ih => simp [quotedBody, halveBackticks_cons hc, hc, ih, Function.comp_def]

theorem name_eq (s : List Char) :
    name s = (nameSpan s).map fun (t, r) => (unquoteName t, r) := by
  cases s with
  | nil => rfl
  | cons c s =>
    by_cases hc : c = backtick
    · simp [name, nameSpan, unquoteName, quotedBody_eq, hc, Function.comp_def]
    · rw [name, nameSpan, if_neg hc, if_neg hc]
      cases h : plainName (c :: s) with
      | none => rfl
      | some read =>
        obtain ⟨t, r⟩ := read
        simp only [plainName] at h
        split at h
        · cases h
          simp [unquoteName, hc]
        · cases h

theorem stringRun_escaped (s rest : List Char) :
    stringRun (s.flatMap escapeChar ++ '\'' :: rest) = (s.flatMap escapeChar, '\'' :: rest) := by
  induction s with
  | nil => rfl
  | cons c s ih =>
    by_cases hback : c = '\\'
    · subst hback
      simp [escapeChar, stringRun, ih]
    · by_cases hquote : c = '\''
      · subst hquote
        simp [escapeChar, stringRun, ih]
      · simp only [List.flatMap_cons, escapeChar, if_neg hback, if_neg hquote, List.cons_append,
          List.nil_append]
        rw [stringRun.eq_4 _ _ hquote (fun _ _ h => absurd h hback), ih]
        rfl

theorem resolveEscapes_escaped (s : List Char) : resolveEscapes (s.flatMap escapeChar) = s := by
  induction s with
  | nil => rfl
  | cons c s ih =>
    by_cases hback : c = '\\'
    · subst hback
      simp [escapeChar, resolveEscapes, unescaped, ih]
    · by_cases hquote : c = '\''
      · subst hquote
        simp [escapeChar, resolveEscapes, unescaped, ih]
      · simp [escapeChar, hback, hquote, resolveEscapes_cons hback, ih]

theorem quotedRun_doubled (n : List Char) {rest : List Char} (h : ∀ c ∈ rest.head?, c ≠ backtick) :
    quotedRun (n.flatMap doubleBacktick ++ backtick :: rest) =
      (n.flatMap doubleBacktick, backtick :: rest) := by
  induction n with
  | nil =>
    cases rest with
    | nil => simp [quotedRun]
    | cons d rest => simp [quotedRun, h d rfl]
  | cons c n ih =>
    by_cases hc : c = backtick
    · subst hc
      simp [doubleBacktick, quotedRun, ih]
    · obtain ⟨d, s, hs⟩ : ∃ d s, n.flatMap doubleBacktick ++ backtick :: rest = d :: s :=
        List.exists_cons_of_ne_nil (by simp)
      simp only [List.flatMap_cons, doubleBacktick, if_neg hc, List.cons_append, List.nil_append]
      rw [hs] at ih ⊢
      simp [quotedRun, hc, ih]

theorem halveBackticks_doubled (n : List Char) : halveBackticks (n.flatMap doubleBacktick) = n := by
  induction n with
  | nil => rfl
  | cons c n ih =>
    by_cases hc : c = backtick
    · simp [doubleBacktick, halveBackticks, hc, ih]
    · simp [doubleBacktick, hc, halveBackticks_cons hc, ih]

theorem exists_cons_of_isPlainName {s : List Char} (h : isPlainName s = true) :
    ∃ c rest, s = c :: rest ∧ c ≠ backtick := by
  cases s with
  | nil => simp [isPlainName] at h
  | cons c rest =>
    refine ⟨c, rest, rfl, ?_⟩
    rintro rfl
    simp [isPlainName, startsName, isAsciiLetter, backtick] at h

theorem unquoteName_escapeName (n : String) : unquoteName (escapeName n).toList = n := by
  rw [toList_escapeName, nameChars]
  by_cases hn : isPlainName n.toList = true
  · rw [if_pos hn]
    obtain ⟨c, s, hs, hc⟩ := exists_cons_of_isPlainName hn
    rw [hs, unquoteName, if_neg fun h => hc h.1, ← hs, String.ofList_toList]
  · rw [if_neg hn]
    simp [unquoteName, halveBackticks_doubled]

theorem stringSpan_quote (s : String) (rest : List Char) :
    stringSpan ((quote .cypher s).toList ++ rest) = some ((quote .cypher s).toList, rest) := by
  simp [quoteChars, stringSpan, stringRun_escaped, token]

theorem unescapeString_quote (s : String) : unescapeString (quote .cypher s).toList = s := by
  simp [quoteChars, unescapeString, resolveEscapes_escaped]

end RecordGraph.Dialect
