import RecordGraph.Dialect.Parser
import RecordGraph.Proofs.Patterns

/-!
Quoted text delimits itself. A string literal ends at its own closing quote, whatever follows,
and a written name ends before anything that is no part of a name; what they are resolved to
is the text that was written. So neither a value nor a name can reach beyond its literal.
-/

namespace RecordGraph.Dialect

open RecordGraph.Statement

theorem anyValue_quote (s : List Char) :
    anyValue ('\'' :: s) =
      (stringSpan ('\'' :: s)).map fun (t, r) => (.ok (.string (unescapeString t)), r) := by
  simp [anyValue, value, stringSpan, unescapeString, stringBody_eq, Function.comp_def]

theorem quote_append_inj {s s' : String} {rest rest' : List Char}
    (h : (quote .cypher s).toList ++ rest = (quote .cypher s').toList ++ rest') :
    s = s' ∧ rest = rest' := by
  have hread := stringSpan_quote s rest
  rw [h, stringSpan_quote s' rest'] at hread
  simp only [Option.some.injEq, Prod.mk.injEq] at hread
  refine ⟨?_, hread.2.symm⟩
  rw [← unescapeString_quote s, ← hread.1, unescapeString_quote s']

theorem escapeName_append_inj {n n' : String} {rest rest' : List Char} (hrest : EndsName rest)
    (hrest' : EndsName rest')
    (h : (escapeName n).toList ++ rest = (escapeName n').toList ++ rest') :
    n = n' ∧ rest = rest' := by
  have hread := name_append n hrest
  rw [h, name_append n' hrest'] at hread
  simpa [eq_comm] using hread

/-- A quoted string is delimited and read back before any text, a written name before any text
that does not go on with a backtick or a character of plain names; so different strings are
quoted differently and different names are written differently. -/
theorem quoted_text_delimits_itself :
    (∀ (s : String) (rest : List Char),
      stringSpan ((quote .cypher s).toList ++ rest) = some ((quote .cypher s).toList, rest) ∧
      unescapeString (quote .cypher s).toList = s ∧
      anyValue ((quote .cypher s).toList ++ rest) = some (.ok (.string s), rest)) ∧
    (∀ (n : String) (rest : List Char), EndsName rest →
      nameSpan ((escapeName n).toList ++ rest) = some ((escapeName n).toList, rest) ∧
      unquoteName (escapeName n).toList = n ∧
      name ((escapeName n).toList ++ rest) = some (n, rest) ∧
      label (':' :: ((escapeName n).toList ++ rest)) = some (n, rest)) ∧
    Function.Injective (quote .cypher) ∧ Function.Injective escapeName := by
  refine ⟨fun s rest => ⟨stringSpan_quote s rest, unescapeString_quote s, ?_⟩,
    fun n rest hrest => ⟨nameSpan_escapeName n hrest, unquoteName_escapeName n,
      name_append n hrest, ?_⟩, fun s s' h => ?_, fun n n' h => ?_⟩
  · have htoken := stringSpan_quote s rest
    obtain ⟨body, hbody⟩ : ∃ body, (quote .cypher s).toList = '\'' :: body :=
      ⟨_, toList_quote _ _⟩
    rw [hbody, List.cons_append] at htoken ⊢
    simp only [anyValue_quote, htoken, Option.map_some, ← hbody, unescapeString_quote]
  · simp only [label, token_self, Option.bind_eq_bind, Option.bind_some, (reads_name n).starts,
      name_append n hrest]
  · exact (quote_append_inj (congrArg (fun t : String => t.toList ++ []) h)).1
  · exact (escapeName_append_inj ends_nil.name ends_nil.name
      (congrArg (fun t : String => t.toList ++ []) h)).1

namespace Sample

def closingName : String := "a``) RETURN b`"

def closingText : String := "x\\'\x7d) RETURN b\\\\\\"

end Sample

theorem quoted_text_delimits_itself_closing :
    EndsName ":'x'".toList ∧
    name ((escapeName Sample.closingName).toList ++ ":'x'".toList) =
      some (Sample.closingName, ":'x'".toList) ∧
    anyValue ((quote .cypher Sample.closingText).toList ++ "'\x7d".toList) =
      some (.ok (.string Sample.closingText), "'\x7d".toList) := by
  have hend : EndsName ":'x'".toList := by
    rintro c ⟨⟩
    exact ⟨by decide, by decide⟩
  obtain ⟨hquote, hname, -⟩ := quoted_text_delimits_itself
  exact ⟨hend, (hname _ _ hend).2.2.1, (hquote _ _).2.2⟩

end RecordGraph.Dialect
