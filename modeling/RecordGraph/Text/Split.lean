import RecordGraph.Text.Blank

/-!
Lists written in one text. A text splits at every separator, so there is one
piece more than there are separators and joining the pieces gives the text back.
-/

namespace RecordGraph.Text

/-- The pieces between occurrences of `sep`; an empty text is one empty piece. -/
def splitChars (sep : Char) : List Char → List (List Char)
  | [] => [[]]
  | c :: rest =>
    if c = sep then [] :: splitChars sep rest
    else
      match splitChars sep rest with
      | piece :: pieces => (c :: piece) :: pieces
      | [] => [[c]]

def split (sep : Char) (s : String) : List String :=
  (splitChars sep s.toList).map String.ofList

theorem splitChars_ne_nil (sep : Char) (s : List Char) : splitChars sep s ≠ [] := by
  cases s with
  | nil => simp [splitChars]
  | cons c rest =>
    unfold splitChars
    split
    · simp
    · split <;> simp

theorem intercalate_splitChars (sep : Char) (s : List Char) :
    [sep].intercalate (splitChars sep s) = s := by
  induction s with
  | nil => rfl
  | cons c rest ih =>
    unfold splitChars
    have hne := splitChars_ne_nil sep rest
    generalize splitChars sep rest = pieces at ih hne
    cases pieces with
    | nil => exact absurd rfl hne
    | cons piece pieces =>
      by_cases h : c = sep
      · subst h
        simp only [if_true]
        rw [← ih]
        simp [List.intercalate, List.intersperse]
      · simp only [h, if_false]
        rw [← ih]
        cases pieces <;> simp [List.intercalate, List.intersperse]

end RecordGraph.Text
