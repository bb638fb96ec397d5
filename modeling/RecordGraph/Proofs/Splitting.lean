import Mathlib.Data.List.DropRight
import Mathlib.Tactic
import RecordGraph.Text.Split

/-!
Texts in pieces. Pieces without the separator come apart again as they were joined,
and so do trimmed ones when each piece is trimmed on its own; no other pieces do,
since a separator inside a piece makes one piece too many.
-/

namespace RecordGraph.Text

theorem splitChars_eq_splitOn (sep : Char) (s : List Char) :
    splitChars sep s = s.splitOn sep := by
  induction s with
  | nil => rfl
  | cons c rest ih =>
    rw [splitChars, List.splitOn_cons_eq_if_modifyHead, ih]
    have hne := List.splitOn_ne_nil sep rest
    by_cases h : c = sep
    · simp [h]
    · simp only [h, beq_iff_eq, if_false]
      cases hpieces : rest.splitOn sep with
      | nil => exact absurd hpieces hne
      | cons piece pieces => rfl

theorem length_splitChars (sep : Char) (s : List Char) :
    (splitChars sep s).length = s.count sep + 1 := by
  induction s with
  | nil => rfl
  | cons c rest ih =>
    unfold splitChars
    by_cases h : c = sep
    · simp [h, ih]
    · have hne := splitChars_ne_nil sep rest
      rw [if_neg h, List.count_cons_of_ne h, ← ih]
      cases hpieces : splitChars sep rest with
      | nil => exact absurd hpieces hne
      | cons piece pieces => rfl

theorem count_intercalate (sep : Char) {pieces : List (List Char)} (hne : pieces ≠ []) :
    ([sep].intercalate pieces).count sep + 1 =
      pieces.length + (pieces.map (List.count sep)).sum := by
  induction pieces with
  | nil => exact absurd rfl hne
  | cons piece rest ih =>
    cases rest with
    | nil => simp [Nat.add_comm]
    | cons next more =>
      have hrest := ih (List.cons_ne_nil _ _)
      rw [List.intercalate_cons_cons]
      simp only [List.count_append, List.count_singleton_self, List.length_cons, List.map_cons,
        List.sum_cons] at hrest ⊢
      omega

theorem splitChars_intercalate {sep : Char} {pieces : List (List Char)}
    (h : ∀ p ∈ pieces, sep ∉ p) (hne : pieces ≠ []) :
    splitChars sep ([sep].intercalate pieces) = pieces := by
  rw [splitChars_eq_splitOn, List.splitOn_intercalate sep h hne]

theorem not_mem_of_mem_splitChars {sep : Char} {s piece : List Char}
    (h : piece ∈ splitChars sep s) : sep ∉ piece := by
  have hcount := count_intercalate sep (splitChars_ne_nil sep s)
  rw [intercalate_splitChars, length_splitChars, left_eq_add, List.sum_eq_zero_iff] at hcount
  exact List.count_eq_zero.1 (hcount _ (List.mem_map_of_mem h))

/-! Trimming -/

theorem trimStart_eq_self_iff (s : List Char) :
    trimStart s = s ↔ ∀ c ∈ s.head?, isBlank c = false := by
  rw [trimStart, List.dropWhile_eq_self_iff]
  cases s <;> simp

theorem trimEnd_eq_self_iff (s : List Char) :
    trimEnd s = s ↔ ∀ c ∈ s.getLast?, isBlank c = false := by
  change s.rdropWhile isBlank = s ↔ _
  rw [List.rdropWhile_eq_self_iff]
  refine ⟨fun h c hc => ?_, fun h hne => ?_⟩
  · obtain ⟨hne, rfl⟩ := List.mem_getLast?_eq_getLast hc
    simpa using h hne
  · simpa using h _ (List.getLast_mem_getLast? hne)

theorem length_trimStart_le (s : List Char) : (trimStart s).length ≤ s.length :=
  List.length_dropWhile_le isBlank s

theorem length_trimEnd_le (s : List Char) : (trimEnd s).length ≤ s.length :=
  (List.rdropWhile_prefix isBlank (l := s)).length_le

theorem trimChars_eq_self_iff (s : List Char) :
    trimChars s = s ↔ (∀ c ∈ s.head?, isBlank c = false) ∧ ∀ c ∈ s.getLast?, isBlank c = false := by
  rw [← trimStart_eq_self_iff, ← trimEnd_eq_self_iff]
  constructor
  · intro h
    have hlength := congrArg List.length h
    have hstart : trimStart s = s := by
      refine (List.dropWhile_suffix isBlank).eq_of_length ?_
      have hle := length_trimStart_le s
      have hle' := length_trimEnd_le (trimStart s)
      rw [trimChars] at hlength
      exact Nat.le_antisymm hle (hlength ▸ hle')
    rw [trimChars, hstart] at h
    exact ⟨hstart, h⟩
  · rintro ⟨hstart, hend⟩
    rw [trimChars, hstart, hend]

theorem head?_trimChars (s : List Char) : ∀ c ∈ (trimChars s).head?, isBlank c = false := by
  intro c hc
  obtain ⟨rest, hrest⟩ := List.rdropWhile_prefix isBlank (l := trimStart s)
  have hstart := (trimStart_eq_self_iff (trimStart s)).1 (List.dropWhile_idempotent isBlank s)
  refine hstart c ?_
  rw [← hrest, List.head?_append, Option.mem_def]
  simp [show (List.rdropWhile isBlank (trimStart s)).head? = some c from hc]

theorem getLast?_trimChars (s : List Char) : ∀ c ∈ (trimChars s).getLast?, isBlank c = false :=
  (trimEnd_eq_self_iff _).1 (List.rdropWhile_idempotent isBlank (trimStart s))

theorem mem_trimChars {c : Char} {s : List Char} (h : c ∈ trimChars s) : c ∈ s :=
  (List.dropWhile_suffix isBlank).subset
    ((List.rdropWhile_prefix isBlank (trimStart s)).subset h)

@[simp] theorem trimChars_trimChars (s : List Char) : trimChars (trimChars s) = trimChars s :=
  (trimChars_eq_self_iff _).2 ⟨head?_trimChars s, getLast?_trimChars s⟩

@[simp] theorem trim_trim (s : String) : trim (trim s) = trim s := by
  rw [← String.toList_inj]
  simp

theorem trim_eq_self_iff (s : String) :
    trim s = s ↔ (∀ c ∈ s.toList.head?, isBlank c = false) ∧
      ∀ c ∈ s.toList.getLast?, isBlank c = false := by
  rw [← String.toList_inj, toList_trim, trimChars_eq_self_iff]

theorem isBlankText_of_mem {s : String} {c : Char} (h : c ∈ s.toList) (hc : isBlank c = false) :
    isBlankText s = false := by
  rw [isBlankText, List.all_eq_false]
  exact ⟨c, h, by simp [hc]⟩

/-! Joined texts -/

variable {sep : Char} {texts : List String}

theorem split_intercalate (h : ∀ t ∈ texts, sep ∉ t.toList) (hne : texts ≠ []) :
    split sep ((String.singleton sep).intercalate texts) = texts := by
  have hpieces : ∀ p ∈ texts.map String.toList, sep ∉ p := by simpa using h
  rw [split, String.toList_intercalate, String.toList_singleton,
    splitChars_intercalate hpieces (by simpa using hne)]
  simp [Function.comp_def]

theorem not_mem_of_mem_split {s t : String} (h : t ∈ split sep s) : sep ∉ t.toList := by
  obtain ⟨piece, hpiece, rfl⟩ := List.mem_map.1 h
  simpa using not_mem_of_mem_splitChars hpiece

theorem length_split (s : String) : (split sep s).length = s.toList.count sep + 1 := by
  rw [split, List.length_map, length_splitChars]

/-- Joined texts come apart again, each trimmed, exactly when none holds the separator and each
is trimmed already. -/
theorem map_trim_split_intercalate_iff (hne : texts ≠ []) :
    (split sep ((String.singleton sep).intercalate texts)).map trim = texts ↔
      ∀ t ∈ texts, sep ∉ t.toList ∧ trim t = t := by
  have hself : texts.map trim = texts ↔ ∀ t ∈ texts, trim t = t := by
    simpa using List.map_inj_left (l := texts) (f := trim) (g := id)
  constructor
  · intro h
    have hpieces : texts.map String.toList ≠ [] := by simpa using hne
    have hcount := count_intercalate sep hpieces
    have hlength := congrArg List.length h
    rw [List.length_map, length_split, String.toList_intercalate, String.toList_singleton, hcount,
      List.length_map] at hlength
    -- There are as many pieces as texts, so no separator stands inside a text.
    have hnone : ∀ t ∈ texts, sep ∉ t.toList := by
      simpa [List.sum_eq_zero_iff, List.count_eq_zero] using Nat.add_eq_left.1 hlength
    rw [split_intercalate hnone hne, hself] at h
    exact fun t ht => ⟨hnone t ht, h t ht⟩
  · intro h
    rw [split_intercalate (fun t ht => (h t ht).1) hne, hself]
    exact fun t ht => (h t ht).2

end RecordGraph.Text
