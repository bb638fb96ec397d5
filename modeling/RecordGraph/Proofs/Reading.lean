import RecordGraph.Dialect.Parser
import RecordGraph.Proofs.Decimals
import RecordGraph.Proofs.Scanning

/-!
Reading of written values. A rule reads a text as a value when, whatever follows
that ends a token, it returns the value and leaves what follows. Gaps of blanks
between tokens may be of any length, so each production is stated for all of them.
-/

namespace RecordGraph.Dialect

open RecordGraph.Statement RecordGraph.Number

/-- Blanks between two tokens. -/
structure Gap where
  chars : List Char
  blank : chars.all isSpace = true

namespace Gap

def none : Gap := ⟨[], rfl⟩
def space : Gap := ⟨[' '], rfl⟩

@[simp] theorem chars_none : none.chars = [] := rfl
@[simp] theorem chars_space : space.chars = [' '] := rfl

@[simp] theorem skip_append (g : Gap) (s : List Char) : skip (g.chars ++ s) = skip s :=
  Dialect.skip_append g.blank s

theorem ends_append (g : Gap) {rest : List Char} (h : Ends rest) : Ends (g.chars ++ rest) := by
  obtain ⟨chars, blank⟩ := g
  cases chars with
  | nil => exact h
  | cons c chars =>
    simp only [List.all_cons, Bool.and_eq_true] at blank
    simpa using endsToken_of_isSpace blank.1

end Gap

/-- The rule reads `text` as `x`, and `text` begins with no blank. -/
structure Reads {α : Type} (rule : Rule α) (text : List Char) (x : α) : Prop where
  starts : ∀ rest, skip (text ++ rest) = text ++ rest
  reads : ∀ rest, Ends rest → rule (text ++ rest) = some (x, rest)

theorem Reads.ne_nil {α : Type} {rule : Rule α} {text : List Char} {x : α}
    (h : Reads rule text x) : text ≠ [] := by
  rintro rfl
  simpa [skip, isSpace] using h.starts [' ']

/-- Items with commas between them, and a gap after the last. -/
inductive Separated {α : Type} (Item : List Char → α → Prop) : List Char → List α → Prop
  | last {t x} (g : Gap) (h : Item t x) : Separated Item (t ++ g.chars) [x]
  | cons {t x s xs} (g g' : Gap) (h : Item t x) (more : Separated Item s xs) :
      Separated Item (t ++ (g.chars ++ ',' :: (g'.chars ++ s))) (x :: xs)

namespace Separated

variable {α : Type} {item : Rule α} {s : List Char} {xs : List α}

theorem starts (h : Separated (Reads item) s xs) (rest : List Char) :
    skip (s ++ rest) = s ++ rest := by
  cases h with
  | last g h => rw [List.append_assoc, h.starts]
  | cons g g' h more => rw [List.append_assoc, h.starts]

theorem length_le (h : Separated (Reads item) s xs) : xs.length ≤ s.length := by
  induction h with
  | last g h =>
    have := List.length_pos_iff.2 h.ne_nil
    simp only [List.length_append, List.length_singleton]
    omega
  | cons g g' h more ih =>
    simp only [List.length_append, List.length_cons]
    omega

theorem items_append (h : Separated (Reads item) s xs) {close : Char} (hcomma : ',' ≠ close)
    (hspace : isSpace close = false) (hends : endsToken close = true) (rest : List Char)
    (fuel : Nat) (hfuel : xs.length ≤ fuel) :
    ∃ g : Gap, items item fuel (s ++ close :: rest) = some (xs, g.chars ++ close :: rest) := by
  induction h generalizing fuel with
  | last g h =>
    obtain ⟨fuel, rfl⟩ := Nat.exists_eq_add_of_lt (show 0 < fuel from hfuel)
    refine ⟨g, ?_⟩
    have hread := h.reads (g.chars ++ close :: rest) (g.ends_append (by simpa using hends))
    simp only [Nat.zero_add, items, List.append_assoc, hread, Option.map_some, Gap.skip_append,
      skip_cons hspace, token_ne hcomma]
  | @cons t x s xs g g' h more ih =>
    obtain ⟨fuel, rfl⟩ := Nat.exists_eq_add_of_lt (show 0 < fuel from by simp at hfuel; omega)
    obtain ⟨g'', hmore⟩ := ih fuel (by simp at hfuel; omega)
    refine ⟨g'', ?_⟩
    have hread := h.reads (g.chars ++ ',' :: (g'.chars ++ (s ++ close :: rest)))
      (g.ends_append (by simp; decide))
    simp only [Nat.zero_add, items, List.append_assoc, List.cons_append, hread, Option.map_some,
      Gap.skip_append, skip_cons (show isSpace ',' = false by decide), token, if_true,
      starts more, hmore]

/-- Items between an opening mark that has been read and their closing mark. -/
theorem enclosed_append (h : Separated (Reads item) s xs) (g : Gap) {close : Char}
    (hcomma : ',' ≠ close) (hspace : isSpace close = false) (hends : endsToken close = true)
    (rest : List Char) :
    enclosed item close (g.chars ++ (s ++ close :: rest)) = some (xs, rest) := by
  have hlen := h.length_le
  obtain ⟨g', hitems⟩ := h.items_append hcomma hspace hends rest
    ((s ++ close :: rest).length + 1) (by simp; omega)
  simp only [enclosed, Gap.skip_append, h.starts, hitems, Option.getD_some, skip_cons hspace,
    token, if_true, Option.map_some]

theorem of_intercalate {Item : List Char → α → Prop} {texts : List String}
    (h : List.Forall₂ (fun t x => Item t.toList x) texts xs) (hne : texts ≠ []) :
    Separated Item (",".intercalate texts).toList xs := by
  induction h with
  | nil => exact absurd rfl hne
  | @cons t x texts xs h more ih =>
    cases more with
    | nil => simpa using Separated.last Gap.none h
    | cons h' more' =>
      have hmore := ih (List.cons_ne_nil _ _)
      rw [String.intercalate_cons_of_ne_nil (List.cons_ne_nil _ _)]
      simpa using Separated.cons Gap.none Gap.none h hmore

end Separated

theorem enclosed_nil {α : Type} {item : Rule α} (g : Gap) {close : Char} (rest : List Char)
    (hspace : isSpace close = false) (hitem : item (close :: rest) = none) :
    enclosed item close (g.chars ++ close :: rest) = some ([], rest) := by
  simp [enclosed, skip_cons hspace, items, hitem, token]

theorem Gap.ends (g : Gap) {c : Char} (h : endsToken c = true) (rest : List Char) :
    Ends (g.chars ++ c :: rest) :=
  g.ends_append (by simpa using h)

def signChars (negative : Bool) : List Char :=
  if negative then ['-'] else []

theorem signedDigits_append (negative : Bool) {digits rest : List Char} (hne : digits ≠ [])
    (hdigits : ∀ c ∈ digits, c.isDigit = true) (hend : ∀ c ∈ rest.head?, c.isDigit = false) :
    signedDigits (signChars negative ++ (digits ++ rest)) = some ((negative, digits), rest) := by
  have htake : (digits ++ rest).takeWhile isAsciiDigit = digits :=
    takeWhile_append_of_end hdigits hend
  have hdrop : (digits ++ rest).dropWhile isAsciiDigit = rest :=
    dropWhile_append_of_end hdigits hend
  have hempty : digits.isEmpty = false := by simpa using hne
  cases negative with
  | true => simp [signChars, signedDigits, htake, hdrop, hempty]
  | false =>
    obtain ⟨d, ds, rfl⟩ := List.exists_cons_of_ne_nil hne
    have hd : d ≠ '-' := by
      rintro rfl
      exact absurd (hdigits '-' (by simp)) (by decide)
    simp only [List.cons_append] at htake hdrop
    simp [signChars, signedDigits, hd, htake, hdrop]

theorem fraction_of_ends {rest : List Char} (h : Ends rest) : fraction rest = none := by
  cases rest with
  | nil => rfl
  | cons c rest =>
    have hc := ((endsToken_iff c).1 ((ends_cons c rest).1 h)).2.2
    simp [fraction, hc]

theorem exponent_of_ends {rest : List Char} (h : Ends rest) : exponent rest = none := by
  cases rest with
  | nil => rfl
  | cons c rest =>
    have hc := ((endsToken_iff c).1 ((ends_cons c rest).1 h)).1
    have he : (c == 'e' || c == 'E') = false := by
      by_contra hce
      simp only [Bool.not_eq_false, Bool.or_eq_true, beq_iff_eq] at hce
      rcases hce with rfl | rfl <;> exact absurd hc (by decide)
    simp [exponent, he]

theorem no_digit_of_ends {rest : List Char} (h : Ends rest) :
    ∀ c ∈ rest.head?, c.isDigit = false :=
  fun c hc => isDigit_eq_false_of_endsToken (h c hc)

theorem number_integer (negative : Bool) {digits rest : List Char} (hne : digits ≠ [])
    (hdigits : ∀ c ∈ digits, c.isDigit = true) (h : Ends rest) :
    number (signChars negative ++ (digits ++ rest)) =
      some (integerValue negative digits, rest) := by
  simp only [number, signedDigits_append negative hne hdigits (no_digit_of_ends h),
    Option.map_some, fraction_of_ends h, exponent_of_ends h]

theorem number_float (negative : Bool) {whole places rest : List Char} (hwhole : whole ≠ [])
    (hplaces : places ≠ []) (hdigits : ∀ c ∈ whole ++ places, c.isDigit = true) (h : Ends rest) :
    number (signChars negative ++ (whole ++ '.' :: (places ++ rest))) =
      some (.ok (floatValue negative whole places 0), rest) := by
  have hleft : ∀ c ∈ whole, c.isDigit = true := fun c hc => hdigits c (by simp [hc])
  have hright : ∀ c ∈ places, c.isDigit = true := fun c hc => hdigits c (by simp [hc])
  have hsigned : signedDigits (signChars negative ++ (whole ++ '.' :: (places ++ rest))) =
      some ((negative, whole), '.' :: (places ++ rest)) :=
    signedDigits_append negative hwhole hleft (by simp)
  have htake : (places ++ rest).takeWhile isAsciiDigit = places :=
    takeWhile_append_of_end hright (no_digit_of_ends h)
  have hdrop : (places ++ rest).dropWhile isAsciiDigit = rest :=
    dropWhile_append_of_end hright (no_digit_of_ends h)
  have hempty : places.isEmpty = false := by simpa using hplaces
  simp only [number, hsigned, Option.map_some, fraction, htake, hdrop, hempty, Bool.false_eq_true,
    if_false, exponent_of_ends h]

/-- The text is read as the value wherever lists may nest as deep as it is long. -/
def ReadsValue (text : List Char) (v : PropertyValue) : Prop :=
  ∀ depth, text.length < depth → Reads (value depth) text (.ok v)

theorem ReadsValue.anyValue {text : List Char} {v : PropertyValue} (h : ReadsValue text v) :
    Reads anyValue text (.ok v) where
  starts := (h (text.length + 1) (Nat.lt_succ_self _)).starts
  reads rest hrest :=
    (h ((text ++ rest).length + 1) (by rw [List.length_append]; omega)).reads rest hrest

theorem value_bare {c : Char} (hquote : c ≠ '\'') (hopen : c ≠ '[') (depth : Nat) (s : List Char) :
    value (depth + 1) (c :: s) =
      match word "null".toList (c :: s) with
      | some r => some (.ok .null, r)
      | none =>
        match word "true".toList (c :: s) with
        | some r => some (.ok (.boolean true), r)
        | none =>
          match word "false".toList (c :: s) with
          | some r => some (.ok (.boolean false), r)
          | none => number (c :: s) := by
  rewrite [value]
  · rfl
  · simpa using hquote
  · simpa using hopen

theorem of_isAsciiLetter_lowerAscii {c : Char} (h : isAsciiLetter (lowerAscii c) = true) :
    c ≠ '\'' ∧ c ≠ '[' ∧ isSpace c = false := by
  refine ⟨?_, ?_, ?_⟩
  · rintro rfl
    exact absurd h (by decide)
  · rintro rfl
    exact absurd h (by decide)
  · by_contra hspace
    simp only [Bool.not_eq_false, isSpace, Bool.or_eq_true, beq_iff_eq] at hspace
    rcases hspace with ((rfl | rfl) | rfl) | rfl <;> exact absurd h (by decide)

theorem readsValue_word {text : List Char} {v : PropertyValue}
    (h : (text.map lowerAscii, v) ∈ [("null".toList, PropertyValue.null),
      ("true".toList, .boolean true), ("false".toList, .boolean false)]) :
    ReadsValue text v := by
  intro depth hdepth
  obtain ⟨depth, rfl⟩ := Nat.exists_eq_add_of_lt hdepth
  cases text with
  | nil => simp at h
  | cons c t =>
    simp only [List.map_cons, List.mem_cons, Prod.mk.injEq, List.not_mem_nil, or_false] at h
    have hletter : isAsciiLetter (lowerAscii c) = true := by
      rcases h with ⟨h, -⟩ | ⟨h, -⟩ | ⟨h, -⟩ <;> rw [(List.cons.inj h).1] <;> decide
    obtain ⟨hquote, hopen, hspace⟩ := of_isAsciiLetter_lowerAscii hletter
    refine ⟨fun rest => skip_cons hspace _, fun rest hrest => ?_⟩
    have hword := word_append (c :: t) hrest
    rw [List.map_cons, List.cons_append] at hword
    rw [List.cons_append, value_bare hquote hopen]
    have hother : ∀ l ls, l ≠ lowerAscii c → word (l :: ls) (c :: (t ++ rest)) = none :=
      fun l ls hl => word_ne hl ls _
    rcases h with ⟨h, rfl⟩ | ⟨h, rfl⟩ | ⟨h, rfl⟩ <;> rw [h] at hword
    · rw [hword]
    · have hc : lowerAscii c = 't' := (List.cons.inj h).1
      have hnull : word "null".toList (c :: (t ++ rest)) = none :=
        hother _ _ (by rw [hc]; decide)
      rw [hnull, hword]
    · have hc : lowerAscii c = 'f' := (List.cons.inj h).1
      have hnull : word "null".toList (c :: (t ++ rest)) = none :=
        hother _ _ (by rw [hc]; decide)
      have htrue : word "true".toList (c :: (t ++ rest)) = none :=
        hother _ _ (by rw [hc]; decide)
      rw [hnull, htrue, hword]

theorem readsValue_string (s : String) :
    ReadsValue (quote .cypher s).toList (.string s) := by
  intro depth hdepth
  obtain ⟨depth, rfl⟩ := Nat.exists_eq_add_of_lt hdepth
  refine ⟨fun rest => by simp [quoteChars, skip_cons (by decide : isSpace '\'' = false)], ?_⟩
  intro rest hrest
  simp [quoteChars, value, stringBody_append]

theorem toNat_of_isDigit {c : Char} (h : c.isDigit = true) : 48 ≤ c.toNat ∧ c.toNat ≤ 57 := by
  simpa [Char.isDigit, UInt32.le_iff_toNat_le] using h

theorem readsValue_number {v : PropertyValue} {c : Char} {t : List Char}
    (hc : c = '-' ∨ c.isDigit = true)
    (h : ∀ rest, Ends rest → number (c :: (t ++ rest)) = some (.ok v, rest)) :
    ReadsValue (c :: t) v := by
  intro depth hdepth
  obtain ⟨depth, rfl⟩ := Nat.exists_eq_add_of_lt hdepth
  have hnat : c.toNat = 45 ∨ 48 ≤ c.toNat ∧ c.toNat ≤ 57 :=
    hc.imp (fun h => by rw [h]; rfl) toNat_of_isDigit
  have hne : ∀ d : Char, d.toNat < 45 ∨ 57 < d.toNat → c ≠ d := by
    rintro d hd rfl
    omega
  have hlower : lowerAscii c = c := by
    have hA : ¬ 'A' ≤ c := by
      rw [Char.le_def, UInt32.le_iff_toNat_le]
      change ¬ 65 ≤ c.toNat
      omega
    simp [lowerAscii, hA]
  have hspace : isSpace c = false := by
    simp [isSpace, hne ' ' (by decide), hne '\t' (by decide), hne '\r' (by decide),
      hne '\n' (by decide)]
  have hword : ∀ l ls, 57 < l.toNat → ∀ s, word (l :: ls) (c :: s) = none := fun l ls hl s =>
    word_ne (by rw [hlower]; exact (hne l (.inr hl)).symm) ls s
  refine ⟨fun rest => skip_cons hspace _, fun rest hrest => ?_⟩
  rw [List.cons_append, value_bare (hne _ (by decide)) (hne _ (by decide))]
  have hnull : word "null".toList (c :: (t ++ rest)) = none := hword _ _ (by decide) _
  have htrue : word "true".toList (c :: (t ++ rest)) = none := hword _ _ (by decide) _
  have hfalse : word "false".toList (c :: (t ++ rest)) = none := hword _ _ (by decide) _
  rw [hnull, htrue, hfalse, h rest hrest]

theorem signChars_append_cons (negative : Bool) {digits : List Char} (hne : digits ≠ [])
    (hdigits : ∀ c ∈ digits, c.isDigit = true) :
    ∃ c t, (c = '-' ∨ c.isDigit = true) ∧ signChars negative ++ digits = c :: t := by
  cases negative with
  | true => exact ⟨'-', digits, .inl rfl, rfl⟩
  | false =>
    obtain ⟨d, ds, rfl⟩ := List.exists_cons_of_ne_nil hne
    exact ⟨d, ds, .inr (hdigits d List.mem_cons_self), rfl⟩

theorem intDigits_eq (i : Int) : intDigits i = signChars (decide (i < 0)) ++ digitsOf i.natAbs := by
  by_cases h : i < 0 <;> simp [intDigits, signChars, h]

theorem integerValue_digitsOf (i : Int64) :
    integerValue (decide (i.toInt < 0)) (digitsOf i.toInt.natAbs) = .ok (.integer i) := by
  have hvalue : (if decide (i.toInt < 0) = true then -(i.toInt.natAbs : Int)
      else i.toInt.natAbs) = i.toInt := by
    split <;> rename_i h <;> simp only [decide_eq_true_eq] at h <;> omega
  simp only [integerValue, valueOf_digitsOf, hvalue, Int64.minValue_le_toInt, i.toInt_le,
    Int64.ofInt_toInt]
  simp

theorem readsValue_integer (i : Int64) :
    ReadsValue (intText i.toInt).toList (.integer i) := by
  rw [toList_intText, intDigits_eq]
  obtain ⟨c, t, hc, htext⟩ := signChars_append_cons (decide (i.toInt < 0))
    (digitsOf_ne_nil i.toInt.natAbs) (fun c => isDigit_digitsOf)
  rw [htext]
  refine readsValue_number hc fun rest hrest => ?_
  rw [← List.cons_append, ← htext, List.append_assoc,
    number_integer _ (digitsOf_ne_nil _) (fun c => isDigit_digitsOf) hrest,
    integerValue_digitsOf]

theorem readsValue_float (negative : Bool) {whole places : List Char} (hwhole : whole ≠ [])
    (hplaces : places ≠ []) (hdigits : ∀ c ∈ whole ++ places, c.isDigit = true) :
    ReadsValue (signChars negative ++ (whole ++ '.' :: places))
      (floatValue negative whole places 0) := by
  obtain ⟨c, t, hc, htext⟩ := signChars_append_cons negative hwhole
    (fun c h => hdigits c (List.mem_append_left _ h))
  rw [← List.append_assoc, htext, List.cons_append]
  refine readsValue_number hc fun rest hrest => ?_
  rw [List.append_assoc, ← List.cons_append, ← htext, List.append_assoc, List.cons_append,
    number_float negative hwhole hplaces hdigits hrest]

namespace Separated

variable {α β : Type} {Item : List Char → α → Prop} {Item' : List Char → β → Prop}

/-- Items may be read otherwise as long as each is no longer than the whole. -/
theorem map (f : α → β) {s : List Char} {xs : List α} (h : Separated Item s xs) {bound : Nat}
    (hbound : s.length ≤ bound)
    (himp : ∀ t x, t.length ≤ bound → Item t x → Item' t (f x)) :
    Separated Item' s (xs.map f) := by
  induction h with
  | last g h =>
    simp only [List.length_append] at hbound
    exact .last g (himp _ _ (by omega) h)
  | cons g g' h more ih =>
    simp only [List.length_append, List.length_cons] at hbound
    exact .cons g g' (himp _ _ (by omega) h) (ih (by omega))

end Separated

@[simp] theorem checkAll_map_ok {α : Type} (xs : List α) :
    checkAll (xs.map .ok) = .ok xs := by
  induction xs with
  | nil => rfl
  | cons x xs ih => simp [checkAll, ih, bind, Except.bind, pure, Except.pure]

theorem value_closing (depth : Nat) (rest : List Char) : value depth (']' :: rest) = none := by
  cases depth with
  | zero => rfl
  | succ depth =>
    rw [value_bare (by decide) (by decide)]
    rfl

theorem readsValue_list {body : List Char} {vs : List PropertyValue}
    (h : Separated ReadsValue body vs) (g : Gap) :
    ReadsValue ('[' :: (g.chars ++ (body ++ [']']))) (.list vs) := by
  intro depth hdepth
  simp only [List.length_cons, List.length_append, List.length_nil] at hdepth
  cases depth with
  | zero => omega
  | succ depth =>
    have hitems : Separated (Reads (value depth)) body (vs.map .ok) :=
      h.map Except.ok (le_refl _) fun t v ht hv => hv depth (by omega)
    refine ⟨fun rest => skip_cons (by decide) _, fun rest _ => ?_⟩
    have hread : enclosed (value depth) ']' (g.chars ++ (body ++ ']' :: rest)) = _ :=
      hitems.enclosed_append g (by decide) (by decide) (by decide) rest
    simp only [List.cons_append, List.append_assoc, List.nil_append, value, hread,
      Option.map_some, checkAll_map_ok]
    rfl

theorem readsValue_list_nil (g : Gap) : ReadsValue ('[' :: (g.chars ++ [']'])) (.list []) := by
  intro depth hdepth
  cases depth with
  | zero => omega
  | succ depth =>
    refine ⟨fun rest => skip_cons (by decide) _, fun rest _ => ?_⟩
    have hread := enclosed_nil g rest (by decide) (value_closing depth rest)
    simp only [List.cons_append, List.append_assoc, List.nil_append, value, hread,
      Option.map_some]
    rfl

end RecordGraph.Dialect
