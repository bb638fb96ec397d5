import Mathlib.Data.List.TakeWhile
import RecordGraph.Json.Reader
import RecordGraph.Json.Writer
import RecordGraph.Proofs.Decimals

/-!
Tokens of written JSON. A numeral is scanned the same before any text that does not go on with
it, and a whole number of 64 bits is scanned as itself. A written string ends at its own closing
quote, whatever follows, and its units are the characters that were written.
-/

namespace RecordGraph

open Number

namespace Numeral

/-- The text is over or goes on with a character that no numeral goes on with. -/
def Ends (rest : List Char) : Prop :=
  ∀ c ∈ rest.head?, c.isDigit = false ∧ c ≠ '.' ∧ c ≠ 'e' ∧ c ≠ 'E'

variable {s rest : List Char}

theorem digitRun_append (s : List Char) (h : ∀ c ∈ rest.head?, c.isDigit = false) :
    digitRun (s ++ rest) = ((digitRun s).1, (digitRun s).2 ++ rest) := by
  induction s with
  | nil =>
    cases rest with
    | nil => rfl
    | cons c rest => simp [digitRun, h c rfl]
  | cons c s ih =>
    simp only [digitRun, Prod.mk.injEq] at ih
    by_cases hc : c.isDigit = true <;> simp [digitRun, hc, ih]

theorem Ends.digit (h : Ends rest) : ∀ c ∈ rest.head?, c.isDigit = false := fun c hc => (h c hc).1

theorem scanFraction_of_ne {c : Char} (h : c ≠ '.') (s : List Char) :
    scanFraction (c :: s) = some (none, c :: s) := by
  simp [scanFraction, h]

theorem scanFraction_append {f : Option (List Char)} {r : List Char}
    (h : scanFraction s = some (f, r)) (hrest : Ends rest) :
    scanFraction (s ++ rest) = some (f, r ++ rest) := by
  cases s with
  | nil =>
    cases h
    cases rest with
    | nil => rfl
    | cons c rest => exact scanFraction_of_ne (hrest c rfl).2.1 rest
  | cons c s =>
    by_cases hc : c = '.'
    · subst hc
      simp only [scanFraction, List.cons_append, digitRun_append s hrest.digit] at h ⊢
      split at h
      · cases h
      · rename_i hempty
        cases h
        simp [hempty]
    · rw [scanFraction_of_ne hc] at h
      cases h
      exact scanFraction_of_ne hc _

theorem signed_append (hs : s ≠ []) (rest : List Char) :
    Decimal.signed (s ++ rest) = ((Decimal.signed s).1, (Decimal.signed s).2 ++ rest) := by
  obtain ⟨c, s, rfl⟩ := List.exists_cons_of_ne_nil hs
  by_cases hminus : c = '-'
  · subst hminus; rfl
  · by_cases hplus : c = '+'
    · subst hplus; rfl
    · simp [Decimal.signed, hminus, hplus]

theorem scanExponent_append {e : Option Int} {r : List Char} (h : scanExponent s = some (e, r))
    (hrest : Ends rest) : scanExponent (s ++ rest) = some (e, r ++ rest) := by
  cases s with
  | nil =>
    cases h
    cases rest with
    | nil => rfl
    | cons c rest => simp [scanExponent, (hrest c rfl).2.2.1, (hrest c rfl).2.2.2]
  | cons c s =>
    by_cases hc : (c == 'e' || c == 'E') = true
    · have hs : s ≠ [] := by
        rintro rfl
        simp [scanExponent, hc, Decimal.signed, digitRun] at h
      simp only [scanExponent, List.cons_append, hc, if_true, signed_append hs,
        digitRun_append _ hrest.digit] at h ⊢
      split at h
      · cases h
      · rename_i hempty
        cases h
        simp [hempty]
    · simp only [scanExponent, List.cons_append, hc] at h ⊢
      cases h
      rfl

def refusesWhole : List Char → Bool
  | [] => true
  | '0' :: _ :: _ => true
  | _ => false

/-- A numeral after its sign. -/
def scanUnsigned (negative : Bool) (s : List Char) : Option (Numeral × List Char) :=
  if refusesWhole (digitRun s).1 then none
  else
    (scanFraction (digitRun s).2).bind fun (fraction, rest) =>
    (scanExponent rest).map fun (exponent, rest) =>
      (⟨negative, (digitRun s).1, fraction, exponent⟩, rest)

theorem scan_minus (s : List Char) : scan ('-' :: s) = scanUnsigned true s := rfl

theorem scan_of_ne {c : Char} (h : c ≠ '-') (s : List Char) :
    scan (c :: s) = scanUnsigned false (c :: s) := by
  simp only [scan, List.cons.injEq, h, false_and, imp_self, implies_true]
  rfl

theorem scanUnsigned_append {negative : Bool} {n : Numeral} {r : List Char}
    (h : scanUnsigned negative s = some (n, r)) (hrest : Ends rest) :
    scanUnsigned negative (s ++ rest) = some (n, r ++ rest) := by
  simp only [scanUnsigned, digitRun_append s hrest.digit] at h ⊢
  split at h
  · cases h
  · rename_i hwhole
    obtain ⟨⟨fraction, after⟩, hfraction, h⟩ := Option.bind_eq_some_iff.1 h
    obtain ⟨⟨exponent, last⟩, hexponent, h⟩ := Option.map_eq_some_iff.1 h
    cases h
    rw [if_neg hwhole, scanFraction_append hfraction hrest, Option.bind_some,
      scanExponent_append hexponent hrest]
    rfl

/-- What a numeral is scanned from may be followed by anything that does not go on with it. -/
theorem scan_append {n : Numeral} {r : List Char} (h : scan s = some (n, r)) (hrest : Ends rest) :
    scan (s ++ rest) = some (n, r ++ rest) := by
  cases s with
  | nil => cases h
  | cons c s =>
    by_cases hc : c = '-'
    · subst hc
      exact scanUnsigned_append h hrest
    · rw [scan_of_ne hc] at h
      rw [List.cons_append, scan_of_ne hc]
      exact scanUnsigned_append h hrest

theorem head_of_scan {n : Numeral} {r : List Char} (h : scan s = some (n, r)) :
    ∃ c more, s = c :: more ∧ (c = '-' ∨ c.isDigit = true) := by
  cases s with
  | nil => cases h
  | cons c s =>
    refine ⟨c, s, rfl, ?_⟩
    by_contra hc
    simp only [not_or, Bool.not_eq_true] at hc
    simp [scan_of_ne hc.1, scanUnsigned, digitRun, refusesWhole, hc.2] at h

theorem suffix_digitRun (s : List Char) : (digitRun s).2 <:+ s :=
  List.dropWhile_suffix _

theorem suffix_of_scanFraction {f : Option (List Char)} {r : List Char}
    (h : scanFraction s = some (f, r)) : r <:+ s := by
  cases s with
  | nil =>
    cases h
    exact List.suffix_refl _
  | cons c s =>
    by_cases hc : c = '.'
    · subst hc
      simp only [scanFraction] at h
      split at h
      · cases h
      · cases h
        exact (suffix_digitRun s).trans (List.suffix_cons _ _)
    · rw [scanFraction_of_ne hc] at h
      cases h
      exact List.suffix_refl _

theorem suffix_signed (s : List Char) : (Decimal.signed s).2 <:+ s := by
  unfold Decimal.signed
  split
  · exact List.suffix_cons _ _
  · exact List.suffix_cons _ _
  · exact List.suffix_refl _

theorem suffix_of_scanExponent {e : Option Int} {r : List Char}
    (h : scanExponent s = some (e, r)) : r <:+ s := by
  cases s with
  | nil =>
    cases h
    exact List.suffix_refl _
  | cons c s =>
    simp only [scanExponent] at h
    split at h
    · split at h
      · cases h
      · cases h
        exact ((suffix_digitRun _).trans (suffix_signed s)).trans (List.suffix_cons _ _)
    · cases h
      exact List.suffix_refl _

theorem suffix_of_scanUnsigned {negative : Bool} {n : Numeral} {r : List Char}
    (h : scanUnsigned negative s = some (n, r)) : r <:+ s := by
  unfold scanUnsigned at h
  split at h
  · cases h
  · obtain ⟨⟨fraction, after⟩, hfraction, h⟩ := Option.bind_eq_some_iff.1 h
    obtain ⟨⟨exponent, last⟩, hexponent, h⟩ := Option.map_eq_some_iff.1 h
    cases h
    exact (suffix_of_scanExponent hexponent).trans
      ((suffix_of_scanFraction hfraction).trans (suffix_digitRun s))

theorem suffix_of_scan {n : Numeral} {r : List Char} (h : scan s = some (n, r)) : r <:+ s := by
  cases s with
  | nil => cases h
  | cons c s =>
    by_cases hc : c = '-'
    · subst hc
      exact (suffix_of_scanUnsigned h).trans (List.suffix_cons _ _)
    · exact suffix_of_scanUnsigned (scan_of_ne hc s ▸ h)

end Numeral

namespace Number

theorem head?_digitsOf (n : Nat) (h : 0 < n) : (digitsOf n).head? ≠ some '0' := by
  induction n using Nat.strong_induction_on with
  | _ n ih =>
    rw [digitsOf, Nat.toDigits_eq_if (by decide), ← digitsOf]
    split
    · interval_cases n <;> decide
    · rw [List.head?_append_of_ne_nil _ (digitsOf_ne_nil _)]
      exact ih (n / 10) (by omega) (by omega)

theorem refusesWhole_digitsOf (n : Nat) : Numeral.refusesWhole (digitsOf n) = false := by
  rcases Nat.eq_zero_or_pos n with rfl | hpos
  · decide
  have hhead := head?_digitsOf n hpos
  unfold Numeral.refusesWhole
  split
  · exact absurd ‹_› (digitsOf_ne_nil n)
  · rename_i hdigits
    simp [hdigits] at hhead
  · rfl

end Number

namespace Numeral

theorem digitRun_digitsOf (n : Nat) : digitRun (digitsOf n) = (digitsOf n, []) := by
  have hdigits : ∀ c ∈ digitsOf n, c.isDigit = true := fun c hc => isDigit_digitsOf hc
  rw [digitRun, List.takeWhile_eq_self_iff.2 hdigits, List.dropWhile_eq_nil_iff.2 hdigits]

theorem scanUnsigned_digitsOf (negative : Bool) (n : Nat) :
    scanUnsigned negative (digitsOf n) = some (⟨negative, digitsOf n, none, none⟩, []) := by
  simp [scanUnsigned, digitRun_digitsOf, refusesWhole_digitsOf, scanFraction, scanExponent]

theorem scan_intDigits (i : Int) :
    scan (intDigits i) = some (⟨decide (i < 0), digitsOf i.natAbs, none, none⟩, []) := by
  rw [intDigits]
  split
  · rename_i hneg
    rw [scan_minus, scanUnsigned_digitsOf, decide_eq_true hneg]
  · rename_i hpos
    obtain ⟨c, s, hs⟩ := List.exists_cons_of_ne_nil (digitsOf_ne_nil i.natAbs)
    have hc : c ≠ '-' := by
      rintro rfl
      exact absurd (isDigit_digitsOf (n := i.natAbs) (hs ▸ List.mem_cons_self)) (by decide)
    rw [decide_eq_false hpos, ← scanUnsigned_digitsOf, hs, scan_of_ne hc]

end Numeral

/-- What is written for the number is one numeral, and that has its value. -/
def JsonNumber.Legible (n : JsonNumber) : Prop :=
  ∃ m, Numeral.scan (Json.numberText n).toList = some (m, []) ∧ m.value = some n

theorem JsonNumber.legible_whole {i : Int} (hmin : -2 ^ 63 ≤ i) (hmax : i < 2 ^ 64) :
    (whole i).Legible := by
  refine ⟨_, by rw [Json.numberText, toList_intText, Numeral.scan_intDigits], ?_⟩
  simp only [Numeral.value, valueOf_digitsOf, Numeral.limit]
  by_cases hneg : i < 0
  · have hbounds : 0 < i.natAbs ∧ 2 * i.natAbs ≤ 18446744073709551616 := by omega
    simp [hneg, hbounds, abs_of_neg hneg]
  · have hbound : i.natAbs < 18446744073709551616 := by omega
    simp [hneg, hbound, abs_of_nonneg (Int.not_lt.1 hneg)]

namespace Json

def isNumeric (c : Char) : Bool :=
  c.isDigit || c == '-' || c == '.' || c == 'e' || c == '+'

theorem isSpace_of_isNumeric {c : Char} (h : isNumeric c = true) : isSpace c = false := by
  by_contra hspace
  simp only [Bool.not_eq_false, isSpace, Bool.or_eq_true, beq_iff_eq] at hspace
  rcases hspace with ((rfl | rfl) | rfl) | rfl <;> exact absurd h (by decide)

theorem isNumeric_digitsOf {n : Nat} : ∀ c ∈ digitsOf n, isNumeric c = true := fun c hc => by
  simp [isNumeric, isDigit_digitsOf hc]

theorem isNumeric_sign (d : Decimal) : ∀ c ∈ d.sign, isNumeric c = true := by
  unfold Decimal.sign
  split <;> simp [isNumeric]

theorem isNumeric_replicate (n : Nat) : ∀ c ∈ List.replicate n '0', isNumeric c = true :=
  fun _ hc => List.eq_of_mem_replicate hc ▸ rfl

theorem isNumeric_plain (d : Decimal) : ∀ c ∈ d.plain, isNumeric c = true := by
  have hdigits := isNumeric_digitsOf (n := d.digits)
  have htake := fun k c (hc : c ∈ (digitsOf d.digits).take k) => hdigits c (List.mem_of_mem_take hc)
  have hdrop := fun k c (hc : c ∈ (digitsOf d.digits).drop k) => hdigits c (List.mem_of_mem_drop hc)
  have hpoint : isNumeric '.' = true := rfl
  have hzero : isNumeric '0' = true := rfl
  simp only [Decimal.plain, List.forall_mem_append]
  refine ⟨isNumeric_sign d, ?_⟩
  split_ifs
  · exact hdigits
  · exact List.forall_mem_append.2 ⟨hdigits, isNumeric_replicate _⟩
  · simp only [List.forall_mem_cons, List.forall_mem_append]
    exact ⟨hzero, hpoint, isNumeric_replicate _, hdigits⟩
  · simp only [List.forall_mem_cons, List.forall_mem_append]
    exact ⟨htake _, hpoint, hdrop _⟩

theorem isNumeric_scientific (d : Decimal) : ∀ c ∈ d.scientific, isNumeric c = true := by
  have hdigits := isNumeric_digitsOf (n := d.digits)
  have hmark : isNumeric 'e' = true := rfl
  simp only [Decimal.scientific, List.forall_mem_append, List.forall_mem_cons]
  refine ⟨⟨isNumeric_sign d, ?_⟩, hmark, by split <;> rfl, isNumeric_digitsOf⟩
  split
  · rename_i hds
    rw [hds] at hdigits
    simp only [List.forall_mem_cons] at hdigits ⊢
    exact ⟨hdigits.1, rfl, hdigits.2⟩
  · exact hdigits

theorem isNumeric_decimalText (d : Decimal) :
    ∀ c ∈ (decimalText d).toList, isNumeric c = true := by
  have hzero : ∀ c ∈ ['.', '0'], isNumeric c = true :=
    List.forall_mem_cons.2 ⟨rfl, List.forall_mem_singleton.2 rfl⟩
  unfold decimalText
  split_ifs <;> rw [String.toList_ofList]
  · exact List.forall_mem_append.2 ⟨isNumeric_sign d, List.forall_mem_cons.2 ⟨rfl, hzero⟩⟩
  · exact isNumeric_scientific d
  · exact List.forall_mem_append.2 ⟨isNumeric_plain d, hzero⟩
  · exact isNumeric_plain d

theorem isSpace_numberText (n : JsonNumber) :
    ∀ c ∈ (numberText n).toList, isSpace c = false := by
  cases n with
  | whole i =>
    rw [numberText, toList_intText, intDigits]
    split
    · exact List.forall_mem_cons.2 ⟨rfl, fun c hc => isSpace_of_isNumeric (isNumeric_digitsOf c hc)⟩
    · exact fun c hc => isSpace_of_isNumeric (isNumeric_digitsOf c hc)
  | float x =>
    rw [numberText, doubleText]
    split
    · exact fun c hc => isSpace_of_isNumeric (isNumeric_decimalText _ c hc)
    · simp [isSpace]

theorem skip_eq_self {s : List Char} (h : ∀ c ∈ s, isSpace c = false) : skip s = s := by
  cases s with
  | nil => rfl
  | cons c s => simp [skip, h c List.mem_cons_self]

theorem scan_of_written {bound : Nat} {s r : List Char} {m : Numeral}
    (h : written bound s = some (.numeral m, r)) : Numeral.scan (skip s) = some (m, r) := by
  unfold written at h
  split at h
  · cases h
  · cases h
  · cases h
  · simp at h
  · split at h <;> simp at h
  · split at h <;> simp at h
  · obtain ⟨⟨n, r'⟩, hn, h⟩ := Option.map_eq_some_iff.1 h
    cases h
    exact hn

theorem numeral_of_value? {w : Written} {depth : Nat} {n : JsonNumber}
    (h : w.value? depth = some (.number n)) : ∃ m, w = .numeral m ∧ m.value = some n := by
  cases w with
  | numeral m => exact ⟨m, rfl, by simpa [Written.value?] using h⟩
  | array items => cases depth <;> simp [Written.value?] at h
  | object members => cases depth <;> simp [Written.value?] at h
  | _ => simp [Written.value?] at h

end Json

theorem JsonNumber.legible_of_read? {n : JsonNumber}
    (h : Json.read? (Json.numberText n) = some (.number n)) : n.Legible := by
  obtain ⟨w, hw, hvalue⟩ := Option.bind_eq_some_iff.1 h
  obtain ⟨⟨w', r⟩, hwritten, hw⟩ := Option.bind_eq_some_iff.1 hw
  by_cases hrest : (Json.skip r).isEmpty = true
  · simp only [hrest, if_true, Option.some.injEq] at hw
    obtain ⟨m, rfl, hm⟩ := Json.numeral_of_value? (hw ▸ hvalue)
    have hspace := Json.isSpace_numberText n
    have hscan := Json.scan_of_written hwritten
    rw [Json.skip_eq_self hspace] at hscan
    -- What is left are blanks, and there are none in a number.
    have hleft := (Numeral.suffix_of_scan hscan).subset
    rw [Json.skip_eq_self fun c hc => hspace c (hleft hc), List.isEmpty_iff] at hrest
    exact ⟨m, hrest ▸ hscan, hm⟩
  · simp [hrest] at hw

namespace Json

/-- How a character is written: some control characters stand as code units. -/
def unitOf (c : Char) : TextUnit :=
  if c.toNat < 0x20 ∧ c ∉ ['\n', '\t', '\r', '\x08', '\x0c'] then .unit c.toNat else .char c

theorem unit?_hexDigit : ∀ n < 0x20,
    unit? '0' '0' (hexDigit (n / 16)) (hexDigit (n % 16)) = some n := by
  decide

theorem chars?_unit {n : Nat} (h : n < 0x20) (units : List TextUnit) :
    chars? (.unit n :: units) = (chars? units).map (Char.ofNat n :: ·) := by
  have hhigh : isHighSurrogate n = false := by simp [isHighSurrogate]; omega
  have hlow : isLowSurrogate n = false := by simp [isLowSurrogate]; omega
  rcases units with _ | ⟨_ | m, units⟩ <;> simp [chars?, hhigh, hlow]

theorem chars?_unitOf (s : List Char) : chars? (s.map unitOf) = some s := by
  induction s with
  | nil => rfl
  | cons c s ih =>
    rw [List.map_cons, unitOf]
    split
    · rename_i hunit
      rw [chars?_unit hunit.1, ih, Char.ofNat_toNat, Option.map_some]
    · simp [chars?, ih]

theorem stringBody_escapeChar (c : Char) (s : List Char) :
    stringBody (escapeChar c ++ s) = (stringBody s).map fun (t, r) => (unitOf c :: t, r) := by
  by_cases hshort : c ∈ ['"', '\\', '\n', '\t', '\r', '\x08', '\x0c']
  · simp only [List.mem_cons, List.not_mem_nil, or_false] at hshort
    rcases hshort with rfl | rfl | rfl | rfl | rfl | rfl | rfl <;>
      simp [escapeChar, stringBody, simpleEscape?, unitOf]
  · simp only [List.mem_cons, List.not_mem_nil, or_false, not_or] at hshort
    obtain ⟨hquote, hback, hline, htab, hreturn, hbackspace, hfeed⟩ := hshort
    by_cases hcontrol : c.toNat < 0x20
    · simp [escapeChar, stringBody, unitOf, *, unit?_hexDigit c.toNat hcontrol]
    · have hplain : stringBody (c :: s) = (stringBody s).map fun (t, r) => (.char c :: t, r) := by
        rw [stringBody.eq_4 _ _ hquote (fun _ _ _ _ _ h => absurd h hback)
          fun _ _ h => absurd h hback]
        simp [hcontrol, hback]
      simp [escapeChar, unitOf, *]

/-- A written string ends at its own closing quote, whatever follows. -/
theorem stringBody_quoted (s rest : List Char) :
    stringBody (s.flatMap escapeChar ++ '"' :: rest) = some (s.map unitOf, rest) := by
  induction s with
  | nil => rfl
  | cons c s ih =>
    rw [List.flatMap_cons, List.append_assoc, stringBody_escapeChar, ih]
    rfl

end Json

end RecordGraph
