import RecordGraph.Proofs.Reading
import RecordGraph.Proofs.Results
import RecordGraph.Statement.Literal

/-!
Stored values. A field value becomes a property value: integers of both widths
become integers, and floating-point numbers doubles. Literals are read back as
stored values, whatever the value is.
-/

namespace RecordGraph

open Number Dialect Statement

namespace Number.Binary

variable {F : Format}

/-- The double that a number is stored as. A whole number keeps its value; any other
becomes the double nearest to its shortest decimal. -/
def asDouble (x : Binary F) : Double :=
  if x.isIntegral then x.convert .double
  else ((x.shortest .larger).map (ofDecimal .double)).getD .nan

theorem shortest_of_isFinite {x : Binary F} (h : x.isFinite = true) (tie : Tie) :
    ∃ d, x.shortest tie = some d := by
  cases x with
  | nan => simp [isFinite] at h
  | infinity s => simp [isFinite] at h
  | finite s m u hfits => by_cases hm : m = 0 <;> simp [shortest, hm]

@[simp] theorem asDouble_double {x : Double} (h : x.isFinite = true) : x.asDouble = x := by
  unfold asDouble
  split
  · exact convert_self Format.double_withinReach.precision_pos
  · obtain ⟨d, hd⟩ := shortest_of_isFinite h .larger
    rw [hd]
    exact ofDecimal_shortest Format.double_withinReach hd

theorem readsValue_whole (hF : F.WithinReach) {s : Bool} {m u : Nat} (h : F.Fits m u)
    (hint : (finite s m u h : Binary F).isIntegral = true) :
    ReadsValue (wholeChars (finite s m u h : Binary F) ++ ['.', '0'])
      (.float ((finite s m u h : Binary F).convert .double)) := by
  obtain ⟨k, hk, hlt⟩ := hF.steps_lt
  have hscale : 0 < Nat.pow 2 F.scale := Nat.two_pow_pos _
  obtain ⟨n, hn⟩ : Nat.pow 2 F.scale ∣ m * Nat.pow 2 u := ((isIntegral_iff _).1 hint).2
  have hsteps : m * Nat.pow 2 u = n * Nat.pow 2 F.scale := by rw [hn, Nat.mul_comm]
  have hdiv : m * Nat.pow 2 u / Nat.pow 2 F.scale = n := by
    rw [hsteps, Nat.mul_div_cancel _ hscale]
  have hbound : n < Nat.pow 10 k := by
    have := hlt m u h
    rw [hsteps] at this
    exact Nat.lt_of_mul_lt_mul_right this
  have hchars : wholeChars (finite s m u h : Binary F) = signChars s ++ digitsOf n := by
    cases s <;> simp only [wholeChars, hdiv] <;> rfl
  have hconvert : (finite s m u h : Binary F).convert .double = ofRatio .double s n 1 := by
    have hone := ofRatio_mul_mul .double s n 1 (Nat.pow 2 F.scale) hscale
    rw [convert, hsteps, ← hone, Nat.one_mul]
  have hvalue : floatValue s (digitsOf n) ['0'] 0 = .float (ofRatio .double s n 1) := by
    have hten : valueOf (digitsOf n ++ ['0']) = n * Nat.pow 10 1 := by
      rw [valueOf_append, valueOf_digitsOf]
      simp [valueOf, digitValue, Nat.mul_comm]
    have hshift := ofDecimal_shift .double s n 1 (-1)
    rw [floatValue, hten, ← ofDecimal_whole hk hbound]
    simpa using hshift
  have hread := readsValue_float s (digitsOf_ne_nil n) (List.cons_ne_nil '0' []) (by
    intro c hc
    rcases List.mem_append.1 hc with hc | hc
    · exact isDigit_digitsOf hc
    · obtain rfl := List.mem_singleton.1 hc
      rfl)
  rwa [hvalue, ← hconvert, ← List.append_assoc, ← hchars] at hread

theorem readsValue_plain {d : Decimal} (he : d.exponent < 0) :
    ReadsValue d.plain (.float (ofDecimal .double d)) := by
  obtain ⟨whole, places, hplain, hwhole, hplaces, hdigits, hvalue, hexp⟩ :=
    Decimal.plain_of_exponent_neg he
  have hread := readsValue_float d.negative hwhole hplaces hdigits
  have hd : floatValue d.negative whole places 0 = .float (ofDecimal .double d) := by
    rw [floatValue, hvalue, Int.zero_sub, ← hexp]
  rw [hd] at hread
  rw [hplain]
  exact hread

end Number.Binary

theorem Statement.floatLiteral_ok_iff {F : Format} (x : Binary F) :
    (∃ t, floatLiteral x = .ok t) ↔ x.isFinite = true := by
  unfold floatLiteral
  cases hfinite : x.isFinite <;> cases hwhole : x.isIntegral <;> simp

theorem readsValue_floatLiteral {F : Format} (hF : F.WithinReach) {x : Binary F} {t : String}
    (h : floatLiteral x = .ok t) : x.isFinite = true ∧ ReadsValue t.toList (.float x.asDouble) := by
  unfold floatLiteral at h
  split at h
  · simp at h
  rename_i hfin
  simp only [Bool.not_eq_true, Bool.not_eq_false'] at hfin
  refine ⟨hfin, ?_⟩
  split at h
  · rename_i hint
    obtain rfl := Except.ok.inj h
    cases x with
    | nan => simp [Binary.isFinite] at hfin
    | infinity s => simp [Binary.isFinite] at hfin
    | finite s m u hfits =>
      rw [String.toList_ofList, Binary.asDouble, if_pos hint]
      exact Binary.readsValue_whole hF hfits hint
  · rename_i hint
    obtain rfl := Except.ok.inj h
    obtain ⟨d, hd⟩ := Binary.shortest_of_isFinite hfin .larger
    have he := Binary.exponent_neg_of_shortest hF hd (by simpa using hint)
    have hchars : x.plainChars = d.plain := by
      cases x <;> simp_all [Binary.plainChars, Binary.isFinite]
    have hdouble : x.asDouble = Binary.ofDecimal .double d := by
      simp [Binary.asDouble, hint, hd]
    rw [Binary.plainText, String.toList_ofList, hchars, hdouble]
    exact Binary.readsValue_plain he

namespace FieldValue

mutual

@[simp] def stored : FieldValue → PropertyValue
  | null => .null
  | boolean b => .boolean b
  | int i => .integer i.toInt64
  | long i => .integer i
  | float x => .float x.asDouble
  | double x => .float x
  | string s => .string s
  | array items => .list (storedAll items)
  | record _ _ => .null

@[simp] def storedAll : List FieldValue → List PropertyValue
  | [] => []
  | v :: rest => stored v :: storedAll rest

end

end FieldValue

mutual

theorem readsValue_literal : (v : FieldValue) → {t : String} → literal .cypher v = .ok t →
    ReadsValue t.toList v.stored
  | .null, t, h => by
    obtain rfl := Except.ok.inj h
    exact readsValue_word (by decide)
  | .boolean b, t, h => by
    obtain rfl := Except.ok.inj h
    cases b <;> exact readsValue_word (by decide)
  | .int i, t, h => by
    obtain rfl := Except.ok.inj h
    rw [← Int32.toInt_toInt64]
    exact readsValue_integer _
  | .long i, t, h => by
    obtain rfl := Except.ok.inj h
    exact readsValue_integer i
  | .float x, t, h => (readsValue_floatLiteral Format.single_withinReach h).2
  | .double x, t, h => by
    obtain ⟨hfin, hread⟩ := readsValue_floatLiteral Format.double_withinReach h
    rwa [Binary.asDouble_double hfin] at hread
  | .string s, t, h => by
    obtain rfl := Except.ok.inj h
    exact readsValue_string s
  | .array items, t, h => by
    obtain ⟨ts, hts, rfl⟩ := map_eq_ok.1 h
    have hitems := reads_literals items hts
    by_cases hne : ts = []
    · subst hne
      rw [FieldValue.stored, List.forall₂_nil_left_iff.1 hitems]
      exact readsValue_list_nil Gap.none
    · simpa using readsValue_list (Separated.of_intercalate hitems hne) Gap.none
  | .record schema entries, t, h => by simp [literal] at h

theorem reads_literals : (vs : List FieldValue) → {ts : List String} →
    literals .cypher vs = .ok ts →
    List.Forall₂ (fun t v => ReadsValue t.toList v) ts (FieldValue.storedAll vs)
  | [], ts, h => by
    obtain rfl := Except.ok.inj h
    exact .nil
  | v :: rest, ts, h => by
    simp only [literals, bind_eq_ok, pure_eq_ok] at h
    obtain ⟨text, htext, more, hmore, rfl⟩ := h
    exact .cons (readsValue_literal v htext) (reads_literals rest hmore)

end

end RecordGraph
