import RecordGraph.Proofs.Rounding

/-!
Decimals that stand for numbers of a format. Digits read back, a shift of the
point does not change the number, and the shortest decimal of a number rounds to
that number again; a number with a fractional part has digits after its point.
-/

namespace RecordGraph.Number

theorem valueOf_append (a b : List Char) :
    valueOf (a ++ b) = Nat.pow 10 b.length * valueOf a + valueOf b := by
  change Nat.ofDigitChars 10 (a ++ b) 0 =
    Nat.pow 10 b.length * Nat.ofDigitChars 10 a 0 + Nat.ofDigitChars 10 b 0
  rw [Nat.ofDigitChars_append, Nat.ofDigitChars_eq_ofDigitChars_zero]
  rfl

@[simp] theorem valueOf_digitsOf (n : Nat) : valueOf (digitsOf n) = n :=
  Nat.ofDigitChars_ten_toDigits

@[simp] theorem valueOf_zeros (k : Nat) : valueOf (List.replicate k '0') = 0 := by
  change Nat.ofDigitChars 10 (List.replicate k '0') 0 = 0
  simp

theorem isDigit_digitsOf {n : Nat} {c : Char} (h : c ∈ digitsOf n) : c.isDigit = true :=
  Nat.isDigit_of_mem_toDigits (by decide) (by decide) h

theorem digitsOf_ne_nil (n : Nat) : digitsOf n ≠ [] :=
  Nat.toDigits_ne_nil

theorem digitsOf_mul_pow {m : Nat} (hm : 0 < m) (k : Nat) :
    digitsOf (m * Nat.pow 10 k) = digitsOf m ++ List.replicate k '0' := by
  induction k with
  | zero => simp
  | succ k ih =>
    have hpos : 0 < m * Nat.pow 10 k := Nat.mul_pos hm (Nat.pow_pos (by decide))
    have hstep : m * Nat.pow 10 (k + 1) = 10 * (m * Nat.pow 10 k) + 0 := by
      simp only [Nat.pow_eq, Nat.pow_succ]
      ring
    have hlast := Nat.toDigits_append_toDigits (b := 10) (by decide) hpos (by decide : 0 < 10)
    rw [hstep, digitsOf, ← hlast, List.replicate_succ', ← List.append_assoc, ← ih]
    rfl

theorem length_digitsOf_le_iff {n k : Nat} (hk : 0 < k) :
    (digitsOf n).length ≤ k ↔ n < 10 ^ k :=
  Nat.length_toDigits_le_iff (by decide) hk

theorem dropZeros_mul (n : Nat) : (dropZeros n).1 * Nat.pow 10 (dropZeros n).2 = n := by
  induction n using dropZeros.induct with
  | case1 n h m k heq ih =>
    rw [dropZeros, dif_pos h]
    simp only [heq] at ih ⊢
    have hten : n = n / 10 * 10 := by omega
    rw [Nat.pow_eq, Nat.pow_succ, ← Nat.mul_assoc]
    exact (congrArg (· * 10) ih).trans hten.symm
  | case2 n h => rw [dropZeros, dif_neg h]; simp

namespace Binary

variable {F : Format}

theorem ofDecimal_of_digits_eq_zero {d : Decimal} (h : d.digits = 0) :
    ofDecimal F d = zero d.negative := by
  simp [ofDecimal, h]

theorem ofDecimal_within {d : Decimal} (h : d.digits ≠ 0) (hl : -400 ≤ d.magnitude)
    (hu : d.magnitude ≤ 400) :
    ofDecimal F d =
      if 0 ≤ d.exponent then ofRatio F d.negative (d.digits * Nat.pow 10 d.exponent.toNat) 1
      else ofRatio F d.negative d.digits (Nat.pow 10 (-d.exponent).toNat) := by
  rw [ofDecimal, if_neg h, if_neg (by simpa [decimalReach] using hu),
    if_neg (by simpa [decimalReach] using hl)]

theorem ofDecimal_shift (F : Format) (negative : Bool) (m k : Nat) (e : Int) :
    ofDecimal F ⟨negative, m * Nat.pow 10 k, e⟩ = ofDecimal F ⟨negative, m, e + k⟩ := by
  rcases Nat.eq_zero_or_pos m with rfl | hm
  · rw [ofDecimal_of_digits_eq_zero (by simp), ofDecimal_of_digits_eq_zero rfl]
  have hk : 0 < Nat.pow 10 k := Nat.pow_pos (by decide)
  have hne : m * Nat.pow 10 k ≠ 0 := (Nat.mul_pos hm hk).ne'
  have hmag : Decimal.magnitude ⟨negative, m * Nat.pow 10 k, e⟩ =
      Decimal.magnitude ⟨negative, m, e + k⟩ := by
    simp only [Decimal.magnitude, digitsOf_mul_pow hm, List.length_append, List.length_replicate]
    omega
  simp only [ofDecimal, hmag, if_neg hne, if_neg hm.ne']
  refine if_congr Iff.rfl rfl (if_congr Iff.rfl rfl ?_)
  rcases Int.lt_or_le e 0 with he | he
  · obtain ⟨n, rfl⟩ : ∃ n : Nat, e = -n := ⟨e.natAbs, by omega⟩
    rw [if_neg (by omega), show (- -(n : Int)).toNat = n by omega]
    rcases Nat.lt_or_ge k n with hkn | hkn
    · have hpow : Nat.pow 10 n = Nat.pow 10 (n - k) * Nat.pow 10 k := by
        rw [Nat.pow_eq, Nat.pow_eq, Nat.pow_eq, ← Nat.pow_add, Nat.sub_add_cancel hkn.le]
      rw [if_neg (by omega), show (-(-(n : Int) + k)).toNat = n - k by omega, hpow,
        ofRatio_mul_mul _ _ _ _ _ hk]
    · have hpow : m * Nat.pow 10 k = m * Nat.pow 10 (k - n) * Nat.pow 10 n := by
        rw [Nat.mul_assoc, Nat.pow_eq, Nat.pow_eq, Nat.pow_eq, ← Nat.pow_add,
          Nat.sub_add_cancel hkn]
      have hone := ofRatio_mul_mul F negative (m * Nat.pow 10 (k - n)) 1 (Nat.pow 10 n)
        (Nat.pow_pos (by decide))
      rw [Nat.one_mul] at hone
      rw [if_pos (by omega), show (-(n : Int) + k).toNat = k - n by omega, hpow, hone]
  · obtain ⟨n, rfl⟩ := Int.eq_ofNat_of_zero_le he
    have hsum : ((n : Int) + k).toNat = k + n := by omega
    rw [if_pos he, if_pos (by omega), hsum]
    simp only [Int.toNat_natCast, Nat.pow_eq, Nat.pow_add, Nat.mul_assoc]

theorem ofDecimal_trimmed (d : Decimal) : ofDecimal F (trimmed d) = ofDecimal F d := by
  have hzeros := dropZeros_mul d.digits
  unfold trimmed
  generalize dropZeros d.digits = split at hzeros ⊢
  obtain ⟨digits, zeros⟩ := split
  dsimp only at hzeros ⊢
  split
  · rename_i h
    subst h
    have hd : d.digits = 0 := by rw [← hzeros, Nat.zero_mul]
    rw [ofDecimal_of_digits_eq_zero rfl, ofDecimal_of_digits_eq_zero hd]
  · rw [← ofDecimal_shift, hzeros]

theorem ofDecimal_whole {negative : Bool} {n k : Nat} (hk : k ≤ 401) (h : n < Nat.pow 10 k) :
    ofDecimal F ⟨negative, n, 0⟩ = ofRatio F negative n 1 := by
  by_cases hn : n = 0
  · rw [hn, ofDecimal_of_digits_eq_zero rfl, ofRatio_zero]
  · have hkpos : 0 < k := by
      rcases Nat.eq_zero_or_pos k with rfl | hk
      · exact absurd (Nat.lt_one_iff.1 h) hn
      · exact hk
    have hlen : (digitsOf n).length ≤ k := (length_digitsOf_le_iff hkpos).2 h
    have hpos : 0 < (digitsOf n).length := List.length_pos_iff.2 (digitsOf_ne_nil n)
    rw [ofDecimal_within hn (by simp only [Decimal.magnitude]; omega)
      (by simp only [Decimal.magnitude]; omega)]
    simp

end Binary

/-- All magnitudes of the format lie within the reach of decimals. -/
structure Format.WithinReach (F : Format) : Prop where
  precision_pos : 0 < F.precision
  scale_pos : 0 < F.scale
  top : ∃ k ≤ 401, Nat.pow 2 (F.precision + F.maxUnit) ≤ Nat.pow 10 k * Nat.pow 2 F.scale
  bottom : ∃ k ≤ 400, Nat.pow 10 (F.scale - k) ≤ Nat.pow 5 F.scale

theorem Format.single_withinReach : Format.single.WithinReach :=
  ⟨by decide, by decide, ⟨401, le_refl _, by decide +kernel⟩, ⟨400, le_refl _, by decide +kernel⟩⟩

theorem Format.double_withinReach : Format.double.WithinReach :=
  ⟨by decide, by decide, ⟨401, le_refl _, by decide +kernel⟩, ⟨400, le_refl _, by decide +kernel⟩⟩

theorem Format.WithinReach.steps_lt {F : Format} (hF : F.WithinReach) :
    ∃ k ≤ 401, ∀ m u, F.Fits m u → m * Nat.pow 2 u < Nat.pow 10 k * Nat.pow 2 F.scale := by
  obtain ⟨k, hk, htop⟩ := hF.top
  refine ⟨k, hk, fun m u h => ?_⟩
  calc m * Nat.pow 2 u
      < 2 ^ F.precision * 2 ^ u := Nat.mul_lt_mul_of_pos_right h.lt (Nat.two_pow_pos u)
    _ = 2 ^ (F.precision + u) := (Nat.pow_add ..).symm
    _ ≤ 2 ^ (F.precision + F.maxUnit) :=
      Nat.pow_le_pow_right (by decide) (Nat.add_le_add_left h.le _)
    _ ≤ Nat.pow 10 k * Nat.pow 2 F.scale := htop

namespace Binary

variable {F : Format}

/-- The full expansion of a number reads back as the number. -/
theorem ofDecimal_exact {negative : Bool} {m u : Nat} (h : F.Fits m u) (hF : F.WithinReach)
    (hm : m ≠ 0) : ofDecimal F (exact (F := F) negative m u) = .finite negative m u h := by
  obtain ⟨k, hk, hlt⟩ := hF.steps_lt
  obtain ⟨j, hj, hbottom⟩ := hF.bottom
  have hscale := hF.scale_pos
  have hfive : 0 < Nat.pow 5 F.scale := Nat.pow_pos (by decide)
  have hsteps : 0 < m * Nat.pow 2 u := Nat.mul_pos (Nat.pos_of_ne_zero hm) (Nat.two_pow_pos u)
  have hpow : Nat.pow 10 F.scale = Nat.pow 2 F.scale * Nat.pow 5 F.scale := Nat.mul_pow 2 5 F.scale
  set digits := m * Nat.pow 2 u * Nat.pow 5 F.scale with hdigits
  have hpos : 0 < digits := Nat.mul_pos hsteps hfive
  have hlen : 0 < (digitsOf digits).length := List.length_pos_iff.2 (digitsOf_ne_nil digits)
  have hmost : (digitsOf digits).length ≤ k + F.scale := by
    refine (length_digitsOf_le_iff (by omega)).2 ?_
    calc digits
        < Nat.pow 10 k * Nat.pow 2 F.scale * Nat.pow 5 F.scale :=
          Nat.mul_lt_mul_of_pos_right (hlt m u h) hfive
      _ = 10 ^ k * 10 ^ F.scale := by rw [Nat.mul_assoc, ← hpow]; rfl
      _ = 10 ^ (k + F.scale) := (Nat.pow_add ..).symm
  have hleast : F.scale < (digitsOf digits).length + j := by
    by_contra hfew
    have hsmall : digits < 10 ^ (F.scale - j) := (length_digitsOf_le_iff (by omega)).1 (by omega)
    have hlarge : Nat.pow 5 F.scale ≤ digits := Nat.le_mul_of_pos_left _ hsteps
    exact absurd (hsmall.trans_le hbottom) (Nat.not_lt.2 hlarge)
  have hdec : exact (F := F) negative m u = ⟨negative, digits, -(F.scale : Int)⟩ := rfl
  rw [hdec, ofDecimal_within hpos.ne' (by simp only [Decimal.magnitude]; omega)
    (by simp only [Decimal.magnitude]; omega), if_neg (by simp only; omega)]
  simp only [Int.neg_neg, Int.toNat_natCast]
  rw [hpow, hdigits, ofRatio_mul_mul _ _ _ _ _ hfive, ofRatio_self negative h hF.precision_pos]

theorem ofDecimal_shortest (hF : F.WithinReach) {tie : Tie} {x : Binary F} {d : Decimal}
    (h : x.shortest tie = some d) : ofDecimal F d = x := by
  cases x with
  | nan => simp [shortest] at h
  | infinity s => simp [shortest] at h
  | finite s m u hfits =>
    simp only [shortest] at h
    split at h
    · rename_i hm
      obtain rfl := Option.some.inj h
      obtain rfl : u = 0 := by
        have hpos : 0 < Nat.pow 2 F.precision := Nat.two_pow_pos _
        have := hfits.normal
        omega
      subst hm
      exact ofDecimal_of_digits_eq_zero rfl
    · rename_i hm
      obtain rfl := Option.some.inj h
      rw [ofDecimal_trimmed]
      generalize hfound : List.findSome? _ (List.range maxDigits) = found
      cases found with
      | none => exact ofDecimal_exact hfits hF hm
      | some d =>
        obtain ⟨i, -, hi⟩ := List.exists_of_findSome?_eq_some hfound
        have hreads := List.find?_some hi
        exact of_decide_eq_true hreads

theorem isFinite_of_shortest {tie : Tie} {x : Binary F} {d : Decimal}
    (h : x.shortest tie = some d) : x.isFinite = true := by
  cases x <;> simp_all [shortest, isFinite]

theorem ofDecimal_of_exponent_nonneg {d : Decimal} (he : 0 ≤ d.exponent) :
    ofDecimal F d = zero d.negative ∨ ofDecimal F d = .infinity d.negative ∨
      ofDecimal F d = ofRatio F d.negative (d.digits * Nat.pow 10 d.exponent.toNat) 1 := by
  unfold ofDecimal
  split_ifs <;> simp

theorem isIntegral_ofDecimal (hp : 0 < F.precision) {d : Decimal} (he : 0 ≤ d.exponent)
    (h : (ofDecimal F d).isFinite = true) : (ofDecimal F d).isIntegral = true := by
  rcases ofDecimal_of_exponent_nonneg (F := F) he with hd | hd | hd <;> rw [hd] at h ⊢
  · simp [zero, isIntegral]
  · simp [isFinite] at h
  · exact isIntegral_ofRatio_one hp h

theorem exponent_neg_of_shortest (hF : F.WithinReach) {tie : Tie} {x : Binary F} {d : Decimal}
    (h : x.shortest tie = some d) (hx : x.isIntegral = false) : d.exponent < 0 := by
  by_contra he
  have hd := ofDecimal_shortest hF h
  have hfin : (ofDecimal F d).isFinite = true := hd ▸ isFinite_of_shortest h
  have hint := isIntegral_ofDecimal hF.precision_pos (Int.not_lt.1 he) hfin
  simp [hd, hx] at hint

end Binary

/-- Digits before and after the point of a decimal that has some after it. -/
theorem Decimal.plain_of_exponent_neg {d : Decimal} (he : d.exponent < 0) :
    ∃ whole places, d.plain = d.sign ++ (whole ++ '.' :: places) ∧ whole ≠ [] ∧ places ≠ [] ∧
      (∀ c ∈ whole ++ places, c.isDigit = true) ∧ valueOf (whole ++ places) = d.digits ∧
      d.exponent = -(places.length : Int) := by
  set ds := digitsOf d.digits with hds
  have hdigits : ∀ c ∈ ds, c.isDigit = true := fun c hc => isDigit_digitsOf hc
  have hvalue : valueOf ds = d.digits := valueOf_digitsOf _
  set count := (-d.exponent).toNat with hcount
  have hneg : ¬ 0 ≤ d.exponent := Int.not_le.2 he
  by_cases hlen : ds.length ≤ count
  · have hplain : d.plain =
        d.sign ++ (['0'] ++ '.' :: (List.replicate (count - ds.length) '0' ++ ds)) := by
      simp only [plain, if_neg hneg, ← hds, ← hcount, if_pos hlen, List.singleton_append]
    refine ⟨['0'], _, hplain, by simp, ?_, ?_, ?_, ?_⟩
    · simp [digitsOf_ne_nil, hds]
    · intro c hc
      simp only [List.mem_append, List.mem_singleton, List.mem_replicate] at hc
      rcases hc with rfl | ⟨-, rfl⟩ | hc
      · rfl
      · rfl
      · exact hdigits c hc
    · rw [← List.append_assoc, valueOf_append, hvalue]
      have hzeros : valueOf (['0'] ++ List.replicate (count - ds.length) '0') = 0 :=
        valueOf_zeros (count - ds.length + 1)
      rw [hzeros, Nat.mul_zero, Nat.zero_add]
    · simp only [List.length_append, List.length_replicate]
      omega
  · have hplain : d.plain =
        d.sign ++ (ds.take (ds.length - count) ++ '.' :: ds.drop (ds.length - count)) := by
      simp only [plain, if_neg hneg, ← hds, ← hcount, if_neg hlen]
    refine ⟨_, _, hplain, ?_, ?_, ?_, ?_, ?_⟩
    · intro hnil
      have := congrArg List.length hnil
      simp only [List.length_take, List.length_nil] at this
      omega
    · intro hnil
      have := congrArg List.length hnil
      simp only [List.length_drop, List.length_nil] at this
      omega
    · rwa [List.take_append_drop]
    · rw [List.take_append_drop, hvalue]
    · simp only [List.length_drop]
      omega

end RecordGraph.Number
