import RecordGraph.Proofs.Rounding

/-!
Whole numbers among the floating-point numbers. Below `2 ^ precision` each of them
is a number of the format. From there on neighbours may round to the same number,
but none rounds to one below the bound, so a number below it equals one integer
at most.
-/

namespace RecordGraph.Number

theorem le_divNearest (num den : Nat) : num / den ≤ divNearest num den := by
  simp only [divNearest]
  split_ifs <;> omega

theorem divNearest_le (num den : Nat) : divNearest num den ≤ num / den + 1 := by
  simp only [divNearest]
  split_ifs <;> omega

namespace Format

variable {F : Format} {steps : Nat}

theorem pow_precision (F : Format) (hp : 0 < F.precision) :
    2 ^ F.precision = 2 * 2 ^ (F.precision - 1) := by
  rw [← Nat.pow_succ', Nat.succ_eq_add_one, Nat.sub_add_cancel hp]

/-- The unit leaves a significand of at most the precision. -/
theorem div_unitFor_lt (F : Format) (steps : Nat) :
    steps / 2 ^ F.unitFor steps < 2 ^ F.precision := by
  rw [Nat.div_lt_iff_lt_mul (Nat.two_pow_pos _), ← Nat.pow_add]
  rcases Nat.eq_zero_or_pos steps with rfl | hpos
  · exact Nat.two_pow_pos _
  · rw [← Nat.log2_lt hpos.ne', unitFor, if_neg hpos.ne']
    omega

/-- Unless it is the smallest one, the unit leaves a significand that fills the precision. -/
theorem pow_mul_unitFor_le (hp : 0 < F.precision) (hu : F.unitFor steps ≠ 0) :
    2 ^ (F.precision - 1) * 2 ^ F.unitFor steps ≤ steps := by
  have hne : steps ≠ 0 := by
    rintro rfl
    exact hu rfl
  rw [unitFor, if_neg hne] at hu ⊢
  have hexp : F.precision - 1 + (steps.log2 + 1 - F.precision) = steps.log2 := by omega
  rw [← Nat.pow_add, hexp]
  exact Nat.log2_self_le hne

theorem unitFor_le {bits : Nat} (h : steps < 2 ^ bits) : F.unitFor steps ≤ bits - F.precision := by
  rw [unitFor]
  split_ifs with hzero
  · exact Nat.zero_le _
  · have hlog := (Nat.log2_lt hzero).2 h
    omega

theorem le_div_unitFor (hp : 0 < F.precision) (hu : F.unitFor steps ≠ 0) :
    2 ^ (F.precision - 1) ≤ steps / 2 ^ F.unitFor steps :=
  (Nat.le_div_iff_mul_le (Nat.two_pow_pos _)).2 (pow_mul_unitFor_le hp hu)

end Format

namespace Binary

variable {F : Format}

theorem ofInt_eq (F : Format) (i : Int) :
    ofInt F i = ofRounded F (i < 0)
      (divNearest (i.natAbs * 2 ^ F.scale) (2 ^ F.unitFor (i.natAbs * 2 ^ F.scale)))
      (F.unitFor (i.natAbs * 2 ^ F.scale)) := by
  simp [ofInt, ofRatio]

theorem isFinite_ofRounded {negative : Bool} {m u : Nat} (hp : 0 < F.precision)
    (hm : m ≤ 2 ^ F.precision) (hnormal : 2 ^ F.precision ≤ 2 * m ∨ u = 0)
    (hu : u < F.maxUnit) : (ofRounded F negative m u).isFinite = true := by
  unfold ofRounded
  by_cases hcarry : m = Nat.pow 2 F.precision
  · have hhalf := F.pow_precision hp
    have hpos : 0 < 2 ^ (F.precision - 1) := Nat.two_pow_pos _
    have hfits : F.Fits (Nat.pow 2 (F.precision - 1)) (u + 1) := by
      refine ⟨?_, .inl ?_, hu⟩ <;> simp only [Nat.pow_eq] <;> omega
    simp only [if_pos hcarry, dif_pos hfits]
    rfl
  · have hfits : F.Fits m u := ⟨lt_of_le_of_ne hm hcarry, hnormal, hu.le⟩
    simp only [if_neg hcarry, dif_pos hfits]
    rfl

theorem isFinite_ofInt {i : Int} {bits : Nat} (hp : 0 < F.precision) (hi : i.natAbs < 2 ^ bits)
    (hbits : bits + F.scale - F.precision < F.maxUnit) : (ofInt F i).isFinite = true := by
  have hsteps : i.natAbs * 2 ^ F.scale < 2 ^ (bits + F.scale) := by
    rw [Nat.pow_add]
    exact Nat.mul_lt_mul_of_pos_right hi (Nat.two_pow_pos _)
  have hu := lt_of_le_of_lt (Format.unitFor_le hsteps) hbits
  rw [ofInt_eq]
  generalize i.natAbs * 2 ^ F.scale = steps at hu ⊢
  have hround := divNearest_le steps (2 ^ F.unitFor steps)
  have hlt := F.div_unitFor_lt steps
  refine isFinite_ofRounded hp (by omega) ?_ hu
  by_cases hzero : F.unitFor steps = 0
  · exact .inr hzero
  · have hfull := (Format.le_div_unitFor hp hzero).trans (le_divNearest _ _)
    have hhalf := F.pow_precision hp
    left
    omega

theorem isFinite_ofInt_toInt (i : Int64) : (ofInt .double i.toInt).isFinite = true := by
  have hlow := Int64.le_toInt i
  have hhigh := Int64.toInt_lt i
  have hbound : i.toInt.natAbs < 2 ^ 64 := by omega
  exact isFinite_ofInt (by decide) hbound (by decide)

theorem steps_ofInt (hp : 0 < F.precision) {i : Int} (hi : i.natAbs < 2 ^ F.precision)
    (hfinite : (ofInt F i).isFinite = true) : (ofInt F i).steps = i.natAbs * 2 ^ F.scale := by
  rw [ofInt_eq] at hfinite ⊢
  rw [steps_ofRounded hp hfinite, Nat.pow_eq]
  have hdvd : 2 ^ F.unitFor (i.natAbs * 2 ^ F.scale) ∣ i.natAbs * 2 ^ F.scale := by
    refine Dvd.dvd.mul_left (Nat.pow_dvd_pow 2 ?_) _
    rw [Format.unitFor]
    split_ifs with hzero
    · exact Nat.zero_le _
    · have hne : i.natAbs ≠ 0 := fun h => hzero (by rw [h, Nat.zero_mul])
      have hlog := (Nat.log2_lt hne).2 hi
      have hsum : (i.natAbs * 2 ^ F.scale).log2 = i.natAbs.log2 + F.scale :=
        log2_mul_pow F.scale hne
      omega
  rw [divNearest_of_dvd (Nat.two_pow_pos _) hdvd, Nat.div_mul_cancel hdvd]

theorem le_steps_ofInt (hp : 0 < F.precision) {i : Int} (hi : 2 ^ F.precision ≤ i.natAbs)
    (hfinite : (ofInt F i).isFinite = true) :
    2 ^ F.precision * 2 ^ F.scale ≤ (ofInt F i).steps := by
  rw [ofInt_eq] at hfinite ⊢
  rw [steps_ofRounded hp hfinite, Nat.pow_eq]
  have hsteps : 2 ^ F.precision * 2 ^ F.scale ≤ i.natAbs * 2 ^ F.scale :=
    Nat.mul_le_mul_right _ hi
  generalize i.natAbs * 2 ^ F.scale = steps at hsteps ⊢
  have hne : steps ≠ 0 := (Nat.lt_of_lt_of_le (by positivity) hsteps).ne'
  have hlog : F.precision + F.scale ≤ steps.log2 :=
    (Nat.le_log2 hne).2 (by rwa [Nat.pow_add])
  have hunit : F.unitFor steps = steps.log2 + 1 - F.precision := if_neg hne
  have hexp : F.precision - 1 + F.unitFor steps = steps.log2 := by omega
  calc 2 ^ F.precision * 2 ^ F.scale
      = 2 ^ (F.precision + F.scale) := (Nat.pow_add _ _ _).symm
    _ ≤ 2 ^ steps.log2 := Nat.pow_le_pow_right (by decide) hlog
    _ = 2 ^ (F.precision - 1) * 2 ^ F.unitFor steps := by rw [← Nat.pow_add, hexp]
    _ ≤ divNearest steps (2 ^ F.unitFor steps) * 2 ^ F.unitFor steps :=
        Nat.mul_le_mul_right _ ((Format.le_div_unitFor hp (by omega)).trans (le_divNearest _ _))

def isNegative : Binary F → Bool
  | .nan => false
  | .infinity s => s
  | .finite s .. => s

theorem isNegative_ofInt (F : Format) (i : Int) : (ofInt F i).isNegative = decide (i < 0) := by
  rw [ofInt_eq]
  unfold ofRounded
  simp only
  split_ifs <;> rfl

theorem steps_eq_of_equals {x y : Binary F} (hx : x.isFinite = true) (h : x.equals y = true) :
    x.steps = y.steps ∧ (x.isNegative = y.isNegative ∨ x.steps = 0) := by
  cases x with
  | nan => simp [isFinite] at hx
  | infinity s => simp [isFinite] at hx
  | finite s m u _ =>
    cases y with
    | nan => simp [equals] at h
    | infinity t => simp [equals] at h
    | finite t n v _ =>
      simp only [equals, Bool.and_eq_true, Bool.or_eq_true, beq_iff_eq] at h
      obtain ⟨⟨rfl, rfl⟩, hsign⟩ := h
      exact ⟨rfl, hsign.imp_right fun hm => by rw [steps, hm, Nat.zero_mul]⟩

theorem ofInt_eq_of_equals (hp : 0 < F.precision) {x : Binary F}
    (hx : x.steps < 2 ^ F.precision * 2 ^ F.scale) {i j : Int}
    (hi : (ofInt F i).isFinite = true) (hj : (ofInt F j).isFinite = true)
    (hxi : (ofInt F i).equals x = true) (hxj : (ofInt F j).equals x = true) : i = j := by
  have hscale : 0 < 2 ^ F.scale := Nat.two_pow_pos _
  have hexact : ∀ k : Int, (ofInt F k).isFinite = true → (ofInt F k).equals x = true →
      x.steps = k.natAbs * 2 ^ F.scale ∧ (decide (k < 0) = x.isNegative ∨ k = 0) := by
    intro k hk hxk
    obtain ⟨hsteps, hsign⟩ := steps_eq_of_equals hk hxk
    -- From the bound on rounding never leads below it.
    have hlt : k.natAbs < 2 ^ F.precision := by
      by_contra hge
      exact absurd (hsteps ▸ le_steps_ofInt hp (Nat.le_of_not_lt hge) hk) (Nat.not_le.2 hx)
    rw [steps_ofInt hp hlt hk] at hsteps hsign
    rw [isNegative_ofInt] at hsign
    refine ⟨hsteps.symm, hsign.imp_right fun hzero => ?_⟩
    exact Int.natAbs_eq_zero.1 ((Nat.mul_eq_zero.1 hzero).resolve_right hscale.ne')
  obtain ⟨hstepsi, hsigni⟩ := hexact i hi hxi
  obtain ⟨hstepsj, hsignj⟩ := hexact j hj hxj
  have habs : i.natAbs = j.natAbs := Nat.eq_of_mul_eq_mul_right hscale (hstepsi.symm.trans hstepsj)
  rcases hsigni with hsigni | rfl
  · rcases hsignj with hsignj | rfl
    · have hneg : (i < 0 ↔ j < 0) := decide_eq_decide.1 (hsigni.trans hsignj.symm)
      omega
    · omega
  · omega

end Binary

end RecordGraph.Number
