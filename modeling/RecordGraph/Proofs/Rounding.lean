import Mathlib.Tactic
import RecordGraph.Number.Shortest

/-!
Rounding of ratios. A common factor changes nothing, a number of the format is
its own rounding, and whole numbers round to numbers without a fractional part.
-/

namespace RecordGraph.Number

theorem divNearest_mul_mul (num den k : Nat) (hk : 0 < k) :
    divNearest (num * k) (den * k) = divNearest num den := by
  have hq : num * k / (den * k) = num / den := Nat.mul_div_mul_right num den hk
  have hr : num * k % (den * k) = num % den * k := Nat.mul_mod_mul_right k num den
  have hlt : ∀ a b : Nat, a * k < b * k ↔ a < b := fun a b => Nat.mul_lt_mul_right hk
  simp only [divNearest, hq, hr, ← Nat.mul_assoc, hlt]

theorem divNearest_of_dvd {num den : Nat} (hd : 0 < den) (h : den ∣ num) :
    divNearest num den = num / den := by
  obtain ⟨q, rfl⟩ := h
  rw [Nat.mul_comm, divNearest_mul q den hd, Nat.mul_div_cancel _ hd]

theorem log2_mul_pow {m : Nat} (u : Nat) (hm : m ≠ 0) :
    (m * Nat.pow 2 u).log2 = m.log2 + u := by
  induction u with
  | zero => simp
  | succ u ih =>
    have hne : m * Nat.pow 2 u ≠ 0 := Nat.mul_ne_zero hm (Nat.two_pow_pos u).ne'
    have hstep : m * Nat.pow 2 (u + 1) = 2 * (m * Nat.pow 2 u) := by
      rw [Nat.pow_eq, Nat.pow_eq, Nat.pow_succ]
      ring
    rw [hstep, Nat.log2_two_mul hne, ih, Nat.add_assoc]

/-- The unit of a number of the format can be read off its magnitude. -/
theorem Format.unitFor_steps {F : Format} {m u : Nat} (h : F.Fits m u) (hp : 0 < F.precision) :
    F.unitFor (m * Nat.pow 2 u) = u := by
  have hlt : m < 2 ^ F.precision := h.lt
  have hnormal : 2 ^ F.precision ≤ 2 * m ∨ u = 0 := h.normal
  rcases Nat.eq_zero_or_pos m with rfl | hm
  · have hpos : 0 < 2 ^ F.precision := Nat.two_pow_pos _
    have hu : u = 0 := by omega
    simp [Format.unitFor, hu]
  · have hne : m * Nat.pow 2 u ≠ 0 := (Nat.mul_pos hm (Nat.two_pow_pos u)).ne'
    have hup : m.log2 < F.precision := (Nat.log2_lt hm.ne').2 hlt
    rw [Format.unitFor, if_neg hne, log2_mul_pow u hm.ne']
    rcases hnormal with hfull | rfl
    · have hdouble : 2 ^ F.precision = 2 ^ (F.precision - 1) * 2 := by
        rw [← Nat.pow_succ, Nat.succ_eq_add_one, Nat.sub_add_cancel hp]
      have hlow : F.precision - 1 ≤ m.log2 := (Nat.le_log2 hm.ne').2 (by omega)
      omega
    · omega

namespace Binary

variable {F G : Format}

theorem ofRatio_mul_mul (F : Format) (negative : Bool) (num den k : Nat) (hk : 0 < k) :
    ofRatio F negative (num * k) (den * k) = ofRatio F negative num den := by
  have hnum : num * k * Nat.pow 2 F.scale = num * Nat.pow 2 F.scale * k := Nat.mul_right_comm ..
  have hden : ∀ u, den * k * Nat.pow 2 u = den * Nat.pow 2 u * k := fun u => Nat.mul_right_comm ..
  simp only [ofRatio, hnum, Nat.mul_div_mul_right _ _ hk, hden, divNearest_mul_mul _ _ _ hk]

@[simp] theorem ofRatio_zero (F : Format) (negative : Bool) (den : Nat) :
    ofRatio F negative 0 den = zero negative := by
  have hne : (0 : Nat) ≠ Nat.pow 2 F.precision := (Nat.two_pow_pos _).ne
  have hround : ∀ d, divNearest 0 d = 0 := fun d => by
    by_cases h : 0 < d <;> simp [divNearest, h]
  simp only [ofRatio, Nat.zero_mul, Nat.zero_div, Format.unitFor, if_true, hround, ofRounded,
    if_neg hne, dif_pos F.fits_zero, zero]

theorem ofRatio_self (negative : Bool) {m u : Nat} (h : F.Fits m u) (hp : 0 < F.precision) :
    ofRatio F negative (m * Nat.pow 2 u) (Nat.pow 2 F.scale) = .finite negative m u h := by
  have hs : 0 < Nat.pow 2 F.scale := Nat.two_pow_pos _
  have hu : 0 < Nat.pow 2 u := Nat.two_pow_pos _
  have hround : divNearest (m * Nat.pow 2 u * Nat.pow 2 F.scale)
      (Nat.pow 2 F.scale * Nat.pow 2 u) = m := by
    rw [Nat.mul_comm (Nat.pow 2 F.scale), divNearest_mul_mul _ _ _ hs, divNearest_mul _ _ hu]
  simp only [ofRatio, Nat.mul_div_cancel _ hs, Format.unitFor_steps h hp, hround, ofRounded,
    if_neg h.lt.ne, dif_pos h]

theorem convert_self {x : Binary F} (hp : 0 < F.precision) : x.convert F = x := by
  cases x with
  | nan => rfl
  | infinity s => rfl
  | finite s m u h => exact ofRatio_self s h hp

theorem isIntegral_iff (x : Binary F) :
    x.isIntegral = true ↔ x.isFinite = true ∧ Nat.pow 2 F.scale ∣ x.steps := by
  cases x <;> simp [isIntegral, isFinite, steps, Nat.dvd_iff_mod_eq_zero]

theorem steps_ofRounded {negative : Bool} {m u : Nat} (hp : 0 < F.precision)
    (h : (ofRounded F negative m u).isFinite = true) :
    (ofRounded F negative m u).steps = m * Nat.pow 2 u := by
  unfold ofRounded at h ⊢
  by_cases hcarry : m = Nat.pow 2 F.precision
  · have hpow : 2 ^ (F.precision - 1) * 2 ^ (u + 1) = 2 ^ F.precision * 2 ^ u := by
      rw [← Nat.pow_add, ← Nat.pow_add]
      congr 1
      omega
    simp only [if_pos hcarry] at h ⊢
    split at h
    · rename_i hfits
      rw [dif_pos hfits, steps, hcarry]
      exact hpow
    · simp [isFinite] at h
  · simp only [if_neg hcarry] at h ⊢
    split at h
    · rename_i hfits
      rw [dif_pos hfits, steps]
    · simp [isFinite] at h

theorem isIntegral_ofRatio_one {negative : Bool} {n : Nat} (hp : 0 < F.precision)
    (h : (ofRatio F negative n 1).isFinite = true) :
    (ofRatio F negative n 1).isIntegral = true := by
  refine (isIntegral_iff _).2 ⟨h, ?_⟩
  simp only [ofRatio, Nat.one_mul] at h ⊢
  rw [steps_ofRounded hp h]
  generalize F.unitFor (n * Nat.pow 2 F.scale / 1) = unit
  have hu : 0 < 2 ^ unit := Nat.two_pow_pos unit
  simp only [Nat.pow_eq]
  -- Either the unit divides a whole, and nothing is lost, or it is itself a multiple of one.
  rcases Nat.le_total unit F.scale with hle | hle
  · have hdvd : 2 ^ unit ∣ n * 2 ^ F.scale :=
      Dvd.dvd.mul_left (Nat.pow_dvd_pow 2 hle) n
    rw [divNearest_of_dvd hu hdvd, Nat.div_mul_cancel hdvd]
    exact Nat.dvd_mul_left ..
  · exact Dvd.dvd.mul_left (Nat.pow_dvd_pow 2 hle) _

end Binary

end RecordGraph.Number
