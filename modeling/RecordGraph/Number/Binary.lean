/-!
Binary floating-point numbers of a fixed format. A finite number is a sign and a
magnitude `significand * 2 ^ unit` in steps of `2 ^ -scale`, the smallest step of
the format, so every comparison is one of natural numbers. Any ratio rounds to
the nearest number, a tie going to the even significand.
-/

namespace RecordGraph.Number

structure Format where
  /-- Bits of a significand. -/
  precision : Nat
  /-- The smallest step is `2 ^ -scale`. -/
  scale : Nat
  /-- The largest unit, counted in doublings of the smallest step. -/
  maxUnit : Nat
deriving DecidableEq, Repr

def Format.single : Format := ⟨24, 149, 253⟩
def Format.double : Format := ⟨53, 1074, 2045⟩

/-- Significands fill the precision unless the unit is the smallest one. -/
structure Format.Fits (F : Format) (significand unit : Nat) : Prop where
  lt : significand < Nat.pow 2 F.precision
  normal : Nat.pow 2 F.precision ≤ 2 * significand ∨ unit = 0
  le : unit ≤ F.maxUnit

instance (F : Format) (m u : Nat) : Decidable (F.Fits m u) :=
  if h : m < Nat.pow 2 F.precision ∧ (Nat.pow 2 F.precision ≤ 2 * m ∨ u = 0) ∧ u ≤ F.maxUnit then
    isTrue ⟨h.1, h.2.1, h.2.2⟩
  else isFalse fun f => h ⟨f.lt, f.normal, f.le⟩

theorem Format.fits_zero (F : Format) : F.Fits 0 0 :=
  ⟨Nat.two_pow_pos _, .inr rfl, Nat.zero_le _⟩

inductive Binary (F : Format) where
  | nan
  | infinity (negative : Bool)
  | finite (negative : Bool) (significand unit : Nat) (fits : F.Fits significand unit)
deriving DecidableEq

abbrev Single := Binary .single
abbrev Double := Binary .double

namespace Binary

variable {F : Format}

def zero (negative : Bool) : Binary F :=
  .finite negative 0 0 F.fits_zero

instance : Inhabited (Binary F) := ⟨zero false⟩

def isFinite : Binary F → Bool
  | .finite .. => true
  | _ => false

def isInfinite : Binary F → Bool
  | .infinity _ => true
  | _ => false

def isZero : Binary F → Bool
  | .finite _ m _ _ => m == 0
  | _ => false

def steps : Binary F → Nat
  | .finite _ m u _ => m * Nat.pow 2 u
  | _ => 0

def isIntegral : Binary F → Bool
  | .finite _ m u _ => m * Nat.pow 2 u % Nat.pow 2 F.scale == 0
  | _ => false

def negate : Binary F → Binary F
  | .nan => .nan
  | .infinity s => .infinity !s
  | .finite s m u h => .finite (!s) m u h

/-- Numeric equality: the two zeros agree, and what is not a number equals nothing. -/
def equals : Binary F → Binary F → Bool
  | .infinity s, .infinity t => s == t
  | .finite s m u _, .finite t n v _ => m == n && u == v && (s == t || m == 0)
  | _, _ => false

theorem equals_comm (x y : Binary F) : x.equals y = y.equals x := by
  cases x with
  | nan => cases y <;> rfl
  | infinity s => cases y <;> first | rfl | exact BEq.comm
  | finite s m u _ =>
    cases y with
    | nan => rfl
    | infinity t => rfl
    | finite t n v _ =>
      change (m == n && u == v && (s == t || m == 0)) = (n == m && v == u && (t == s || n == 0))
      rw [show (u == v) = (v == u) from BEq.comm, show (s == t) = (t == s) from BEq.comm]
      by_cases h : m = n
      · subst h; rfl
      · rw [beq_false_of_ne h, beq_false_of_ne (Ne.symm h)]; rfl

theorem equals_self_iff (x : Binary F) : x.equals x = true ↔ x ≠ .nan := by
  cases x <;> simp [equals]

end Binary

def divNearest (num den : Nat) : Nat :=
  let q := num / den
  let r := num % den
  if 2 * r < den then q
  else if den < 2 * r then q + 1
  else if q % 2 = 0 then q else q + 1

theorem divNearest_mul (q den : Nat) (h : 0 < den) : divNearest (q * den) den = q := by
  simp [divNearest, Nat.mul_div_cancel _ h, h]

def Format.unitFor (F : Format) (steps : Nat) : Nat :=
  if steps = 0 then 0 else steps.log2 + 1 - F.precision

namespace Binary

/-- The number for a significand and a unit, renormalised when rounding has carried. -/
def ofRounded (F : Format) (negative : Bool) (significand unit : Nat) : Binary F :=
  let (m, u) :=
    if significand = Nat.pow 2 F.precision then (Nat.pow 2 (F.precision - 1), unit + 1)
    else (significand, unit)
  if h : F.Fits m u then .finite negative m u h else .infinity negative

def ofRatio (F : Format) (negative : Bool) (num den : Nat) : Binary F :=
  let num := num * Nat.pow 2 F.scale
  let unit := F.unitFor (num / den)
  ofRounded F negative (divNearest num (den * Nat.pow 2 unit)) unit

def ofInt (F : Format) (i : Int) : Binary F :=
  ofRatio F (i < 0) i.natAbs 1

def convert {F : Format} (G : Format) : Binary F → Binary G
  | .nan => .nan
  | .infinity s => .infinity s
  | .finite s m u _ => ofRatio G s (m * Nat.pow 2 u) (Nat.pow 2 F.scale)

def mul {F : Format} : Binary F → Binary F → Binary F
  | .finite s m u _, .finite t n v _ =>
    ofRatio F (s != t) (m * n * Nat.pow 2 (u + v)) (Nat.pow 2 (2 * F.scale))
  | .infinity s, .finite t n _ _ => if n = 0 then .nan else .infinity (s != t)
  | .finite s m _ _, .infinity t => if m = 0 then .nan else .infinity (s != t)
  | .infinity s, .infinity t => .infinity (s != t)
  | _, _ => .nan

def div {F : Format} : Binary F → Binary F → Binary F
  | .finite s m u _, .finite t n v _ =>
    if n = 0 then (if m = 0 then .nan else .infinity (s != t))
    else ofRatio F (s != t) (m * Nat.pow 2 u) (n * Nat.pow 2 v)
  | .infinity s, .finite t _ _ _ => .infinity (s != t)
  | .finite s _ _ _, .infinity t => zero (s != t)
  | _, _ => .nan

example : ofInt .double 9007199254740993 = ofInt .double 9007199254740992 := by decide +kernel
example : (ofRatio .double false 1 10).convert .single = ofRatio .single false 1 10 := by
  decide +kernel

end Binary

end RecordGraph.Number
