import RecordGraph.Json.Basic

/-!
Numerals of JSON. A numeral without fraction and exponent is whole while it fits
64 bits; minus zero and every other numeral is a floating-point number. Its
significand is the longest run of digits below 2 ^ 64, and the power of ten is
applied to it in one rounded multiplication or in rounded divisions.
-/

namespace RecordGraph

open Number

structure Numeral where
  negative : Bool
  whole : List Char
  fraction : Option (List Char)
  exponent : Option Int
deriving DecidableEq

namespace Numeral

def digitRun (s : List Char) : List Char × List Char :=
  (s.takeWhile Char.isDigit, s.dropWhile Char.isDigit)

def scanExponent : List Char → Option (Option Int × List Char)
  | c :: s =>
    if c == 'e' || c == 'E' then
      let (negative, s) := Decimal.signed s
      let (digits, rest) := digitRun s
      if digits.isEmpty then none
      else
        let e : Int := valueOf digits
        some (some (if negative then -e else e), rest)
    else some (none, c :: s)
  | [] => some (none, [])

def scanFraction : List Char → Option (Option (List Char) × List Char)
  | '.' :: s =>
    let (digits, rest) := digitRun s
    if digits.isEmpty then none else some (some digits, rest)
  | s => some (none, s)

def scan (s : List Char) : Option (Numeral × List Char) :=
  let (negative, s) := match s with
    | '-' :: r => (true, r)
    | r => (false, r)
  let (whole, rest) := digitRun s
  let refused := match whole with
    | [] => true
    | '0' :: _ :: _ => true
    | _ => false
  if refused then none
  else
    (scanFraction rest).bind fun (fraction, rest) =>
    (scanExponent rest).map fun (exponent, rest) => (⟨negative, whole, fraction, exponent⟩, rest)

def limit : Nat := 18446744073709551616

def absorb (significand : Nat) : List Char → Nat × List Char
  | [] => (significand, [])
  | c :: rest =>
    let next := 10 * significand + digitValue c
    if next < limit then absorb next rest else (significand, c :: rest)

def powerOfTen (n : Nat) : Double :=
  Binary.ofRatio .double false (Nat.pow 10 n) 1

/-- Applies a power of ten; an infinite product is refused, a quotient goes on down to zero. -/
def applyPower (x : Double) (e : Int) : Option Double :=
  if 308 < e then (if x.isZero then some x else none)
  else if 0 ≤ e then
    let y := x.mul (powerOfTen e.toNat)
    if y.isInfinite then none else some y
  else if -308 ≤ e then some (x.div (powerOfTen (-e).toNat))
  else if x.isZero then some x
  else applyPower (x.div (powerOfTen 308)) (e + 308)
termination_by e.natAbs
decreasing_by omega

def floatValue (n : Numeral) : Option Double :=
  let (significand, overflow) := absorb 0 n.whole
  let fraction := n.fraction.getD []
  let (significand, unused) := absorb significand fraction
  let used := fraction.length - unused.length
  let e := (overflow.length : Int) - used + n.exponent.getD 0
  (applyPower (Binary.ofInt .double significand) e).map fun x => if n.negative then x.negate else x

def value (n : Numeral) : Option JsonNumber :=
  if n.fraction.isNone && n.exponent.isNone then
    let i := valueOf n.whole
    if !n.negative && i < limit then some (.whole i)
    else if n.negative && 0 < i && 2 * i ≤ limit then some (.whole (-(i : Int)))
    else n.floatValue.map .float
  else n.floatValue.map .float

end Numeral

end RecordGraph
