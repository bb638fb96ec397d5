import RecordGraph.Number.Binary
import RecordGraph.Number.Digits

/-!
Decimal numbers `± digits * 10 ^ exponent`, their positional and scientific
texts, and the binary number nearest to one. Reading takes an optional sign, a
whole part, an optional fraction and an optional exponent.
-/

namespace RecordGraph.Number

structure Decimal where
  negative : Bool
  digits : Nat
  exponent : Int
deriving DecidableEq, Repr

namespace Decimal

def signed : List Char → Bool × List Char
  | '-' :: s => (true, s)
  | '+' :: s => (false, s)
  | s => (false, s)

def exponentOf? : List Char → Option Int
  | [] => some 0
  | c :: s =>
    if c == 'e' || c == 'E' then
      let (negative, s) := signed s
      (natOf? s).map fun n => if negative then -(n : Int) else n
    else none

def ofChars? (s : List Char) : Option Decimal :=
  let (negative, s) := signed s
  let whole := s.takeWhile Char.isDigit
  let rest := s.dropWhile Char.isDigit
  let (fraction, rest) :=
    match rest with
    | '.' :: r => (r.takeWhile Char.isDigit, r.dropWhile Char.isDigit)
    | r => ([], r)
  if whole.isEmpty then none
  else (exponentOf? rest).map fun e => ⟨negative, valueOf (whole ++ fraction), e - fraction.length⟩

def sign (d : Decimal) : List Char :=
  if d.negative then ['-'] else []

def plain (d : Decimal) : List Char :=
  let ds := digitsOf d.digits
  d.sign ++
    if 0 ≤ d.exponent then
      if d.digits = 0 then ds else ds ++ List.replicate d.exponent.toNat '0'
    else
      let places := (-d.exponent).toNat
      if ds.length ≤ places then
        '0' :: '.' :: (List.replicate (places - ds.length) '0' ++ ds)
      else ds.take (ds.length - places) ++ '.' :: ds.drop (ds.length - places)

def magnitude (d : Decimal) : Int :=
  d.exponent + (digitsOf d.digits).length - 1

def scientific (d : Decimal) : List Char :=
  let mantissa :=
    match digitsOf d.digits with
    | first :: second :: more => first :: '.' :: second :: more
    | ds => ds
  let e := d.magnitude
  d.sign ++ mantissa ++ 'e' :: (if e < 0 then '-' else '+') :: digitsOf e.natAbs

end Decimal

namespace Binary

/-- Beyond this power of ten every format here overflows, and below its opposite vanishes. -/
def decimalReach : Int := 400

def ofDecimal (F : Format) (d : Decimal) : Binary F :=
  if d.digits = 0 then zero d.negative
  else if decimalReach < d.magnitude then .infinity d.negative
  else if d.magnitude < -decimalReach then zero d.negative
  else if 0 ≤ d.exponent then ofRatio F d.negative (d.digits * Nat.pow 10 d.exponent.toNat) 1
  else ofRatio F d.negative d.digits (Nat.pow 10 (-d.exponent).toNat)

end Binary

example : (Decimal.ofChars? "-12.50e-3".toList).map Decimal.plain = some "-0.01250".toList := by
  decide +kernel

end RecordGraph.Number
