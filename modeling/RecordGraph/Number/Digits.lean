/-!
Decimal digits. Whole numbers are written without leading zeros and read from
any run of digits; a minus sign stands before a negative one.
-/

namespace RecordGraph.Number

def digitValue (c : Char) : Nat :=
  c.toNat - '0'.toNat

def valueOf (digits : List Char) : Nat :=
  digits.foldl (fun n c => 10 * n + digitValue c) 0

def digitsOf (n : Nat) : List Char :=
  Nat.toDigits 10 n

def natText (n : Nat) : String :=
  String.ofList (digitsOf n)

def intDigits (i : Int) : List Char :=
  if i < 0 then '-' :: digitsOf i.natAbs else digitsOf i.natAbs

def intText (i : Int) : String :=
  String.ofList (intDigits i)

@[simp] theorem toList_intText (i : Int) : (intText i).toList = intDigits i := by
  simp [intText]

@[simp] theorem toList_natText (n : Nat) : (natText n).toList = digitsOf n := by
  simp [natText]

def natOf? (s : List Char) : Option Nat :=
  if s.isEmpty || !s.all Char.isDigit then none else some (valueOf s)

def intOf? : List Char → Option Int
  | '-' :: s => (natOf? s).map fun n => -(n : Int)
  | s => (natOf? s).map Int.ofNat

/-- Removes factors of ten, counting them; zero has none. -/
def dropZeros (n : Nat) : Nat × Nat :=
  if _h : n ≠ 0 ∧ n % 10 = 0 then
    let (m, k) := dropZeros (n / 10)
    (m, k + 1)
  else (n, 0)
termination_by n
decreasing_by exact Nat.div_lt_self (Nat.pos_of_ne_zero _h.1) (by decide)

example : dropZeros 12300 = (123, 2) := by decide +kernel
example : intOf? "-120".toList = some (-120) := by decide

end RecordGraph.Number
