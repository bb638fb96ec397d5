import RecordGraph.Number.Decimal

/-!
The shortest decimal that reads back as a given binary number. Grids of one,
two, three digits and so on are tried in turn; on the first grid where one of
the number's two neighbours reads back, the nearer one is taken, and of two at
the same distance the one a tie rule names. Where no grid serves, the exact
expansion does.
-/

namespace RecordGraph.Number

inductive Tie where
  | larger
  | even
deriving DecidableEq, Repr

namespace Binary

variable {F : Format}

def maxDigits : Nat := 17

def decade (num den : Nat) : Int :=
  let n := (digitsOf num).length
  let d := (digitsOf den).length
  let reached := if d ≤ n then den * Nat.pow 10 (n - d) ≤ num else den ≤ num * Nat.pow 10 (d - n)
  if reached then (n : Int) - d else (n : Int) - d - 1

def roundsUp (tie : Tie) (low remainder den : Nat) : Bool :=
  den < 2 * remainder || (den == 2 * remainder && (tie == .larger || low % 2 == 1))

/-- The two neighbours of `num / den` among multiples of `10 ^ exponent`, and whether the
upper one comes first. -/
def neighbours (tie : Tie) (num den : Nat) (exponent : Int) : Nat × Nat × Bool :=
  let (n, d) :=
    if 0 ≤ exponent then (num, den * Nat.pow 10 exponent.toNat)
    else (num * Nat.pow 10 (-exponent).toNat, den)
  let low := n / d
  (low, if n % d = 0 then low else low + 1, roundsUp tie low (n % d) d)

def onGrid (tie : Tie) (x : Binary F) (negative : Bool) (num den : Nat) (top : Int) (count : Nat) :
    Option Decimal :=
  let exponent := top - (count - 1 : Nat)
  let (low, high, upper) := neighbours tie num den exponent
  let below : Decimal := ⟨negative, low, exponent⟩
  let above : Decimal := ⟨negative, high, exponent⟩
  let candidates := if upper then [above, below] else [below, above]
  candidates.find? fun d => decide (ofDecimal F d = x)

def exact (negative : Bool) (significand unit : Nat) : Decimal :=
  ⟨negative, significand * Nat.pow 2 unit * Nat.pow 5 F.scale, -(F.scale : Int)⟩

def trimmed (d : Decimal) : Decimal :=
  let (digits, zeros) := dropZeros d.digits
  if digits = 0 then ⟨d.negative, 0, 0⟩ else ⟨d.negative, digits, d.exponent + zeros⟩

def shortest (tie : Tie) (x : Binary F) : Option Decimal :=
  match x with
  | .finite negative m u _ =>
    if m = 0 then some ⟨negative, 0, 0⟩
    else
      let num := m * Nat.pow 2 u
      let den := Nat.pow 2 F.scale
      let top := decade num den
      let found := (List.range maxDigits).findSome? fun i => onGrid tie x negative num den top (i + 1)
      some (trimmed (found.getD (exact (F := F) negative m u)))
  | _ => none

def plainChars (x : Binary F) : List Char :=
  match x with
  | .nan => "NaN".toList
  | .infinity negative => if negative then "-inf".toList else "inf".toList
  | .finite .. => ((x.shortest .larger).map Decimal.plain).getD []

def plainText (x : Binary F) : String :=
  String.ofList (plainChars x)

def wholeChars (x : Binary F) : List Char :=
  match x with
  | .finite negative m u _ =>
    let ds := digitsOf (m * Nat.pow 2 u / Nat.pow 2 F.scale)
    if negative then '-' :: ds else ds
  | _ => []

def ofChars? (F : Format) (s : List Char) : Option (Binary F) :=
  if s = "NaN".toList then some .nan
  else if s = "inf".toList then some (.infinity false)
  else if s = "-inf".toList then some (.infinity true)
  else (Decimal.ofChars? s).map (ofDecimal F)

example : (ofRatio .double false 1 10).plainText = "0.1" := by decide +kernel
example : (ofRatio .double false 3 1).plainText = "3" := by decide +kernel
example : (ofRatio .single false 419430500 400).plainText = "1048576.3" := by decide +kernel

end Binary

end RecordGraph.Number
