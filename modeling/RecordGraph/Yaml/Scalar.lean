import RecordGraph.Json.Reader
import RecordGraph.Number.Decimal

/-!
Kinds of scalars. A quoted scalar is text; a plain one is null, a boolean or a
number when it is written as one, and text otherwise. A tag may demand a kind. A
whole number that takes more than 64 bits, but no more than 128, has no kind.
-/

namespace RecordGraph.Yaml

inductive Scalar where
  | null
  | bool
  /-- A whole number written without a minus sign. -/
  | natural (n : Nat)
  /-- Any other number. -/
  | number
  | text (s : String)
deriving DecidableEq

namespace Scalar

def isNullWord (s : String) : Bool :=
  s ∈ ["~", "null", "Null", "NULL"]

def isBoolWord (s : String) : Bool :=
  s ∈ ["true", "True", "TRUE", "false", "False", "FALSE"]

/-! Whole numbers -/

def digits? (base : Nat) (s : List Char) : Option Nat :=
  if s.isEmpty then none
  else
    (s.mapM fun c => (Json.hexValue? c).filter (· < base)).map fun values =>
      values.foldl (fun n v => base * n + v) 0

def base? : Char → Option Nat
  | 'x' => some 16
  | 'o' => some 8
  | 'b' => some 2
  | _ => none

def isZeroPadded : List Char → Bool
  | '0' :: rest => !rest.isEmpty && rest.all Char.isDigit
  | _ => false

def whole? (s : List Char) : Option Nat :=
  if isZeroPadded s then none
  else
    match s with
    | '0' :: mark :: rest =>
      match base? mark with
      | some base => digits? base rest
      | none => digits? 10 s
    | _ => digits? 10 s

structure Signed where
  negative : Bool
  magnitude : Nat

def signed? : List Char → Option Signed
  | '-' :: s => (whole? s).map (⟨true, ·⟩)
  | '+' :: s => (whole? s).map (⟨false, ·⟩)
  | s => (whole? s).map (⟨false, ·⟩)

/-- Whether a whole number fits into so many bits, one of which holds the sign if there is one. -/
def Signed.fits (bits : Nat) (n : Signed) : Bool :=
  if n.negative then n.magnitude ≤ Nat.pow 2 (bits - 1) else n.magnitude < Nat.pow 2 bits

def Signed.kind (n : Signed) : Scalar :=
  if n.negative then number else natural n.magnitude

/-! Other numbers -/

def isSpecialNumber (s : String) : Bool :=
  s ∈ [".inf", ".Inf", ".INF", "+.inf", "+.Inf", "+.INF", "-.inf", "-.Inf", "-.INF",
    ".nan", ".NaN", ".NAN"]

def unsigned? : List Char → Option (List Char)
  | [] => none
  | c :: rest =>
    if c == '+' || c == '-' then
      if rest.head?.any fun d => d == '+' || d == '-' then none else some rest
    else some (c :: rest)

/-- Digits with an optional point before, among or after them, and an optional exponent; what
is too large is no number. -/
def isDecimal (s : List Char) : Bool :=
  let whole := s.takeWhile Char.isDigit
  let rest := s.dropWhile Char.isDigit
  let (places, rest) := match rest with
    | '.' :: r => (r.takeWhile Char.isDigit, r.dropWhile Char.isDigit)
    | r => ([], r)
  if whole.isEmpty && places.isEmpty then false
  else
    match Number.Decimal.exponentOf? rest with
    | none => false
    | some e =>
      let d : Number.Decimal := ⟨false, Number.valueOf (whole ++ places), e - places.length⟩
      (Number.Binary.ofDecimal .double d).isFinite

def isNumber (s : String) : Bool :=
  isSpecialNumber s || (unsigned? s.toList).any isDecimal

/-! Kinds -/

def ofOther (s : String) : Scalar :=
  if !(unsigned? s.toList).any isZeroPadded && isNumber s then number else text s

def ofPlain? (s : String) : Option Scalar :=
  if s.isEmpty || isNullWord s then some null
  else if isBoolWord s then some bool
  else
    match signed? s.toList with
    | none => some (ofOther s)
    | some n =>
      if n.fits 64 then some n.kind else if n.fits 128 then none else some (ofOther s)

/-! Tags -/

def isLocalTag (tag : String) : Bool :=
  tag.toList.head? = some '!'

def nullTag : String := "tag:yaml.org,2002:null"
def boolTag : String := "tag:yaml.org,2002:bool"
def intTag : String := "tag:yaml.org,2002:int"
def floatTag : String := "tag:yaml.org,2002:float"

def ofTagged? (tag s : String) : Option Scalar :=
  if isLocalTag tag then none
  else if tag = nullTag then if isNullWord s then some null else none
  else if tag = boolTag then if isBoolWord s then some bool else none
  else if tag = intTag then (signed? s.toList).bind fun n => if n.fits 64 then some n.kind else none
  else if tag = floatTag then if isNumber s then some number else none
  else some (text s)

def ofParts? (tag : Option String) (plain : Bool) (s : String) : Option Scalar :=
  match tag with
  | some tag => ofTagged? tag s
  | none => if plain then ofPlain? s else some (text s)

end Scalar

end RecordGraph.Yaml
