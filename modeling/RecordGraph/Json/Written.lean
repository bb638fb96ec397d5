import RecordGraph.Json.Numeral

/-!
JSON as it is written. A numeral keeps its digits and a string its code units, so
that a text of the right form is told apart from one whose values all exist: a
numeral may be too large, a surrogate may stand alone, and arrays and objects may
be nested too deep.
-/

namespace RecordGraph.Json

/-- One character of a string, written as itself or by a code unit of 16 bits. -/
inductive TextUnit where
  | char (c : Char)
  | unit (n : Nat)
deriving DecidableEq

def isHighSurrogate (n : Nat) : Bool := 0xD800 ≤ n && n < 0xDC00
def isLowSurrogate (n : Nat) : Bool := 0xDC00 ≤ n && n < 0xE000

def ofSurrogates (high low : Nat) : Char :=
  Char.ofNat (0x10000 + (high - 0xD800) * 0x400 + (low - 0xDC00))

def chars? : List TextUnit → Option (List Char)
  | [] => some []
  | .char c :: rest => (chars? rest).map (c :: ·)
  | .unit high :: .unit low :: rest =>
    if isHighSurrogate high then
      if isLowSurrogate low then (chars? rest).map (ofSurrogates high low :: ·) else none
    else if isLowSurrogate high then none
    else (chars? (.unit low :: rest)).map (Char.ofNat high :: ·)
  | .unit n :: rest =>
    if isHighSurrogate n || isLowSurrogate n then none
    else (chars? rest).map (Char.ofNat n :: ·)

def text? (units : List TextUnit) : Option String :=
  (chars? units).map String.ofList

@[simp] theorem chars?_map_char (s : List Char) : chars? (s.map .char) = some s := by
  induction s with
  | nil => rfl
  | cons c s ih => simp [chars?, ih]

inductive Written where
  | null
  | bool (b : Bool)
  | numeral (n : Numeral)
  | string (units : List TextUnit)
  | array (items : List Written)
  | object (members : List (List TextUnit × Written))
deriving Inhabited

mutual

def Written.value? (depth : Nat) : Written → Option Json
  | .null => some .null
  | .bool b => some (.bool b)
  | .numeral n => n.value.map .number
  | .string units => (text? units).map .string
  | .array items =>
    match depth with
    | 0 => none
    | depth + 1 => (itemValues? depth items).map .array
  | .object members =>
    match depth with
    | 0 => none
    | depth + 1 => (memberValues? depth members).map .object

def itemValues? (depth : Nat) : List Written → Option (List Json)
  | [] => some []
  | item :: rest =>
    (item.value? depth).bind fun j => (itemValues? depth rest).map (j :: ·)

def memberValues? (depth : Nat) : List (List TextUnit × Written) → Option (List (String × Json))
  | [] => some []
  | (name, item) :: rest =>
    (text? name).bind fun name =>
    (item.value? depth).bind fun j => (memberValues? depth rest).map ((name, j) :: ·)

end

end RecordGraph.Json
