import RecordGraph.Json.Basic

/-!
Writing JSON text, compactly or over indented lines. A floating-point number
always shows a point or an exponent, the latter from 10 ^ 16 up and from
10 ^ -6 down; what is not finite is written as null.
-/

namespace RecordGraph

open Number

namespace Json

def hexDigit (n : Nat) : Char :=
  if n < 10 then Char.ofNat ('0'.toNat + n) else Char.ofNat ('a'.toNat + (n - 10))

def escapeChar (c : Char) : List Char :=
  if c == '"' then ['\\', '"']
  else if c == '\\' then ['\\', '\\']
  else if c == '\n' then ['\\', 'n']
  else if c == '\t' then ['\\', 't']
  else if c == '\r' then ['\\', 'r']
  else if c == '\x08' then ['\\', 'b']
  else if c == '\x0c' then ['\\', 'f']
  else if c.toNat < 0x20 then
    ['\\', 'u', '0', '0', hexDigit (c.toNat / 16), hexDigit (c.toNat % 16)]
  else [c]

def quotedChars (s : List Char) : List Char :=
  '"' :: (s.flatMap escapeChar ++ ['"'])

def quoted (s : String) : String :=
  String.ofList (quotedChars s.toList)

/-- Powers of ten from which, and down to which, exponents are written. -/
def exponentFrom : Int := 16
def exponentDownTo : Int := -6

def decimalText (d : Decimal) : String :=
  if d.digits = 0 then String.ofList (d.sign ++ ['0', '.', '0'])
  else if exponentFrom ≤ d.magnitude ∨ d.magnitude ≤ exponentDownTo then
    String.ofList d.scientific
  else if 0 ≤ d.exponent then String.ofList (d.plain ++ ['.', '0'])
  else String.ofList d.plain

def doubleText (x : Double) : String :=
  match x.shortest .even with
  | some d => decimalText d
  | none => "null"

def numberText : JsonNumber → String
  | .whole i => intText i
  | .float x => doubleText x

mutual

def compact : Json → String
  | null => "null"
  | bool b => if b then "true" else "false"
  | number n => numberText n
  | string s => quoted s
  | array items => "[" ++ ",".intercalate (compactItems items) ++ "]"
  | object members => "\x7b" ++ ",".intercalate (compactMembers members) ++ "\x7d"

def compactItems : List Json → List String
  | [] => []
  | j :: rest => compact j :: compactItems rest

def compactMembers : List (String × Json) → List String
  | [] => []
  | (name, j) :: rest => (quoted name ++ ":" ++ compact j) :: compactMembers rest

end

def indent (level : Nat) : String :=
  String.ofList (List.replicate (2 * level) ' ')

/-- Bracketed lines, one for each part, or empty brackets. -/
def block (level : Nat) (opening closing : String) (parts : List String) : String :=
  if parts.isEmpty then opening ++ closing
  else
    let inner := "\n" ++ indent (level + 1)
    opening ++ inner ++ ("," ++ inner).intercalate parts ++ "\n" ++ indent level ++ closing

mutual

def prettyAt (level : Nat) : Json → String
  | array items => block level "[" "]" (prettyItems (level + 1) items)
  | object members => block level "\x7b" "\x7d" (prettyMembers (level + 1) members)
  | null => "null"
  | bool b => if b then "true" else "false"
  | number n => numberText n
  | string s => quoted s

def prettyItems (level : Nat) : List Json → List String
  | [] => []
  | j :: rest => prettyAt level j :: prettyItems level rest

def prettyMembers (level : Nat) : List (String × Json) → List String
  | [] => []
  | (name, j) :: rest => (quoted name ++ ": " ++ prettyAt level j) :: prettyMembers level rest

end

def pretty (j : Json) : String :=
  prettyAt 0 j

end Json

end RecordGraph
