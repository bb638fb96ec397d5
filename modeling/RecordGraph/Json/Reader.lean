import RecordGraph.Json.Written

/-!
Reading JSON text. Each rule takes the characters ahead and returns what it found
with what remains; it settles the form only, and values are read off the result.
Nesting and runs of elements recur on a bound on the characters that remain.
-/

namespace RecordGraph.Json

def isSpace (c : Char) : Bool :=
  c == ' ' || c == '\n' || c == '\t' || c == '\r'

def skip (s : List Char) : List Char :=
  s.dropWhile isSpace

def hexValue? (c : Char) : Option Nat :=
  if '0' ≤ c ∧ c ≤ '9' then some (c.toNat - '0'.toNat)
  else if 'a' ≤ c ∧ c ≤ 'f' then some (c.toNat - 'a'.toNat + 10)
  else if 'A' ≤ c ∧ c ≤ 'F' then some (c.toNat - 'A'.toNat + 10)
  else none

def unit? (a b c d : Char) : Option Nat := do
  let a ← hexValue? a
  let b ← hexValue? b
  let c ← hexValue? c
  let d ← hexValue? d
  return ((a * 16 + b) * 16 + c) * 16 + d

def simpleEscape? : Char → Option Char
  | '"' => some '"'
  | '\\' => some '\\'
  | '/' => some '/'
  | 'b' => some '\x08'
  | 'f' => some '\x0c'
  | 'n' => some '\n'
  | 'r' => some '\r'
  | 't' => some '\t'
  | _ => none

abbrev Rule (α : Type) := List Char → Option (α × List Char)

def stringBody : Rule (List TextUnit)
  | '"' :: rest => some ([], rest)
  | '\\' :: 'u' :: a :: b :: c :: d :: rest =>
    (unit? a b c d).bind fun n => (stringBody rest).map fun (s, r) => (.unit n :: s, r)
  | '\\' :: c :: rest =>
    (simpleEscape? c).bind fun e => (stringBody rest).map fun (s, r) => (.char e :: s, r)
  | c :: rest =>
    if c.toNat < 0x20 || c == '\\' then none
    else (stringBody rest).map fun (s, r) => (.char c :: s, r)
  | [] => none

/-- Elements separated by commas up to `close`; the first one stands ahead. -/
def elements {α : Type} (close : Char) (element : Rule α) : Nat → Rule (List α)
  | 0, _ => none
  | fuel + 1, s =>
    (element s).bind fun (x, r) =>
      match skip r with
      | ',' :: r => (elements close element fuel (skip r)).map fun (xs, r) => (x :: xs, r)
      | c :: r => if c == close then some ([x], r) else none
      | [] => none

def enclosed {α : Type} (close : Char) (element : Rule α) (fuel : Nat) (s : List Char) :
    Option (List α × List Char) :=
  match skip s with
  | [] => none
  | c :: r => if c == close then some ([], r) else elements close element fuel (c :: r)

def member (value : Rule Written) : Rule (List TextUnit × Written)
  | '"' :: s =>
    (stringBody s).bind fun (name, r) =>
      match skip r with
      | ':' :: r => (value r).map fun (j, r) => ((name, j), r)
      | _ => none
  | _ => none

def written (bound : Nat) (s : List Char) : Option (Written × List Char) :=
  match skip s with
  | 'n' :: 'u' :: 'l' :: 'l' :: r => some (.null, r)
  | 't' :: 'r' :: 'u' :: 'e' :: r => some (.bool true, r)
  | 'f' :: 'a' :: 'l' :: 's' :: 'e' :: r => some (.bool false, r)
  | '"' :: r => (stringBody r).map fun (s, r) => (.string s, r)
  | '[' :: r =>
    match bound with
    | 0 => none
    | bound + 1 => (enclosed ']' (written bound) bound r).map fun (items, r) => (.array items, r)
  | '{' :: r =>
    match bound with
    | 0 => none
    | bound + 1 =>
      (enclosed '}' (member (written bound)) bound r).map fun (members, r) => (.object members, r)
  | r => (Numeral.scan r).map fun (n, r) => (.numeral n, r)
termination_by structural bound

def Written.read? (text : String) : Option Written :=
  (written text.toList.length text.toList).bind fun (w, r) =>
    if (skip r).isEmpty then some w else none

def maxDepth : Nat := 127

def read? (text : String) : Option Json :=
  (Written.read? text).bind (Written.value? maxDepth)

end RecordGraph.Json
