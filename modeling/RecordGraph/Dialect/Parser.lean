import RecordGraph.Dialect.Scan
import RecordGraph.Dialect.Statement

/-!
Parsing of statements. Integers out of range and repeated properties are refused
only in a text that is otherwise a statement, so each rule returns a checked
value, and the first failed check from the left is the answer.
-/

namespace RecordGraph

open Number

inductive ParseError where
  | malformed
  | integerOutOfRange (text : String)
  | duplicateProperty (key : String)
deriving DecidableEq

def ParseError.message : ParseError → String
  | malformed => "Parse error"
  | integerOutOfRange text => "Semantic error: integer out of range: " ++ text
  | duplicateProperty key => "Semantic error: duplicate property '" ++ key ++ "'"

namespace Dialect

open RecordGraph.Statement (isAsciiDigit)

abbrev Checked (α : Type) := Except ParseError α

def checkAll {α : Type} : List (Checked α) → Checked (List α)
  | [] => .ok []
  | x :: rest => do
    let x ← x
    let more ← checkAll rest
    return x :: more

def signedDigits (s : List Char) : Option ((Bool × List Char) × List Char) :=
  let (negative, s) := match s with
    | '-' :: r => (true, r)
    | r => (false, r)
  let digits := s.takeWhile isAsciiDigit
  if digits.isEmpty then none else some ((negative, digits), s.dropWhile isAsciiDigit)

def exponent : Rule Int
  | c :: s =>
    if c == 'e' || c == 'E' then
      let (negative, s) := Decimal.signed s
      let digits := s.takeWhile isAsciiDigit
      if digits.isEmpty then none
      else
        let e : Int := valueOf digits
        some (if negative then -e else e, s.dropWhile isAsciiDigit)
    else none
  | [] => none

def fraction : Rule (List Char)
  | '.' :: s =>
    let digits := s.takeWhile isAsciiDigit
    if digits.isEmpty then none else some (digits, s.dropWhile isAsciiDigit)
  | _ => none

def integerValue (negative : Bool) (digits : List Char) : Checked PropertyValue :=
  let n : Int := if negative then -(valueOf digits : Int) else valueOf digits
  if Int64.minValue.toInt ≤ n ∧ n ≤ Int64.maxValue.toInt then .ok (.integer (Int64.ofInt n))
  else .error (.integerOutOfRange (String.ofList (if negative then '-' :: digits else digits)))

def floatValue (negative : Bool) (whole fraction : List Char) (e : Int) : PropertyValue :=
  .float (Binary.ofDecimal .double ⟨negative, valueOf (whole ++ fraction), e - fraction.length⟩)

/-- A number with a fraction or an exponent is floating-point, any other an integer. -/
def number : Rule (Checked PropertyValue) := fun s =>
  (signedDigits s).map fun ((negative, whole), r) =>
    match fraction r with
    | some (places, r) =>
      match exponent r with
      | some (e, r) => (.ok (floatValue negative whole places e), r)
      | none => (.ok (floatValue negative whole places 0), r)
    | none =>
      match exponent r with
      | some (e, r) => (.ok (floatValue negative whole [] e), r)
      | none => (integerValue negative whole, r)

def value : Nat → Rule (Checked PropertyValue)
  | 0, _ => none
  | depth + 1, s =>
    match s with
    | '\'' :: r => (stringBody r).map fun (t, r) => (.ok (.string (String.ofList t)), r)
    | '[' :: r =>
      (enclosed (value depth) ']' r).map fun (vs, r) => ((checkAll vs).map .list, r)
    | s =>
      match word "null".toList s with
      | some r => some (.ok .null, r)
      | none =>
        match word "true".toList s with
        | some r => some (.ok (.boolean true), r)
        | none =>
          match word "false".toList s with
          | some r => some (.ok (.boolean false), r)
          | none => number s

/-- A value of any depth; none can nest deeper than the text is long. -/
def anyValue : Rule (Checked PropertyValue) := fun s =>
  value (s.length + 1) s

def property : Rule (String × Checked PropertyValue) := fun s => do
  let (key, r) ← name s
  let r ← token [':'] (skip r)
  let (v, r) ← anyValue (skip r)
  return ((key, v), r)

def propertyMap : PropertyMap → List (String × Checked PropertyValue) → Checked PropertyMap
  | done, [] => .ok done
  | done, (key, v) :: rest =>
    match v with
    | .error e => .error e
    | .ok v =>
      if done.contains key then .error (.duplicateProperty key)
      else propertyMap (done.insert key v) rest

def properties (s : List Char) : Option (List (String × Checked PropertyValue)) × List Char :=
  match (token ['{'] s).bind (enclosed property '}') with
  | some (ps, r) => (some ps, r)
  | none => (none, s)

def label : Rule String := fun s => do
  let r ← token [':'] s
  name (skip r)

def nodePattern : Rule (Checked NodePattern) := fun s => do
  let r ← token ['('] s
  let (var, r) ← variableName (skip r)
  let (labels, r) := many label r.length r
  let (ps, r) := properties (skip r)
  let r ← token [')'] (skip r)
  return ((propertyMap .empty (ps.getD [])).map fun m => ⟨var, labels, m⟩, r)

def nodeReference : Rule String := fun s => do
  let r ← token ['('] s
  let (var, r) ← variableName (skip r)
  let r ← token [')'] (skip r)
  return (var, r)

def edgeBetween (opening closing : String) (arrow : Arrow) : Rule (String × Arrow) := fun s => do
  let r ← token opening.toList s
  let r ← token [':'] (skip r)
  let (type, r) ← name (skip r)
  let r ← token closing.toList (skip r)
  return ((type, arrow), r)

def edge : Rule (String × Arrow) := fun s =>
  edgeBetween "-[" "]->" .leftToRight s
    <|> edgeBetween "<-[" "]-" .rightToLeft s
    <|> edgeBetween "-[" "]-" .undirected s

def relationshipPattern : Rule RelationshipPattern := fun s => do
  let (left, r) ← nodeReference s
  let ((type, arrow), r) ← edge (skip r)
  let (right, r) ← nodeReference (skip r)
  return (⟨left, right, type, arrow⟩, r)

def matchClause : Rule (Checked Clause) := fun s => do
  let r ← keyword "match".toList s
  let (p, r) ← nodePattern (skip r)
  return (p.map .matchNode, r)

/-- A relationship is tried before a node, which its first reference resembles. -/
def mergeClause : Rule (Checked Clause) := fun s => do
  let r ← keyword "merge".toList s
  match relationshipPattern (skip r) with
  | some (p, r) => return (.ok (.mergeRelationship p), r)
  | none =>
    let (p, r) ← nodePattern (skip r)
    return (p.map .mergeNode, r)

def setClause : Rule (Checked Clause) := fun s => do
  let r ← keyword "set".toList s
  let (var, r) ← variableName (skip r)
  let r ← token ['.'] (skip r)
  let (key, r) ← name (skip r)
  let r ← token ['='] (skip r)
  let (v, r) ← anyValue (skip r)
  return (v.map fun v => .set ⟨var, key, v⟩, r)

def clause : Rule (Checked Clause) := fun s =>
  matchClause s <|> mergeClause s <|> setClause s

def returnClause : Rule String := fun s => do
  let r ← keyword "return".toList s
  variableName (skip r)

def statement (s : List Char) : Option (Checked Statement) := do
  let (clauses, r) := many clause s.length s
  let (returns, r) ← returnClause (skip r)
  if (skip r).isEmpty then
    return (checkAll clauses).map fun cs => ⟨cs, returns⟩
  else none

def parse (text : String) : Except ParseError Statement :=
  (statement text.toList).getD (.error .malformed)

end Dialect

end RecordGraph
