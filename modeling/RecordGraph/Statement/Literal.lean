import RecordGraph.Shape.Basic
import RecordGraph.Statement.Quoted

/-!
Literals and properties of statements. Every value that enters a statement is
rendered here; a floating-point literal shows a point, and its value must be
finite. A null property is left out or written, as the policy says.
-/

namespace RecordGraph

open Number

/-- What becomes of null values, and of empty strings when nulls are written. -/
inductive NullPolicy where
  | dropNull
  | writeNull
deriving DecidableEq, Repr, Inhabited

inductive Delimiter where
  | property
  | assignment
deriving DecidableEq, Repr

def Delimiter.text : Delimiter → String
  | property => ":"
  | assignment => "="

namespace Statement

def floatLiteral {F : Format} (x : Binary F) : Except Reason String :=
  if !x.isFinite then .error (.notFinite x.plainText)
  else if x.isIntegral then .ok (String.ofList (x.wholeChars ++ ['.', '0']))
  else .ok x.plainText

mutual

def literal (escape : Escape) : FieldValue → Except Reason String
  | .null => .ok "null"
  | .boolean b => .ok (if b then "true" else "false")
  | .int i => .ok (intText i.toInt)
  | .long i => .ok (intText i.toInt)
  | .float x => floatLiteral x
  | .double x => floatLiteral x
  | .string s => .ok (quote escape s)
  | .array items => (literals escape items).map fun texts => "[" ++ ",".intercalate texts ++ "]"
  | .record _ _ => .error .recordLiteral

def literals (escape : Escape) : List FieldValue → Except Reason (List String)
  | [] => .ok []
  | v :: rest => do
    let text ← literal escape v
    let more ← literals escape rest
    return text :: more

end

def property? (escape : Escape) (name : String) (value : FieldValue) (shape : FieldShape)
    (delimiter : Delimiter) (nulls : NullPolicy) : Except Inconsistency (Option String) :=
  let rendered (text : String) := some (escapeName name ++ delimiter.text ++ text)
  if shape.isStructural then .error ⟨name, .structuralProperty⟩
  else
    match nulls with
    | .dropNull =>
      if value.isNull then .ok none
      else ((literal escape value).map rendered).mapError fun r => ⟨name, r⟩
    | .writeNull =>
      if value.isBlank then .ok (rendered "null")
      else ((literal escape value).map rendered).mapError fun r => ⟨name, r⟩

def propertyMap (properties : List String) : String :=
  "\x7b" ++ ",".intercalate properties ++ "\x7d"

end Statement

end RecordGraph
