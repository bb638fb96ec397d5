/-!
Relations: which edges a written node has to the records of a field. A relation
is an edge label, a direction seen from the node being written, and the name of
a field that holds related records; in one list each field stands once.
-/

namespace RecordGraph

inductive Direction where
  | outgoing
  | incoming
  | undirected
deriving DecidableEq, Repr

def Direction.char : Direction → Char
  | outgoing => '>'
  | incoming => '<'
  | undirected => '-'

def Direction.token (d : Direction) : String :=
  String.singleton d.char

def Direction.ofChars? : List Char → Option Direction
  | ['>'] => some outgoing
  | ['<'] => some incoming
  | ['-'] => some undirected
  | _ => none

@[simp] theorem Direction.ofChars?_char (d : Direction) : ofChars? [d.char] = some d := by
  cases d <;> rfl

structure Relation where
  label : String
  direction : Direction
  field : String
deriving DecidableEq

/-- Where a written relation stops following its form. -/
inductive RelationDefect where
  | expectedLabel
  | expectedDirection
  | expectedFieldName
  | expectedRelation
  | expectedEnd
  | incomplete
deriving DecidableEq

inductive RelationError where
  | malformed (fragment : String) (defect : RelationDefect)
  | duplicateTarget (field : String)
  | unknownTarget (field : String)
  | invalidWire (fragment : String)
deriving DecidableEq

def RelationDefect.text : RelationDefect → String
  | expectedLabel => "expected edge_label"
  | expectedDirection => "expected direction"
  | expectedFieldName => "expected field_name"
  | expectedRelation => "expected relation"
  | expectedEnd => "expected EOI"
  | incomplete => "incomplete relation"

def RelationError.message : RelationError → String
  | malformed fragment defect => "Malformed relation '" ++ fragment ++ "': " ++ defect.text
  | duplicateTarget field => "Duplicate relation target '" ++ field ++ "'"
  | unknownTarget field => "Relation target '" ++ field ++ "' is not a related-record field"
  | invalidWire fragment => "Invalid serialized relation '" ++ fragment ++ "'"

namespace Relation

def collect (read : String → Except RelationError Relation) :
    List Relation → List String → Except RelationError (List Relation)
  | done, [] => .ok done
  | done, fragment :: rest =>
    match read fragment with
    | .error e => .error e
    | .ok r =>
      if done.any (·.field = r.field) then .error (.duplicateTarget r.field)
      else collect read (done ++ [r]) rest

end Relation

end RecordGraph
