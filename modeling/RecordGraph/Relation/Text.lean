import RecordGraph.Relation.Basic
import RecordGraph.Statement.Quoted
import RecordGraph.Text.Split

/-!
The authored form of relations: `label:>(field)` or `label:<(field)`, several
of them separated by commas. A label runs to the first colon and is trimmed; a
field is a run of ASCII letters, digits and underscores.
-/

namespace RecordGraph.Relation

def inLabel (c : Char) : Bool :=
  c != ':' && c != ',' && c != '|'

/-- The field between parentheses that end a relation, as `label` and `direction` begin it. -/
def scanField (label : List Char) (direction : Direction) (s : List Char) :
    Except RelationDefect (List Char × Direction × List Char) :=
  match s with
  | '(' :: r =>
    let name := r.takeWhile Statement.continuesName
    if name.isEmpty then .error .expectedFieldName
    else
      match r.dropWhile Statement.continuesName with
      | [')'] => .ok (label, direction, name)
      | ')' :: _ => .error .expectedEnd
      | _ => .error .expectedRelation
  | _ => .error .expectedRelation

def scan (s : List Char) : Except RelationDefect (List Char × Direction × List Char) :=
  let label := s.takeWhile inLabel
  if label.isEmpty then .error .expectedLabel
  else
    match s.dropWhile inLabel with
    | ':' :: '>' :: r => scanField label .outgoing r
    | ':' :: '<' :: r => scanField label .incoming r
    | ':' :: _ => .error .expectedDirection
    | _ => .error .expectedRelation

def ofText (fragment : String) : Except RelationError Relation :=
  match scan fragment.toList with
  | .error defect => .error (.malformed fragment defect)
  | .ok (label, direction, field) =>
    let label := Text.trimChars label
    if label.isEmpty then .error (.malformed fragment .incomplete)
    else .ok ⟨String.ofList label, direction, String.ofList field⟩

def ofFragment (allowed : List String) (fragment : String) : Except RelationError Relation :=
  match ofText (Text.trim fragment) with
  | .error e => .error e
  | .ok r => if r.field ∈ allowed then .ok r else .error (.unknownTarget r.field)

def parseList (text : String) (allowed : List String) : Except RelationError (List Relation) :=
  if Text.isBlankText text then .ok []
  else collect (ofFragment allowed) [] (Text.split ',' text)

end RecordGraph.Relation
