import RecordGraph.Relation.Basic
import RecordGraph.Text.Split

/-!
The wire form of relations: `field|direction|label`, several of them separated
by commas. It carries relations from configuration to execution.
-/

namespace RecordGraph.Relation

def toWire (r : Relation) : String :=
  r.field ++ "|" ++ r.direction.token ++ "|" ++ r.label

def ofWire (fragment : String) : Except RelationError Relation :=
  match Text.splitChars '|' fragment.toList with
  | [field, direction, label] =>
    if field.isEmpty || label.isEmpty then .error (.invalidWire fragment)
    else
      match Direction.ofChars? direction with
      | none => .error (.invalidWire fragment)
      | some d => .ok ⟨String.ofList label, d, String.ofList field⟩
  | _ => .error (.invalidWire fragment)

def encodeList (relations : List Relation) : String :=
  ",".intercalate (relations.map toWire)

/-- Reads a list of fragments, each trimmed; blank text is the empty list. -/
def decodeList (wire : String) : Except RelationError (List Relation) :=
  if Text.isBlankText wire then .ok []
  else collect (fun fragment => ofWire (Text.trim fragment)) [] (Text.split ',' wire)

end RecordGraph.Relation
