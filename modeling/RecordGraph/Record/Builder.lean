import RecordGraph.Record.Basic
import RecordGraph.Slots

/-!
Records built by calls. A builder keeps every call in order and looks at none of them
before the end. Then the values are written to slots by name, up to the first name that
the schema does not have, and each field of the schema takes its own out of them.
-/

namespace RecordGraph

structure RecordBuilder where
  schema : RecordSchema
  given : List (String × FieldValue)

def Record.builder (schema : RecordSchema) : RecordBuilder :=
  ⟨schema, []⟩

namespace RecordBuilder

def set (b : RecordBuilder) (name : String) (value : FieldValue) : RecordBuilder :=
  { b with given := b.given ++ [(name, value)] }

def setAll (b : RecordBuilder) (calls : List (String × FieldValue)) : RecordBuilder :=
  calls.foldl (fun b c => b.set c.1 c.2) b

def supply (schema : RecordSchema) :
    Slots FieldValue → List (String × FieldValue) → Except SchemaError (Slots FieldValue)
  | supplied, [] => .ok supplied
  | supplied, (name, value) :: rest =>
    match schema.field? name with
    | none => .error (.unknownField schema.name name)
    | some _ => supply schema (supplied.write name value) rest

def takeFields : List (String × Schema) → Slots FieldValue → List (String × FieldValue)
  | [], _ => []
  | (name, _) :: rest, supplied =>
    let taken := supplied.takeOut name
    (name, taken.1.getD .null) :: takeFields rest taken.2

/-- A name that the schema has twice keeps its first slot in the record. -/
def build (b : RecordBuilder) : Except SchemaError Record := do
  let supplied ← supply b.schema .empty b.given
  return ⟨b.schema, (Slots.ofList (takeFields b.schema.fields supplied)).entries⟩

end RecordBuilder

def Record.build (schema : RecordSchema) (given : List (String × FieldValue)) :
    Except SchemaError Record :=
  ((Record.builder schema).setAll given).build

end RecordGraph
