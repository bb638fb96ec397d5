import RecordGraph.Record.Builder
import RecordGraph.Schema.Json

/-!
Records from JSON objects. The schema drives the reading: a number must fit its
type, an object may hold only declared names, and a union takes null if it can
and else the first member that the value fits. Absent names become null.
-/

namespace RecordGraph

namespace FieldValue

def mismatch (field : String) (schema : Schema) (json : Json) : SchemaError :=
  .valueMismatch field schema.display json.typeName

def decodeEach (decode : String → Json → Except SchemaError FieldValue) (field : String) :
    Nat → List Json → Except SchemaError (List FieldValue)
  | _, [] => .ok []
  | index, j :: rest => do
    let v ← decode (field ++ "[" ++ Number.natText index ++ "]") j
    let more ← decodeEach decode field (index + 1) rest
    return v :: more

/-- Decodes the members of an object; `decode` knows the fields of the record. -/
def decodeMembers (record : String) (decode : String → Json → Option (Except SchemaError FieldValue)) :
    List (String × Json) → Except SchemaError (List (String × FieldValue))
  | [] => .ok []
  | (name, j) :: rest =>
    match decode name j with
    | none => .error (.unknownField record name)
    | some result => do
      let v ← result
      let more ← decodeMembers record decode rest
      return (name, v) :: more

mutual

def decode (field : String) : Schema → Json → Except SchemaError FieldValue
  | .null, .null => .ok null
  | .boolean, .bool b => .ok (boolean b)
  | .int, .number n =>
    match n.toInt32? with
    | some i => .ok (int i)
    | none => .error (mismatch field .int (.number n))
  | .long, .number n =>
    match n.toInt64? with
    | some i => .ok (long i)
    | none => .error (mismatch field .long (.number n))
  | .float, .number n => .ok (float (n.toDouble.convert .single))
  | .double, .number n => .ok (double n.toDouble)
  | .string, .string s => .ok (string s)
  | .array items, .array values =>
    (decodeEach (fun f j => decode f items j) field 0 values).map array
  | .record name fields, .object members =>
    (decodeMembers name (fun f j => decodeField fields f j) members).bind fun given =>
      (Record.build ⟨name, fields⟩ given).map ofRecord
  | .union members, j =>
    if j matches .null ∧ members.any Schema.isNull then .ok null
    else
      match decodeUnion field members j with
      | some v => .ok v
      | none => .error (mismatch field (.union members) j)
  | schema, j => .error (mismatch field schema j)

def decodeField : List (String × Schema) → String → Json → Option (Except SchemaError FieldValue)
  | [], _, _ => none
  | (n, s) :: rest, name, j => if n = name then some (decode name s j) else decodeField rest name j

def decodeUnion (field : String) : List Schema → Json → Option FieldValue
  | [], _ => none
  | s :: rest, j =>
    if s.isNull then decodeUnion field rest j
    else
      match decode field s j with
      | .ok v => some v
      | .error _ => decodeUnion field rest j

end

end FieldValue

namespace Record

def ofJson (schema : RecordSchema) (json : Json) : Except SchemaError Record :=
  match json with
  | .object members =>
    (FieldValue.decodeMembers schema.name (fun f j => FieldValue.decodeField schema.fields f j)
      members).bind (build schema)
  | other => .error (.valueMismatch schema.name "record" other.typeName)

def parse (schema : RecordSchema) (text : String) : Except SchemaError Record :=
  match Json.read? text with
  | none => .error .invalidJson
  | some j => ofJson schema j.canonical

end Record

end RecordGraph
