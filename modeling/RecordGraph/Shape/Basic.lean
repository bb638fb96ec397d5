import RecordGraph.Record.Basic

/-!
Field shapes. A field holds a scalar, a list of scalars, a nested record or a
list of records; a union with null makes the field or its elements nullable.
Whatever does not fit is an inconsistency of a named field.
-/

namespace RecordGraph

open Number

inductive ScalarType where
  | boolean
  | int
  | long
  | float
  | double
  | string
deriving DecidableEq, Repr

namespace ScalarType

def ofSchema? : Schema → Option ScalarType
  | .boolean => some boolean
  | .int => some int
  | .long => some long
  | .float => some float
  | .double => some double
  | .string => some string
  | _ => none

def name : ScalarType → String
  | boolean => "Boolean"
  | int => "Int"
  | long => "Long"
  | float => "Float"
  | double => "Double"
  | string => "String"

def accepts : ScalarType → FieldValue → Bool
  | boolean, .boolean _ => true
  | int, .int _ | int, .long _ | long, .int _ | long, .long _ => true
  | float, .float _ | float, .double _ | double, .float _ | double, .double _ => true
  | string, .string _ => true
  | _, _ => false

def isQuoted : ScalarType → Bool
  | string => true
  | _ => false

end ScalarType

inductive ShapeKind where
  | scalar (type : ScalarType)
  | scalarList (type : ScalarType)
  | nested (schema : RecordSchema)
  | nestedList (schema : RecordSchema)

/-- What a value was expected to be. -/
inductive Expectation where
  | scalar (type : ScalarType)
  | scalars (type : ScalarType)
  | record (name : String)
  | recordsOf (name : String)
  | records

inductive Reason where
  | nullValue
  | nullElement
  | mismatch (expected : Expectation) (found : String)
  | unsupportedItems (schema : Schema)
  | unsupportedSchema (schema : Schema)
  | nestedUnion
  | onlyNull
  | severalMembers (schema : Schema)
  | typedNull
  | missingField
  | structuralProperty
  | recordLiteral
  | notFinite (text : String)

structure Inconsistency where
  field : String
  reason : Reason

def Expectation.text : Expectation → String
  | scalar type => type.name
  | scalars type => "array of " ++ type.name
  | record name => "record " ++ name
  | recordsOf name => "array of record " ++ name
  | records => "array of records"

def Reason.text : Reason → String
  | nullValue => "null value in a non-nullable field"
  | nullElement => "null element in a non-nullable array"
  | mismatch expected found => "expected " ++ expected.text ++ ", found " ++ found
  | unsupportedItems schema => "unsupported array items " ++ schema.display
  | unsupportedSchema schema => "unsupported schema " ++ schema.display
  | nestedUnion => "nested union"
  | onlyNull => "union without a non-null member"
  | severalMembers schema => "union with several non-null members " ++ schema.display
  | typedNull => "field typed as null"
  | missingField => "field missing from record"
  | structuralProperty => "structural field rendered as a property"
  | recordLiteral => "record value cannot be rendered as a literal"
  | notFinite text => text ++ " has no literal form"

structure FieldShape where
  kind : ShapeKind
  nullable : Bool
  /-- Only lists have elements, so this is false for the other kinds. -/
  nullableItems : Bool

namespace ShapeKind

def isStructural : ShapeKind → Bool
  | nested _ | nestedList _ => true
  | _ => false

def expectation : ShapeKind → Expectation
  | scalar type => .scalar type
  | scalarList type => .scalars type
  | nested schema => .record schema.name
  | nestedList schema => .recordsOf schema.name

end ShapeKind

namespace FieldShape

def isStructural (shape : FieldShape) : Bool :=
  shape.kind.isStructural

def checkScalars (type : ScalarType) (nullable : Bool) : List FieldValue → Except Reason Unit
  | [] => .ok ()
  | v :: rest =>
    if v.isNull then
      if nullable then checkScalars type nullable rest else .error .nullElement
    else if type.accepts v then checkScalars type nullable rest
    else .error (.mismatch (.scalars type) v.typeName)

def checkRecords (nullable : Bool) : List FieldValue → Except Reason Unit
  | [] => .ok ()
  | .record _ _ :: rest => checkRecords nullable rest
  | v :: rest =>
    if v.isNull && nullable then checkRecords nullable rest
    else .error (.mismatch .records v.typeName)

def checkValue (shape : FieldShape) (value : FieldValue) : Except Reason Unit :=
  if value.isNull then
    if shape.nullable then .ok () else .error .nullValue
  else
    match shape.kind, value with
    | .scalarList type, .array items => checkScalars type shape.nullableItems items
    | .nestedList _, .array items => checkRecords shape.nullableItems items
    | .nested _, .record _ _ => .ok ()
    | kind, v =>
      match kind with
      | .scalar type =>
        if type.accepts v then .ok () else .error (.mismatch kind.expectation v.typeName)
      | _ => .error (.mismatch kind.expectation v.typeName)

def check (shape : FieldShape) (field : String) (value : FieldValue) : Except Inconsistency Unit :=
  (shape.checkValue value).mapError fun reason => ⟨field, reason⟩

/-- Resolves a union with null to its one other member, and tells whether null was there. -/
def stripNull (schema : Schema) : Except Reason (Schema × Bool) :=
  match schema with
  | .union members =>
    match members.filter fun m => !m.isNull with
    | [.union _] => .error .nestedUnion
    | [single] => .ok (single, members.any Schema.isNull)
    | [] => .error .onlyNull
    | _ => .error (.severalMembers schema)
  | .null => .error .typedNull
  | other => .ok (other, false)

def ofSchema (schema : Schema) : Except Reason FieldShape := do
  let (resolved, nullable) ← stripNull schema
  match ScalarType.ofSchema? resolved, resolved with
  | some type, _ => return ⟨.scalar type, nullable, false⟩
  | none, .record name fields => return ⟨.nested ⟨name, fields⟩, nullable, false⟩
  | none, .array items =>
    let (item, nullableItems) ← stripNull items
    match ScalarType.ofSchema? item, item with
    | some type, _ => return ⟨.scalarList type, nullable, nullableItems⟩
    | none, .record name fields => return ⟨.nestedList ⟨name, fields⟩, nullable, nullableItems⟩
    | none, other => throw (.unsupportedItems other)
  | none, other => throw (.unsupportedSchema other)

def classify (field : String) (schema : Schema) : Except Inconsistency FieldShape :=
  (ofSchema schema).mapError fun reason => ⟨field, reason⟩

end FieldShape

end RecordGraph
