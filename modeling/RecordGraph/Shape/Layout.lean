import RecordGraph.Shape.Basic

/-!
Layouts: the shapes of all fields of a record schema, in schema order. Binding a
record to a layout pairs each shape with its value and checks it; a related
record's inconsistencies are named by its path.
-/

namespace RecordGraph

structure Layout where
  fields : List (String × FieldShape)

namespace Layout

def classifyFields : List (String × Schema) → Except Inconsistency (List (String × FieldShape))
  | [] => .ok []
  | (name, schema) :: rest => do
    let shape ← FieldShape.classify name schema
    let more ← classifyFields rest
    return (name, shape) :: more

def classify (schema : RecordSchema) : Except Inconsistency Layout :=
  (classifyFields schema.fields).map Layout.mk

def shape? (layout : Layout) (name : String) : Option FieldShape :=
  (layout.fields.find? (fun f => f.1 = name)).map (·.2)

def structuralFields (layout : Layout) : List String :=
  (layout.fields.filter fun f => f.2.isStructural).map (·.1)

/-- A field's name and shape with the value a record holds for it. -/
structure Bound where
  name : String
  shape : FieldShape
  value : FieldValue

def bindFields (record : Record) : List (String × FieldShape) → Except Inconsistency (List Bound)
  | [] => .ok []
  | (name, shape) :: rest =>
    match record.get? name with
    | none => .error ⟨name, .missingField⟩
    | some value => do
      shape.check name value
      let more ← bindFields record rest
      return ⟨name, shape, value⟩ :: more

def bind (layout : Layout) (record : Record) : Except Inconsistency (List Bound) :=
  bindFields record layout.fields

def checkNested (layout : Layout) (record : Record) (path : String) : Except Inconsistency Unit :=
  match layout.bind record with
  | .ok _ => .ok ()
  | .error e => .error ⟨path ++ "." ++ e.field, e.reason⟩

end Layout

end RecordGraph
