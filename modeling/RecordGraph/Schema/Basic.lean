import RecordGraph.Json.Writer

/-!
Schemas of records. A record schema names its fields in declaration order, each
name once; a schema is a simple type, an array, a record or a union of member
schemas. The display form is the one that error messages show.
-/

namespace RecordGraph

inductive Schema where
  | null
  | boolean
  | int
  | long
  | float
  | double
  | string
  | array (items : Schema)
  | record (name : String) (fields : List (String × Schema))
  | union (members : List Schema)
deriving Inhabited

structure RecordSchema where
  name : String
  fields : List (String × Schema)
deriving Inhabited

/-- What is wrong with the structure of a schema's JSON form. -/
inductive SchemaDefect where
  | objectWithoutType
  | recordWithoutName
  | recordWithoutFields (record : String)
  | fieldWithoutName (record : String)
  | fieldWithoutType (field : String)
  | arrayWithoutItems
  | unexpectedNode (node : Json)

inductive SchemaError where
  | invalidJson
  | unsupportedType (name : String)
  | malformed (defect : SchemaDefect)
  | duplicateField (record field : String)
  | unknownField (record field : String)
  | valueMismatch (field expected found : String)

def SchemaDefect.message : SchemaDefect → String
  | objectWithoutType => "object schema without 'type'"
  | recordWithoutName => "record without 'name'"
  | recordWithoutFields record => "record '" ++ record ++ "' without 'fields'"
  | fieldWithoutName record => "field without 'name' in '" ++ record ++ "'"
  | fieldWithoutType field => "field '" ++ field ++ "' without 'type'"
  | arrayWithoutItems => "array without 'items'"
  | unexpectedNode node => "unexpected schema node: " ++ node.compact

def SchemaError.message : SchemaError → String
  | invalidJson => "Invalid schema JSON"
  | unsupportedType name => "Unsupported schema type '" ++ name ++ "'"
  | malformed defect => "Malformed schema: " ++ defect.message
  | duplicateField record field => "Duplicate field '" ++ field ++ "' in record '" ++ record ++ "'"
  | unknownField record field => "Record '" ++ record ++ "' has no field '" ++ field ++ "'"
  | valueMismatch field expected found =>
    "Field '" ++ field ++ "': expected " ++ expected ++ ", found " ++ found

namespace RecordSchema

/-- The first name that stands a second time. -/
def firstRepeated? : List String → List String → Option String
  | _, [] => none
  | seen, name :: rest =>
    if name ∈ seen then some name else firstRepeated? (name :: seen) rest

def ofFields (name : String) (fields : List (String × Schema)) : Except SchemaError RecordSchema :=
  match firstRepeated? [] (fields.map (·.1)) with
  | some field => .error (.duplicateField name field)
  | none => .ok ⟨name, fields⟩

def field? (r : RecordSchema) (name : String) : Option Schema :=
  (r.fields.find? (fun f => f.1 = name)).map (·.2)

def indexOf? (r : RecordSchema) (name : String) : Option Nat :=
  r.fields.findIdx? (fun f => f.1 = name)

theorem firstRepeated?_eq_none_iff (seen names : List String) :
    firstRepeated? seen names = none ↔ names.Nodup ∧ ∀ n ∈ names, n ∉ seen := by
  induction names generalizing seen with
  | nil => simp [firstRepeated?]
  | cons name rest ih =>
    unfold firstRepeated?
    by_cases h : name ∈ seen
    · simp [h]
    · simp only [h, if_false, ih, List.nodup_cons, List.mem_cons]
      constructor
      · rintro ⟨hn, hr⟩
        refine ⟨⟨fun hm => hr name hm (.inl rfl), hn⟩, ?_⟩
        rintro n (rfl | hm)
        · exact h
        · exact fun hs => hr n hm (.inr hs)
      · rintro ⟨⟨hm, hn⟩, hr⟩
        refine ⟨hn, fun n hn' hs => ?_⟩
        rcases hs with rfl | hs
        · exact hm hn'
        · exact hr n (.inr hn') hs

end RecordSchema

namespace Schema

def ofRecord (r : RecordSchema) : Schema :=
  record r.name r.fields

def nullable (inner : Schema) : Schema :=
  union [null, inner]

def asRecord? : Schema → Option RecordSchema
  | record name fields => some ⟨name, fields⟩
  | _ => none

def isNull : Schema → Bool
  | null => true
  | _ => false

def isSimple : Schema → Bool
  | array _ | record _ _ | union _ => false
  | _ => true

def typeName : Schema → String
  | null => "null"
  | boolean => "boolean"
  | int => "int"
  | long => "long"
  | float => "float"
  | double => "double"
  | string => "string"
  | array _ => "array"
  | record _ _ => "record"
  | union _ => "union"

mutual

def display : Schema → String
  | array items => "array<" ++ display items ++ ">"
  | record name _ => "record<" ++ name ++ ">"
  | union members => "union<" ++ ",".intercalate (displayAll members) ++ ">"
  | s => s.typeName

def displayAll : List Schema → List String
  | [] => []
  | s :: rest => display s :: displayAll rest

end

end Schema

end RecordGraph
