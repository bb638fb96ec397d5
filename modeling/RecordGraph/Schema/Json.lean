import RecordGraph.Schema.Basic
import RecordGraph.Json.Reader

/-!
The JSON form of schemas. A simple type is its name, a union the array of its
members, and arrays and records are objects; an object whose type is none of
these stands for the schema under its type. Other names in an object are ignored.
-/

namespace RecordGraph.Schema

def ofTypeName (name : String) : Except SchemaError Schema :=
  match name with
  | "null" => .ok null
  | "boolean" => .ok boolean
  | "int" => .ok int
  | "long" => .ok long
  | "float" => .ok float
  | "double" => .ok double
  | "string" => .ok string
  | other => .error (.unsupportedType other)

theorem sizeOf_lookup_lt {name : String} {members : List (String × Json)} {j : Json}
    (h : Json.field? name (.object members) = some j) : sizeOf j < sizeOf (Json.object members) := by
  simp only [Json.field?, Option.map_eq_some_iff] at h
  obtain ⟨e, he, rfl⟩ := h
  have hm : e ∈ members := List.mem_reverse.1 (List.mem_of_find?_eq_some he)
  have := List.sizeOf_lt_of_mem hm
  obtain ⟨k, v⟩ := e
  simp only [Prod.mk.sizeOf_spec] at this
  simp only [Json.object.sizeOf_spec]
  omega

theorem sizeOf_of_field? {name : String} {node j : Json} (h : node.field? name = some j) :
    sizeOf j < sizeOf node := by
  cases node with
  | object members => exact sizeOf_lookup_lt h
  | _ => simp [Json.field?] at h

mutual

def ofJson (node : Json) : Except SchemaError Schema :=
  match node with
  | .string name => ofTypeName name
  | .array members => (ofMembers members).map union
  | .object entries =>
    match _h : (Json.object entries).field? "type" with
    | none => .error (.malformed .objectWithoutType)
    | some (.string "record") =>
      match ((Json.object entries).field? "name").bind Json.asString? with
      | none => .error (.malformed .recordWithoutName)
      | some name =>
        match _hf : (Json.object entries).field? "fields" with
        | some (.array fields) =>
          (ofFields name fields).bind fun parsed =>
            (RecordSchema.ofFields name parsed).map ofRecord
        | _ => .error (.malformed (.recordWithoutFields name))
    | some (.string "array") =>
      match _hi : (Json.object entries).field? "items" with
      | none => .error (.malformed .arrayWithoutItems)
      | some items => (ofJson items).map array
    | some inner => ofJson inner
  | other => .error (.malformed (.unexpectedNode other))
termination_by sizeOf node
decreasing_by
  · simp
  · have := sizeOf_of_field? _hf
    simp only [Json.array.sizeOf_spec] at this
    omega
  · exact sizeOf_of_field? _hi
  · exact sizeOf_of_field? _h

def ofMembers (nodes : List Json) : Except SchemaError (List Schema) :=
  match nodes with
  | [] => .ok []
  | node :: rest => do
    let s ← ofJson node
    let more ← ofMembers rest
    return s :: more
termination_by sizeOf nodes

/-- The fields of the record called `record`. -/
def ofFields (record : String) (nodes : List Json) :
    Except SchemaError (List (String × Schema)) :=
  match nodes with
  | [] => .ok []
  | node :: rest =>
    match (node.field? "name").bind Json.asString? with
    | none => .error (.malformed (.fieldWithoutName record))
    | some name =>
      match _h : node.field? "type" with
      | none => .error (.malformed (.fieldWithoutType name))
      | some type => do
        let s ← ofJson type
        let more ← ofFields record rest
        return (name, s) :: more
termination_by sizeOf nodes
decreasing_by
  · have := sizeOf_of_field? _h
    simp only [List.cons.sizeOf_spec]
    omega
  · simp only [List.cons.sizeOf_spec]
    omega

end

def parse (text : String) : Except SchemaError Schema :=
  match Json.read? text with
  | none => .error .invalidJson
  | some j => ofJson j.canonical

mutual

def toJson : Schema → Json
  | array items => .object [("type", .string "array"), ("items", toJson items)]
  | record name fields =>
    .object [("type", .string "record"), ("name", .string name), ("fields", .array (fieldsJson fields))]
  | union members => .array (membersJson members)
  | s => .string s.typeName

def membersJson : List Schema → List Json
  | [] => []
  | s :: rest => toJson s :: membersJson rest

def fieldsJson : List (String × Schema) → List Json
  | [] => []
  | (name, s) :: rest =>
    .object [("name", .string name), ("type", toJson s)] :: fieldsJson rest

end

end RecordGraph.Schema
