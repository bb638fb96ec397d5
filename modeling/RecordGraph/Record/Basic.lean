import RecordGraph.Schema.Basic

/-!
Field values and records. A record holds the values of its fields by name.
-/

namespace RecordGraph

open Number

inductive FieldValue where
  | null
  | boolean (b : Bool)
  | int (i : Int32)
  | long (i : Int64)
  | float (x : Single)
  | double (x : Double)
  | string (s : String)
  | array (items : List FieldValue)
  | record (schema : RecordSchema) (entries : List (String × FieldValue))
deriving Inhabited

structure Record where
  schema : RecordSchema
  entries : List (String × FieldValue)
deriving Inhabited

namespace FieldValue

def ofRecord (r : Record) : FieldValue :=
  record r.schema r.entries

def isNull : FieldValue → Bool
  | null => true
  | _ => false

/-- Null or the empty string. -/
def isBlank : FieldValue → Bool
  | null => true
  | string s => s.isEmpty
  | _ => false

def asString? : FieldValue → Option String
  | string s => some s
  | _ => none

def asArray? : FieldValue → Option (List FieldValue)
  | array items => some items
  | _ => none

def asRecord? : FieldValue → Option Record
  | record schema entries => some ⟨schema, entries⟩
  | _ => none

def typeName : FieldValue → String
  | null => "null"
  | boolean _ => "boolean"
  | int _ => "int"
  | long _ => "long"
  | float _ => "float"
  | double _ => "double"
  | string _ => "string"
  | array _ => "array"
  | record _ _ => "record"

mutual

def display : FieldValue → String
  | null => "null"
  | boolean b => if b then "true" else "false"
  | int i => intText i.toInt
  | long i => intText i.toInt
  | float x => x.plainText
  | double x => x.plainText
  | string s => s
  | array items => "[" ++ ", ".intercalate (displayAll items) ++ "]"
  | record schema _ => schema.name ++ "\x7b..\x7d"

def displayAll : List FieldValue → List String
  | [] => []
  | v :: rest => display v :: displayAll rest

end

end FieldValue

namespace Record

def get? (r : Record) (name : String) : Option FieldValue :=
  (r.entries.find? (fun e => e.1 = name)).map (·.2)

end Record

end RecordGraph
