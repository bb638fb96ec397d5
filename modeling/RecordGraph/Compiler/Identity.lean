import RecordGraph.Compiler.Settings
import RecordGraph.Text.Lowercase

/-!
Identities of records: a label and a unique key, read from two configured fields.
The label is trimmed and lower-cased text; the key is an integer or a string
other than the empty one. A record without either has no identity.
-/

namespace RecordGraph

structure Identity where
  label : String
  keyField : String
  keyValue : FieldValue

namespace Identity

def labelOf? (labelField : String) (record : Record) : Option String :=
  match record.get? labelField with
  | some (.string s) => if Text.isBlankText s then none else some (Text.lower (Text.trim s))
  | _ => none

def isKey : FieldValue → Bool
  | .string s => !s.isEmpty
  | .int _ | .long _ => true
  | _ => false

def keyOf? (keyField : String) (record : Record) : Option FieldValue :=
  (record.get? keyField).filter isKey

def ofRecord? (labelField keyField : String) (record : Record) : Option Identity :=
  match labelOf? labelField record, keyOf? keyField record with
  | some label, some key => some ⟨label, keyField, key⟩
  | _, _ => none

/-- The identity of the record at `path`; the label is missed before the key. -/
def require (labelField keyField : String) (record : Record) (path : String) :
    Except CompileError Identity :=
  match ofRecord? labelField keyField record with
  | some identity => .ok identity
  | none =>
    .error (.missingIdentity path
      (if (labelOf? labelField record).isSome then keyField else labelField))

end Identity

end RecordGraph
