import RecordGraph.Json.Reader
import RecordGraph.Json.Writer

/-!
Structured values in JSON. A structure is an object with known names, in any
order, or the array of its fields in declaration order; a known name may not be
repeated and trailing fields of an array may be missing. Of other names only the
form of their values matters.
-/

namespace RecordGraph.Json

/-- For each name what stands under it; a name that stands twice is refused. -/
def entries? {α : Type} (names : List String) (entries : List (String × α)) :
    Option (List (Option α)) :=
  let values (name : String) := (entries.filter fun e => e.1 = name).map (·.2)
  if names.any fun n => (values n).length > 1 then none
  else some (names.map fun n => (values n).head?)

def namedMembers? : List (List TextUnit × Written) → Option (List (String × Written))
  | [] => some []
  | (name, w) :: rest =>
    (text? name).bind fun name => (namedMembers? rest).map ((name, w) :: ·)

def Written.fields? (names : List String) : Written → Option (List (Option Written))
  | object members => (namedMembers? members).bind (entries? names)
  | array items =>
    if items.length ≤ names.length then
      some (items.map some ++ List.replicate (names.length - items.length) none)
    else none
  | _ => none

def fieldValues? (depth : Nat) : List (Option Written) → Option (List (Option Json))
  | [] => some []
  | none :: rest => (fieldValues? depth rest).map (none :: ·)
  | some w :: rest =>
    (w.value? depth).bind fun j => (fieldValues? depth rest).map (some j :: ·)

def Written.structureFields? (names : List String) (w : Written) : Option (List (Option Json)) :=
  (w.fields? names).bind (fieldValues? (maxDepth - 1))

def allStrings? : List Json → Option (List String)
  | [] => some []
  | string s :: rest => (allStrings? rest).map (s :: ·)
  | _ :: _ => none

def toStrings? : Json → Option (List String)
  | array items => allStrings? items
  | _ => none

def toInt64? : Json → Option Int64
  | number n => n.toInt64?
  | _ => none

def toId? : Json → Option Nat
  | number (.whole i) => if 0 ≤ i then some i.toNat else none
  | _ => none

end RecordGraph.Json
