import RecordGraph.Compiler.Identity
import RecordGraph.Shape.Layout
import RecordGraph.Slots
import RecordGraph.Statement.Assembly

/-!
Related records. Every nested record and every element of a list of records is
matched by its key under an alias of its own, `a1`, `a2` and so on, in schema
order and then index order; the aliases are kept by field.
-/

namespace RecordGraph

/-- A related record's alias in a statement, with the identity it is matched by. -/
structure Match where
  node : String
  identity : Identity

structure Related where
  clauses : List String
  /-- The matches of each structural field, in schema order. -/
  bindings : List (String × List Match)

namespace Related

def empty : Related := ⟨[], []⟩

def aliases (r : Related) : List String :=
  (r.bindings.flatMap (·.2)).map (·.node)

def matchesOf? (r : Related) (field : String) : Option (List Match) :=
  (r.bindings.find? (fun b => b.1 = field)).map (·.2)

def matchAlias (n : Nat) : String :=
  "a" ++ Number.natText n

abbrev Located := String × Record

def locateItems (field : String) : Nat → List FieldValue → List Located
  | _, [] => []
  | index, .record schema entries :: rest =>
    (field ++ "[" ++ Number.natText index ++ "]", ⟨schema, entries⟩) ::
      locateItems field (index + 1) rest
  | index, _ :: rest => locateItems field (index + 1) rest

def locate (b : Layout.Bound) : List Located :=
  match b.shape.kind, b.value with
  | .nested _, .record schema entries => [(b.name, ⟨schema, entries⟩)]
  | .nestedList _, .array items => locateItems b.name 0 items
  | _, _ => []

def identify (settings : CompilerSettings) (located : Located) : Except CompileError Identity := do
  let (path, record) := located
  let layout ← (Layout.classify record.schema).mapError .inconsistent
  (layout.checkNested record path).mapError .inconsistent
  Identity.require settings.labelField settings.keyField record path

def matchRecords (settings : CompilerSettings) :
    Nat → List Located → Except CompileError (List (Match × String))
  | _, [] => .ok []
  | next, located :: rest => do
    let identity ← identify settings located
    let literal ← (Statement.literal settings.escape identity.keyValue).mapError
      fun reason => .inconsistent ⟨identity.keyField, reason⟩
    let clause := Statement.matchKeyClause (matchAlias next) identity.keyField literal
    let more ← matchRecords settings (next + 1) rest
    return (⟨matchAlias next, identity⟩, clause) :: more

def ofBound (settings : CompilerSettings) : Nat → List Layout.Bound → Except CompileError Related
  | _, [] => .ok empty
  | next, b :: rest =>
    if b.shape.isStructural then do
      let found ← matchRecords settings next (locate b)
      let more ← ofBound settings (next + found.length) rest
      return ⟨found.map (·.2) ++ more.clauses, (b.name, found.map (·.1)) :: more.bindings⟩
    else ofBound settings next rest

/-- The matches by field name. A name that comes again keeps its place and its last matches. -/
def byField (r : Related) : Related :=
  { r with bindings := (Slots.ofList r.bindings).entries }

def ofRecord (settings : CompilerSettings) (layout : Layout) (record : Record) :
    Except CompileError Related := do
  let bound ← (layout.bind record).mapError .inconsistent
  let related ← ofBound settings 1 bound
  return related.byField

end Related

end RecordGraph
