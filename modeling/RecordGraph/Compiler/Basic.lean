import RecordGraph.Compiler.Edges

/-!
Compilation of records into statements. The create statement matches the related
records, merges the node and merges its edges; the update statement finds the
node by its key and sets every other property; the lookup finds it by key alone.
-/

namespace RecordGraph.CompilerSettings

def rootPath : String := "root"

def lookupAlias : String := "n"

def layoutOf (schema : RecordSchema) : Except CompileError Layout :=
  (Layout.classify schema).mapError .inconsistent

def identityOf (s : CompilerSettings) (record : Record) : Except CompileError Identity :=
  Identity.require s.labelField s.keyField record rootPath

/-- Whether a bound field becomes a property: it is no related data and not the label. -/
def isProperty (s : CompilerSettings) (includeKey : Bool) (b : Layout.Bound) : Bool :=
  !b.shape.isStructural && b.name != s.labelField && (includeKey || b.name != s.keyField)

def renderProperties (s : CompilerSettings) (delimiter : Delimiter) (nulls : NullPolicy) :
    List Layout.Bound → Except Inconsistency (List String)
  | [] => .ok []
  | b :: rest => do
    let rendered ← Statement.property? s.escape b.name b.value b.shape delimiter nulls
    let more ← renderProperties s delimiter nulls rest
    return rendered.toList ++ more

def properties (s : CompilerSettings) (layout : Layout) (record : Record) (delimiter : Delimiter)
    (nulls : NullPolicy) (includeKey : Bool) : Except CompileError (List String) := do
  let bound ← (layout.bind record).mapError .inconsistent
  (s.renderProperties delimiter nulls (bound.filter (s.isProperty includeKey))).mapError
    .inconsistent

def keyLiteral (s : CompilerSettings) (keyField : String) (value : FieldValue) :
    Except CompileError String :=
  (Statement.literal s.escape value).mapError fun reason => .inconsistent ⟨keyField, reason⟩

def related (s : CompilerSettings) (record : Record) : Except CompileError Related := do
  let layout ← layoutOf record.schema
  Related.ofRecord s layout record

def compileCreate (s : CompilerSettings) (record : Record) (relations : List Relation) :
    Except CompileError CompiledStatement := do
  s.validate
  let layout ← layoutOf record.schema
  let identity ← s.identityOf record
  let related ← Related.ofRecord s layout record
  let properties ← s.properties layout record .property s.createNulls true
  let edges ← (related.edgeClauses s.nodeAlias relations).mapError .relation
  return Statement.Draft.empty
    |>.append related.clauses related.aliases
    |>.bindAlias (Statement.mergeNodeClause s.nodeAlias identity.label properties) s.nodeAlias
    |>.addClauses edges
    |>.returning s.nodeAlias

/-- Sets every property except label and key, and clears those that are null or empty. -/
def compileUpdate (s : CompilerSettings) (record : Record) (identity : Identity) :
    Except CompileError CompiledStatement := do
  s.validate
  let layout ← layoutOf record.schema
  let assignments ← s.properties layout record .assignment .writeNull false
  let literal ← s.keyLiteral identity.keyField identity.keyValue
  return Statement.Draft.empty
    |>.bindAlias (Statement.matchKeyClause s.nodeAlias identity.keyField literal) s.nodeAlias
    |>.addClauses (assignments.map fun a => "SET " ++ s.nodeAlias ++ "." ++ a)
    |>.returning s.nodeAlias

def compileKeyLookup (s : CompilerSettings) (keyField : String) (keyValue : FieldValue) :
    Except CompileError CompiledStatement :=
  if keyValue.isBlank then .error (.missingIdentity rootPath keyField)
  else do
    let literal ← s.keyLiteral keyField keyValue
    return Statement.Draft.empty
      |>.bindAlias (Statement.matchKeyClause lookupAlias keyField literal) lookupAlias
      |>.returning lookupAlias

def compileLookup (s : CompilerSettings) (identity : Identity) :
    Except CompileError CompiledStatement :=
  s.compileKeyLookup identity.keyField identity.keyValue

end RecordGraph.CompilerSettings
