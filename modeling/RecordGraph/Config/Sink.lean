import RecordGraph.Config.Setting
import RecordGraph.Relation.Text
import RecordGraph.Shape.Layout

/-!
Sink configurations: a reference name, a connection, relations in authored form,
compiler settings and a failure policy. They are validated against the schema of
the records.
-/

namespace RecordGraph

structure Connection where
  url : String
  user : String
  password : String
  database : Option String
deriving DecidableEq

structure SinkConfig where
  referenceName : String
  connection : Connection
  relations : String
  compiler : CompilerSettings
  failurePolicy : FailurePolicy
deriving DecidableEq

inductive ConfigError where
  | unreadable (path : String)
  | yaml
  | json
  | unsupportedFormat (path : String)
  | invalidReferenceName (name : String)
  | unresolvedMacro (key value : String)
  | relations (cause : RelationError)
  | compile (cause : CompileError)
  | missing (key : String)

def ConfigError.message : ConfigError → String
  | unreadable path => "Failed to read " ++ path
  | yaml => "YAML error"
  | json => "JSON error"
  | unsupportedFormat path => "Unsupported configuration file type: " ++ path
  | invalidReferenceName name =>
    "Invalid reference name '" ++ name ++ "': use letters, digits, '_', '.' or '-'"
  | unresolvedMacro key value => "Unresolved macro in '" ++ key ++ "': " ++ value
  | relations cause => "Invalid relations: " ++ cause.message
  | compile cause => cause.message
  | missing key => "Missing configuration key '" ++ key ++ "'"

/-! Settings by name -/

namespace Connection

def names : List String :=
  ["url", "user", "password", "database"]

def ofFields? : List (Option Setting) → Option Connection
  | [some url, some user, password, database] => do
    let url ← url.text?
    let user ← user.text?
    let password ← Setting.orDefault "" Setting.text? password
    let database ← Setting.orDefault none Setting.optionalText? database
    return ⟨url, user, password, database⟩
  | _ => none

end Connection

namespace CompilerSettings

def names : List String :=
  ["label_field", "key_field", "node_alias", "escape", "create_nulls"]

/-- Settings from what stands under each of the names; `nothing` says what may stand beside the
name of a choice. -/
def ofFields? (nothing : Setting → Bool) : List (Option Setting) → Option CompilerSettings
  | [label, key, node, escape, nulls] => do
    let label ← Setting.orDefault default.labelField Setting.text? label
    let key ← Setting.orDefault default.keyField Setting.text? key
    let node ← Setting.orDefault default.nodeAlias Setting.text? node
    let escape ←
      Setting.orDefault default.escape (Setting.choice? Escape.ofName? Escape.all nothing) escape
    let nulls ← Setting.orDefault default.createNulls
      (Setting.choice? NullPolicy.ofName? NullPolicy.all nothing) nulls
    return ⟨label, key, node, escape, nulls⟩
  | _ => none

end CompilerSettings

namespace SinkConfig

def names : List String :=
  ["reference_name", "connection", "relations", "failure_policy"]

/-! Validation -/

def isNameChar (c : Char) : Bool :=
  Statement.continuesName c || c == '.' || c == '-'

def isReferenceName (s : String) : Bool :=
  !s.isEmpty && s.toList.all isNameChar

def macroAt? : List Char → Option (List Char)
  | '$' :: '{' :: rest =>
    if rest.contains '}' then some ('$' :: '{' :: (rest.takeWhile (· != '}') ++ ['}'])) else none
  | _ => none

def findMacro? : List Char → Option (List Char)
  | [] => none
  | c :: rest =>
    match macroAt? (c :: rest) with
    | some m => some m
    | none => findMacro? rest

/-- Checks a configuration against the schema of the records and reads its relations. -/
def validate (c : SinkConfig) (schema : RecordSchema) : Except ConfigError (List Relation) := do
  if !isReferenceName c.referenceName then
    throw (.invalidReferenceName c.referenceName)
  match findMacro? c.relations.toList with
  | some found => throw (.unresolvedMacro "relations" (String.ofList found))
  | none => pure ()
  c.compiler.validate.mapError .compile
  let layout ← (Layout.classify schema).mapError fun e => .compile (.inconsistent e)
  (Relation.parseList c.relations layout.structuralFields).mapError .relations

end SinkConfig

end RecordGraph
