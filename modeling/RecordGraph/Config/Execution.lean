import RecordGraph.Config.Sink
import RecordGraph.Relation.Wire

/-!
Output settings: a validated configuration flattened into named texts, which the
execution stage turns back into connection, compiler settings, relations and
failure policy. Relations travel in wire form.
-/

namespace RecordGraph

structure ExecutionConfig where
  referenceName : String
  connection : Connection
  compiler : CompilerSettings
  relations : List Relation
  failurePolicy : FailurePolicy
deriving DecidableEq

namespace SinkConfig

def settings (c : SinkConfig) (relations : List Relation) : Dict String :=
  let texts :=
    [("reference_name", c.referenceName), ("url", c.connection.url), ("user", c.connection.user),
      ("password", c.connection.password), ("relations", Relation.encodeList relations),
      ("label_field", c.compiler.labelField), ("key_field", c.compiler.keyField),
      ("node_alias", c.compiler.nodeAlias), ("escape", c.compiler.escape.name),
      ("create_nulls", c.compiler.createNulls.name), ("failure_policy", c.failurePolicy.name)]
  Dict.ofList (texts ++ (c.connection.database.map fun d => ("database", d)).toList)

def outputSettings (c : SinkConfig) (schema : RecordSchema) : Except ConfigError (Dict String) :=
  (c.validate schema).map c.settings

end SinkConfig

namespace ExecutionConfig

def required (settings : Dict String) (key : String) : Except ConfigError String :=
  match settings.get? key with
  | some value => .ok value
  | none => .error (.missing key)

/-- A choice that may be missing; an unknown name is an error of form. -/
def choice {α : Type} (settings : Dict String) (key : String) (ofName : String → Option α)
    (default : α) : Except ConfigError α :=
  match settings.get? key with
  | none => .ok default
  | some name =>
    match ofName name with
    | some value => .ok value
    | none => .error .json

def compilerOf (settings : Dict String) : Except ConfigError CompilerSettings := do
  let default := CompilerSettings.default
  let escape ← choice settings "escape" Escape.ofName? default.escape
  let nulls ← choice settings "create_nulls" NullPolicy.ofName? default.createNulls
  return ⟨(settings.get? "label_field").getD default.labelField,
    (settings.get? "key_field").getD default.keyField,
    (settings.get? "node_alias").getD default.nodeAlias, escape, nulls⟩

def ofSettings (settings : Dict String) : Except ConfigError ExecutionConfig := do
  let compiler ← compilerOf settings
  compiler.validate.mapError .compile
  let name ← required settings "reference_name"
  let url ← required settings "url"
  let user ← required settings "user"
  let relations ←
    (Relation.decodeList ((settings.get? "relations").getD "")).mapError .relations
  let policy ← choice settings "failure_policy" FailurePolicy.ofName? .abort
  return ⟨name, ⟨url, user, (settings.get? "password").getD "", settings.get? "database"⟩,
    compiler, relations, policy⟩

end ExecutionConfig

end RecordGraph
