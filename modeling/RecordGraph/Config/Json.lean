import RecordGraph.Config.Sink

/-!
JSON forms of configurations. A connection and compiler settings that stand on
their own are structures; in a sink configuration the compiler settings stand
among the others, and every name that is not its own must have a value. Written
back, every setting is present, in declaration order, and an absent database is
null.
-/

namespace RecordGraph

open Json (Written)

/-! Reading -/

def Connection.ofJson? (w : Written) : Option Connection :=
  (w.structureFields? names).bind fun fields => ofFields? (fields.map (·.map .ofJson))

def CompilerSettings.ofJson? (w : Written) : Option CompilerSettings :=
  (w.structureFields? names).bind fun fields =>
    ofFields? Setting.isNull (fields.map (·.map .ofJson))

namespace SinkConfig

def settingOf? (w : Written) : Option Setting :=
  (w.value? (Json.maxDepth - 1)).map .ofJson

/-- The settings that stand under no name of the configuration's own. -/
def otherSettings? : List (String × Written) → Option (List (String × Setting))
  | [] => some []
  | (name, w) :: rest =>
    if names.contains name then otherSettings? rest
    else
      (settingOf? w).bind fun s => (otherSettings? rest).map ((name, s) :: ·)

def policyOf? (w : Written) : Option FailurePolicy :=
  (settingOf? w).bind
    (Setting.choice? FailurePolicy.ofName? FailurePolicy.all Setting.isNull)

def ofMembers? (members : List (String × Written)) : Option SinkConfig := do
  let others ← otherSettings? members
  let compiler ← Json.entries? CompilerSettings.names others
  match ← Json.entries? names members with
  | [some name, some connection, relations, policy] =>
    let name ← (← settingOf? name).text?
    let connection ← Connection.ofJson? connection
    let relations ← relations.elim (some "") fun w => do (← settingOf? w).text?
    let compiler ← CompilerSettings.ofFields? Setting.isNothing compiler
    let policy ← policy.elim (some .abort) policyOf?
    return ⟨name, connection, relations, compiler, policy⟩
  | _ => none

def ofWritten? : Written → Option SinkConfig
  | .object members => (Json.namedMembers? members).bind ofMembers?
  | _ => none

def ofJson (text : String) : Except ConfigError SinkConfig :=
  match (Written.read? text).bind ofWritten? with
  | some c => .ok c
  | none => .error .json

end SinkConfig

/-! Writing -/

def Connection.toJson (c : Connection) : Json :=
  .object [("url", .string c.url), ("user", .string c.user), ("password", .string c.password),
    ("database", match c.database with
      | some d => .string d
      | none => .null)]

def CompilerSettings.members (s : CompilerSettings) : List (String × Json) :=
  [("label_field", .string s.labelField), ("key_field", .string s.keyField),
    ("node_alias", .string s.nodeAlias), ("escape", .string s.escape.name),
    ("create_nulls", .string s.createNulls.name)]

def CompilerSettings.toJson (s : CompilerSettings) : Json :=
  .object s.members

def SinkConfig.toJson (c : SinkConfig) : Json :=
  .object ([("reference_name", .string c.referenceName), ("connection", c.connection.toJson),
    ("relations", .string c.relations)] ++ c.compiler.members ++
    [("failure_policy", .string c.failurePolicy.name)])

end RecordGraph
