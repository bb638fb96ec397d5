import RecordGraph.Config.Sink
import RecordGraph.Yaml.Document
import RecordGraph.Yaml.Scalar

/-!
YAML forms of sink configurations. Where a text is wanted any scalar lends its
own, whatever its kind; the compiler settings, which stand among the others, and
all that stands under unknown names must have a kind. Of what is unknown to a
connection only the form matters.
-/

namespace RecordGraph

open Yaml (Document Reading)

namespace Setting

def ofScalar : Yaml.Scalar → Setting
  | .null => null
  | .bool => scalar
  | .natural n => natural n
  | .number => scalar
  | .text s => text s

def ofYaml? (d : Document) (depth : Nat) (n : Yaml.Node) : Reading Setting := do
  match ← d.target n with
  | .scalar tag plain s => StateT.lift ((Yaml.Scalar.ofParts? tag plain s).map ofScalar)
  | .sequence tag nodes =>
    match depth with
    | 0 => failure
    | depth + 1 =>
      if tag.any Yaml.Scalar.isLocalTag then failure
      else
        let settings ← nodes.mapM (ofYaml? d depth)
        return items settings
  | .mapping tag entries =>
    match depth with
    | 0 => failure
    | depth + 1 =>
      if tag.any Yaml.Scalar.isLocalTag then failure
      else
        let settings ← entries.mapM fun (key, value) => do
          let key ← ofYaml? d depth key
          let value ← ofYaml? d depth value
          return (key, value)
        return group settings
  | .reference _ => failure
termination_by structural depth

end Setting

namespace Yaml

def textOf (d : Document) (n : Yaml.Node) : Reading String := do
  match ← d.target n with
  | .scalar _ _ s => return s
  | _ => failure

def optionalTextOf (d : Document) (n : Yaml.Node) : Reading Setting := do
  match ← d.target n with
  | .scalar tag plain s =>
    if !plain then return .text s
    else if tag = some Scalar.nullTag then
      if Scalar.isNullWord s then return .null else failure
    else if tag.isNone && (s.isEmpty || Scalar.isNullWord s) then return .null
    else return .text s
  | _ => failure

def choiceName (d : Document) (n : Yaml.Node) : Reading String := do
  match ← d.target n with
  | .scalar tag plain s =>
    match tag.filter Scalar.isLocalTag with
    | none => return s
    | some tag =>
      if plain && (s.isEmpty || Scalar.isNullWord s) then
        return String.ofList (tag.toList.drop 1)
      else failure
  | _ => failure

end Yaml

open Yaml (textOf optionalTextOf choiceName)

def Connection.yamlEntries (d : Document) : List (Yaml.Node × Yaml.Node) → Reading (List (String × Setting))
  | [] => return []
  | (key, value) :: rest => do
    let name ← textOf d key
    if name = "database" then
      let database ← optionalTextOf d value
      return (name, database) :: (← yamlEntries d rest)
    else if names.contains name then
      let text ← textOf d value
      return (name, .text text) :: (← yamlEntries d rest)
    else yamlEntries d rest

def Connection.ofYaml (d : Document) (n : Yaml.Node) : Reading Connection := do
  match ← d.target n with
  | .mapping _ entries =>
    let entries ← yamlEntries d entries
    StateT.lift ((Json.entries? names entries).bind ofFields?)
  | _ => failure

namespace SinkConfig

/-- The settings of a configuration as far as they have been read. -/
structure YamlParts where
  referenceName : Option String
  connection : Option Connection
  relations : Option String
  failurePolicy : Option FailurePolicy
  others : List (String × Setting)

def maxYamlDepth : Nat := 127

namespace YamlParts

def add (d : Document) (parts : YamlParts) (name : String) (n : Yaml.Node) : Reading YamlParts := do
  if name = "reference_name" then
    let text ← textOf d n
    if parts.referenceName.isSome then failure
    return { parts with referenceName := some text }
  else if name = "connection" then
    let connection ← Connection.ofYaml d n
    if parts.connection.isSome then failure
    return { parts with connection := some connection }
  else if name = "relations" then
    let text ← textOf d n
    if parts.relations.isSome then failure
    return { parts with relations := some text }
  else if name = "failure_policy" then
    let choice ← choiceName d n
    let policy ← StateT.lift (FailurePolicy.ofName? choice)
    if parts.failurePolicy.isSome then failure
    return { parts with failurePolicy := some policy }
  else
    let setting ← Setting.ofYaml? d maxYamlDepth n
    return { parts with others := parts.others ++ [(name, setting)] }

def addAll (d : Document) (parts : YamlParts) : List (Yaml.Node × Yaml.Node) → Reading YamlParts
  | [] => return parts
  | (key, value) :: rest => do
    let name ← textOf d key
    let parts ← parts.add d name value
    addAll d parts rest

def config? (parts : YamlParts) : Option SinkConfig := do
  let name ← parts.referenceName
  let connection ← parts.connection
  let fields ← Json.entries? CompilerSettings.names parts.others
  let compiler ← CompilerSettings.ofFields? Setting.isNothing fields
  return ⟨name, connection, parts.relations.getD "", compiler, parts.failurePolicy.getD .abort⟩

end YamlParts

def ofDocument? (d : Document) : Option SinkConfig :=
  match d.root with
  | .mapping _ entries =>
    ((YamlParts.addAll d ⟨none, none, none, none, []⟩ entries).run d.references).bind
      fun (parts, _) => parts.config?
  | _ => none

def ofYaml (text : String) : Except ConfigError SinkConfig :=
  match (Document.read? text).bind ofDocument? with
  | some c => .ok c
  | none => .error .yaml

end SinkConfig

end RecordGraph
