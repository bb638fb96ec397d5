import RecordGraph.Cli.Help
import RecordGraph.Config.File
import RecordGraph.Graph.Json
import RecordGraph.Record.Json
import RecordGraph.Relation.Wire
import RecordGraph.Session.Memory
import RecordGraph.Text.Table

/-!
The commands as functions from arguments and file contents to what is printed.
Everything a command needs is read before its first statement is compiled, and a
failed command prints nothing but the chain of its causes.
-/

namespace RecordGraph.Cli

abbrev Files := String → Option String

def pathSteps (path : String) : List (List Char) :=
  (Text.splitChars '/' path.toList).filter fun step => step != [] && step != ['.']

def Files.ofList (entries : List (String × String)) : Files := fun path =>
  let found := entries.find? fun e => pathSteps e.1 == pathSteps path
  if path.toList.getLast? = some '/' || path.toList.head? = some '/' then none
  else found.map (·.2)

/-- An error and its causes, outermost first. -/
structure Failure where
  causes : List String

def Failure.text (f : Failure) : String :=
  "Error: " ++ ": ".intercalate f.causes

def Failure.within (context : String) (f : Failure) : Failure :=
  ⟨context :: f.causes⟩

def notFound : String := "No such file or directory (os error 2)"

namespace Failure

def ofSchema (e : SchemaError) : Failure := ⟨[e.message]⟩

def ofRelation (e : RelationError) : Failure := ⟨[e.message]⟩

def ofCompile (e : CompileError) : Failure :=
  match e with
  | .relation cause => ⟨[e.message, cause.message]⟩
  | _ => ⟨[e.message]⟩

def ofUpsert (e : UpsertError) : Failure :=
  match e with
  | .compile cause => ofCompile cause
  | .execution cause => ⟨[e.message, cause.message]⟩
  | _ => ⟨[e.message]⟩

def ofConfig (e : ConfigError) : Failure :=
  match e with
  | .unreadable _ => ⟨[e.message ++ ": " ++ notFound, notFound]⟩
  | .relations cause => ⟨[e.message, cause.message]⟩
  | .compile cause => ofCompile cause
  | _ => ⟨[e.message]⟩

end Failure

def readFile (files : Files) (path : String) : Except Failure String :=
  match files path with
  | some text => .ok text
  | none => .error ⟨["reading " ++ path, notFound]⟩

def loadSchema (files : Files) (path : String) : Except Failure RecordSchema := do
  let text ← readFile files path
  let schema ← (Schema.parse text).mapError .ofSchema
  match schema.asRecord? with
  | some r => return r
  | none => throw ⟨[path ++ " does not describe a record"]⟩

def parseRelations (text : String) (schema : RecordSchema) : Except Failure (List Relation) := do
  let layout ← (Layout.classify schema).mapError fun e => .ofCompile (.inconsistent e)
  (Relation.parseList text layout.structuralFields).mapError .ofRelation

/-- The lines of a text; a last line without characters is none, and a carriage return before
a line break belongs to the break. -/
def textLines (text : String) : List String :=
  let pieces := Text.splitChars '\n' text.toList
  let pieces := if pieces.getLast? = some [] then pieces.dropLast else pieces
  pieces.map fun line =>
    String.ofList (if line.getLast? = some '\r' then line.dropLast else line)

/-- Everything that a command on records needs; records keep their line numbers. -/
structure Job where
  compiler : CompilerSettings
  relations : List Relation
  policy : FailurePolicy
  records : List (Nat × Record)

def decodeLines (schema : RecordSchema) :
    Nat → List String → Except Failure (List (Nat × Record))
  | _, [] => .ok []
  | number, line :: rest =>
    if Text.isBlankText line then decodeLines schema (number + 1) rest
    else do
      let record ← (Record.parse schema line).mapError fun e =>
        (Failure.ofSchema e).within ("decoding record on line " ++ Number.natText number)
      let more ← decodeLines schema (number + 1) rest
      return (number, record) :: more

def loadConfig (files : Files) (schema : RecordSchema) :
    Option String → Except Failure (CompilerSettings × List Relation × FailurePolicy)
  | none => .ok (.default, [], .abort)
  | some path => do
    let config ← (SinkConfig.load path (files path)).mapError .ofConfig
    let relations ← (config.validate schema).mapError .ofConfig
    return (config.compiler, relations, config.failurePolicy)

def loadJob (files : Files) (inputs : Inputs) : Except Failure Job := do
  let schema ← loadSchema files inputs.schema
  let (compiler, configured, policy) ← loadConfig files schema inputs.config
  let relations ← match inputs.relations with
    | some text => parseRelations text schema
    | none => pure configured
  let text ← readFile files inputs.records
  let records ← decodeLines schema 1 (textLines text)
  return ⟨compiler, relations, policy, records⟩

def onLine (number : Nat) (f : Failure) : Failure :=
  f.within ("record on line " ++ Number.natText number)

/-! Relations -/

def relationJson (r : Relation) : Json :=
  .object [("direction", .string r.direction.token), ("field", .string r.field),
    ("label", .string r.label)]

def showRelations (format : OutputFormat) (relations : List Relation) : List String :=
  let wire := Relation.encodeList relations
  match format with
  | .json =>
    [(Json.object [("relations", .array (relations.map relationJson)), ("wire", .string wire)]).pretty]
  | .table =>
    [Text.Table.render ⟨["Field", "Direction", "Label"],
      relations.map fun r => [r.field, r.direction.token, r.label]⟩, wire]

/-! Compilation -/

def compileRecords (job : Job) : List (Nat × Record) → Except Failure (List (Nat × String))
  | [] => .ok []
  | (number, record) :: rest => do
    let statement ← (job.compiler.compileCreate record job.relations).mapError fun e =>
      onLine number (.ofCompile e)
    let more ← compileRecords job rest
    return (number, statement.text) :: more

def showStatements (format : OutputFormat) (statements : List (Nat × String)) : List String :=
  match format with
  | .json =>
    [(Json.array (statements.map fun (number, text) =>
      .object [("line", .ofNat number), ("statement", .string text)])).pretty]
  | .table => statements.map (·.2)

/-! Dry runs -/

def writeRecords :
    List (Nat × Record) → Writer MemorySession → Except Failure (Writer MemorySession)
  | [], w => .ok w
  | (number, record) :: rest, w =>
    match w.write record with
    | (.ok _, w) => writeRecords rest w
    | (.error e, _) => .error (onLine number (.ofUpsert e))

def summaryJson (s : WriteSummary) : Json :=
  .object [("created", .ofNat s.created), ("updated", .ofNat s.updated),
    ("skipped", .ofNat s.skipped)]

def graphJson (graph : Store) (summary : WriteSummary) : Json :=
  .object [("summary", summaryJson summary),
    ("nodes", .array (graph.nodes.map fun n => NodeEntry.toJson ⟨n, 0, 0⟩)),
    ("edges", .array (graph.edges.map fun e => EdgeEntry.toJson ⟨e, 0⟩))]

def nodeTable (nodes : List Node) : Text.Table :=
  ⟨["Id", "Labels", "Properties"], nodes.map fun n =>
    [Node.name n.id, ":".intercalate n.labels, (PropertyMap.toJson n.properties).compact]⟩

def edgeTable (edges : List Edge) : Text.Table :=
  ⟨["Source", "Type", "Target"], edges.map fun e =>
    [Node.name e.source, e.type, Node.name e.target]⟩

def showGraph (format : OutputFormat) (graph : Store) (summary : WriteSummary) : List String :=
  match format with
  | .json => [(graphJson graph summary).canonical.pretty]
  | .table =>
    [(nodeTable graph.nodes).render] ++
      (if graph.edges.isEmpty then [] else [(edgeTable graph.edges).render]) ++ [summary.text]

/-! Commands -/

def runCommand (files : Files) (format : OutputFormat) : Command → Except Failure (List String)
  | .relations text schema => do
    let schema ← loadSchema files schema
    let relations ← parseRelations text schema
    return showRelations format relations
  | .compile inputs => do
    let job ← loadJob files inputs
    let statements ← compileRecords job job.records
    return showStatements format statements
  | .dryRun inputs => do
    let job ← loadJob files inputs
    let writer := Writer.create (MemorySession.ofGraph .empty) job.compiler job.relations job.policy
    let done ← writeRecords job.records writer
    return showGraph format done.session.graph done.summary

structure Reply where
  exit : Nat
  output : List String
  error : Option String

/-- The printed lines: each text of the output ends with a line break. -/
def Reply.lines (r : Reply) : List String :=
  textLines (String.join (r.output.map (· ++ "\n")))

def run (args : List String) (files : Files) : Reply :=
  match parse args with
  | .misuse => ⟨2, [], none⟩
  | .version => ⟨0, [versionLine], none⟩
  | .help topic => ⟨0, [helpText topic], none⟩
  | .run format command =>
    match runCommand files format command with
    | .ok output => ⟨0, output, none⟩
    | .error failure => ⟨1, [], some failure.text⟩

def Command.paths : Command → List String
  | .relations _ schema => [schema]
  | .compile inputs | .dryRun inputs => [inputs.schema, inputs.records] ++ inputs.config.toList

def pathsOf (args : List String) : List String :=
  match parse args with
  | .run _ command => command.paths
  | _ => []

end RecordGraph.Cli
