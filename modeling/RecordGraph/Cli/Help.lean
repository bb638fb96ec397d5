import RecordGraph.Cli.Arguments

/-!
Help texts and the version line of the command line.
-/

namespace RecordGraph.Cli

def programName : String := "cypher-sink"
def versionNumber : String := "0.3.0"

def versionLine : String := programName ++ " " ++ versionNumber

/-- Two columns: terms, padded to the widest of them, and what they mean. -/
def columns (entries : List (String × String)) : List String :=
  let width := (entries.map (·.1.length)).foldl max 0
  entries.map fun (term, meaning) =>
    "  " ++ term ++ String.ofList (List.replicate (width - term.length) ' ') ++ "  " ++ meaning

def formatEntry : String × String :=
  ("    --format <FORMAT>", "Output format [default: table] [possible values: table, json]")

def verboseEntry : String × String :=
  ("-v, --verbose", "Log compiled statements and session activity to stderr")

def helpEntry : String × String :=
  ("-h, --help", "Print help")

def schemaEntry (meaning : String) : String × String :=
  ("    --schema <SCHEMA>", meaning)

def relationsMeaning : String := "Parse relation text and print its wire form"
def compileMeaning : String := "Print the create statement for every record"
def dryRunMeaning : String := "Upsert every record into an empty in-memory graph and print it"

def helpMeaning : String := "Print this message or the help of the given subcommand(s)"

def programHelp : List String :=
  ["Compile records into Cypher upserts", "", "Usage: cypher-sink [OPTIONS] <COMMAND>", "",
    "Commands:"] ++
  columns [("relations", relationsMeaning), ("compile", compileMeaning), ("dry-run", dryRunMeaning),
    ("help", helpMeaning)] ++
  ["", "Options:"] ++
  columns [formatEntry, verboseEntry, helpEntry, ("-V, --version", "Print version")]

def relationsHelp : List String :=
  [relationsMeaning, "", "Usage: cypher-sink relations [OPTIONS] --schema <SCHEMA> <TEXT>", "",
    "Arguments:", "  <TEXT>  Relations, e.g. \"WORKS_AT:>(company),MEMBER_OF:<(clubs)\"", "",
    "Options:"] ++
  columns [formatEntry, schemaEntry "Schema whose related-record fields the relations must target",
    verboseEntry, helpEntry]

def inputsHelp (name meaning : String) : List String :=
  [meaning, "",
    "Usage: cypher-sink " ++ name ++ " [OPTIONS] --schema <SCHEMA> --records <RECORDS>", "",
    "Options:"] ++
  columns [formatEntry, schemaEntry "Avro-style JSON record schema",
    ("    --records <RECORDS>", "JSON-lines file, one record per line"), verboseEntry,
    ("    --config <CONFIG>", "Sink configuration (.yaml, .yml or .json)"),
    ("    --relations <RELATIONS>", "Relations in text form; overrides the configuration"),
    helpEntry]

def helpHelp : List String :=
  [helpMeaning, "", "Usage: cypher-sink help [COMMAND]...", "", "Arguments:",
    "  [COMMAND]...  Print help for the subcommand(s)"]

def helpText (topic : Topic) : String :=
  "\n".intercalate <| match topic with
    | .program => programHelp
    | .relations => relationsHelp
    | .compile => inputsHelp "compile" compileMeaning
    | .dryRun => inputsHelp "dry-run" dryRunMeaning
    | .help => helpHelp

end RecordGraph.Cli
