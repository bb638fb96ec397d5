/-!
Command-line arguments. The format and verbosity options may stand before or
after the command; an option takes the next argument as its value unless that
looks like an option, and no option may be given twice at one level.
-/

namespace RecordGraph.Cli

inductive OutputFormat where
  | table
  | json
deriving DecidableEq, Repr

/-- Files and relations of the commands that process records. -/
structure Inputs where
  schema : String
  records : String
  config : Option String
  relations : Option String
deriving DecidableEq, Repr

inductive Command where
  | relations (text schema : String)
  | compile (inputs : Inputs)
  | dryRun (inputs : Inputs)
deriving DecidableEq, Repr

inductive Topic where
  | program
  | relations
  | compile
  | dryRun
  | help
deriving DecidableEq, Repr

inductive Invocation where
  | run (format : OutputFormat) (command : Command)
  | help (topic : Topic)
  | version
  /-- The arguments follow no known form. -/
  | misuse
deriving DecidableEq, Repr

/-- What has been given at one level of the command line. -/
structure Given where
  options : List (String × String)
  verbose : Bool
  positionals : List String

def Given.empty : Given := ⟨[], false, []⟩

inductive Scanned where
  | done (given : Given)
  | command (given : Given) (name : String) (rest : List String)
  | help
  | version
  | misuse

def Topic.ofName? : String → Option Topic
  | "relations" => some .relations
  | "compile" => some .compile
  | "dry-run" => some .dryRun
  | _ => none

def Topic.options : Topic → List String
  | .program => ["format"]
  | .help => []
  | .relations => ["format", "schema"]
  | .compile | .dryRun => ["format", "schema", "records", "config", "relations"]

def Topic.positionals : Topic → Nat
  | .relations => 1
  | _ => 0

def acceptsValue (option value : String) : Bool :=
  match option with
  | "format" => value == "table" || value == "json"
  | "relations" => true
  | _ => !value.isEmpty

def splitOption (s : List Char) : String × Option String :=
  let name := s.takeWhile (· != '=')
  match s.dropWhile (· != '=') with
  | _ :: value => (String.ofList name, some (String.ofList value))
  | [] => (String.ofList name, none)

def looksLikeOption (s : String) : Bool :=
  match s.toList with
  | '-' :: _ :: _ => true
  | _ => false

def Given.addOption? (g : Given) (name value : String) : Option Given :=
  if g.options.any (·.1 = name) || !acceptsValue name value then none
  else some { g with options := g.options ++ [(name, value)] }

def Given.addPositional? (g : Given) (topic : Topic) (text : String) : Option Given :=
  if g.positionals.length < topic.positionals then
    some { g with positionals := g.positionals ++ [text] }
  else none

def scanShort (topic : Topic) (g : Given) : List Char → Scanned
  | [] => .done g
  | 'v' :: rest => if g.verbose then .misuse else scanShort topic { g with verbose := true } rest
  | 'h' :: _ => .help
  | 'V' :: _ => if topic = .program then .version else .misuse
  | _ => .misuse

def scanPositionals (topic : Topic) : Given → List String → Scanned
  | g, [] => .done g
  | g, text :: rest =>
    match g.addPositional? topic text with
    | some g => scanPositionals topic g rest
    | none => .misuse

def scan (topic : Topic) : Given → List String → Scanned
  | g, [] => .done g
  | g, arg :: rest =>
    match arg.toList with
    | ['-', '-'] => scanPositionals topic g rest
    | '-' :: '-' :: body =>
      let (name, attached) := splitOption body
      if name = "help" && attached.isNone then .help
      else if name = "version" && attached.isNone && topic = .program then .version
      else if name = "verbose" then
        if g.verbose || attached.isSome then .misuse else scan topic { g with verbose := true } rest
      else if name ∈ topic.options then
        match attached, rest with
        | some value, rest =>
          match g.addOption? name value with
          | some g => scan topic g rest
          | none => .misuse
        | none, value :: rest =>
          if looksLikeOption value then .misuse
          else
            match g.addOption? name value with
            | some g => scan topic g rest
            | none => .misuse
        | none, [] => .misuse
      else .misuse
    | '-' :: c :: body =>
      match scanShort topic g (c :: body) with
      | .done g => scan topic g rest
      | other => other
    | _ =>
      if topic = .program then .command g arg rest
      else
        match g.addPositional? topic arg with
        | some g => scan topic g rest
        | none => .misuse

def Given.option? (g : Given) (name : String) : Option String :=
  g.options.lookup name

def formatOf (outer inner : Given) : OutputFormat :=
  match inner.option? "format" <|> outer.option? "format" with
  | some "json" => .json
  | _ => .table

def Given.inputs? (g : Given) : Option Inputs := do
  let schema ← g.option? "schema"
  let records ← g.option? "records"
  return ⟨schema, records, g.option? "config", g.option? "relations"⟩

def commandOf? (topic : Topic) (g : Given) : Option Command :=
  match topic with
  | .program | .help => none
  | .relations =>
    match g.positionals, g.option? "schema" with
    | [text], some schema => some (.relations text schema)
    | _, _ => none
  | .compile => g.inputs?.map .compile
  | .dryRun => g.inputs?.map .dryRun

def helpTopic : List String → Invocation
  | [] => .help .program
  | ["help"] => .help .help
  | [name] =>
    match Topic.ofName? name with
    | some topic => .help topic
    | none => .misuse
  | _ => .misuse

def parse (args : List String) : Invocation :=
  match scan .program .empty args with
  | .help => .help .program
  | .version => .version
  | .done _ | .misuse => .misuse
  | .command outer name rest =>
    if name = "help" then helpTopic rest
    else
      match Topic.ofName? name with
      | none => .misuse
      | some topic =>
        match scan topic .empty rest with
        | .help => .help topic
        | .done inner =>
          match commandOf? topic inner with
          | some command => .run (formatOf outer inner) command
          | none => .misuse
        | _ => .misuse

end RecordGraph.Cli
