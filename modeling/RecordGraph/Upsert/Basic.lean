import RecordGraph.Compiler.Basic
import RecordGraph.Session.Basic

/-!
Upserts. A record's node is looked up by key inside one transaction and then
updated if it is there and created with its edges otherwise. The statements are
compiled before the session is touched; an error in the create statement counts
only when the lookup finds no node. Any error rolls the transaction back.
-/

namespace RecordGraph

inductive UpsertError where
  | compile (cause : CompileError)
  | ambiguous (keyField keyValue : String) (count : Nat)
  | execution (cause : SessionError)
  | creationFailed (keyField keyValue : String)

def UpsertError.message : UpsertError → String
  | compile cause => cause.message
  | ambiguous keyField keyValue count =>
    Number.natText count ++ " nodes match " ++ keyField ++ "=" ++ keyValue
  | execution cause => "Execution failed: " ++ cause.message
  | creationFailed keyField keyValue => "No node returned for " ++ keyField ++ "=" ++ keyValue

inductive UpsertOutcome where
  | created (node : GraphNode)
  | updated (node : GraphNode)
deriving DecidableEq

namespace UpsertOutcome

def node : UpsertOutcome → GraphNode
  | created n | updated n => n

def isCreated : UpsertOutcome → Bool
  | created _ => true
  | updated _ => false

end UpsertOutcome

def singleNode (nodes : List GraphNode) (keyField : String) (keyValue : FieldValue) :
    Except UpsertError (Option GraphNode) :=
  match nodes with
  | [] => .ok none
  | [n] => .ok (some n)
  | _ => .error (.ambiguous keyField keyValue.display nodes.length)

/-- The statements of one upsert. -/
structure PreparedUpsert where
  identity : Identity
  lookup : CompiledStatement
  update : CompiledStatement
  create : Except CompileError CompiledStatement

namespace CompilerSettings

def prepareUpsert (s : CompilerSettings) (record : Record) (relations : List Relation) :
    Except CompileError PreparedUpsert := do
  let identity ← s.identityOf record
  let lookup ← s.compileLookup identity
  let update ← s.compileUpdate record identity
  return ⟨identity, lookup, update, s.compileCreate record relations⟩

end CompilerSettings

namespace PreparedUpsert

variable {τ : Type} [Transaction τ]

def writeNode (p : PreparedUpsert) (tx : τ) (statement : CompiledStatement) :
    Except UpsertError GraphNode × τ :=
  match Transaction.run tx statement.text with
  | (.error e, tx) => (.error (.execution e), tx)
  | (.ok [], tx) => (.error (.creationFailed p.identity.keyField p.identity.keyValue.display), tx)
  | (.ok (n :: _), tx) => (.ok n, tx)

def write (p : PreparedUpsert) (tx : τ) : Except UpsertError UpsertOutcome × τ :=
  match Transaction.run tx p.lookup.text with
  | (.error e, tx) => (.error (.execution e), tx)
  | (.ok nodes, tx) =>
    match singleNode nodes p.identity.keyField p.identity.keyValue with
    | .error e => (.error e, tx)
    | .ok (some _) =>
      match p.writeNode tx p.update with
      | (.ok n, tx) => (.ok (.updated n), tx)
      | (.error e, tx) => (.error e, tx)
    | .ok none =>
      match p.create with
      | .error e => (.error (.compile e), tx)
      | .ok create =>
        match p.writeNode tx create with
        | (.ok n, tx) => (.ok (.created n), tx)
        | (.error e, tx) => (.error e, tx)

end PreparedUpsert

namespace CompilerSettings

variable {σ τ : Type} [Engine σ τ]

def upsert [Transaction τ] (s : CompilerSettings) (session : σ) (record : Record) (relations : List Relation) :
    Except UpsertError UpsertOutcome × σ :=
  match s.prepareUpsert record relations with
  | .error e => (.error (.compile e), session)
  | .ok prepared =>
    match Engine.start session with
    | .error (e, session) => (.error (.execution e), session)
    | .ok tx =>
      match prepared.write tx with
      | (.error e, tx) => (.error e, (Engine.rollback tx).2)
      | (.ok outcome, tx) =>
        match Engine.commit tx with
        | (.ok (), session) => (.ok outcome, session)
        | (.error e, session) => (.error (.execution e), session)

def findByKey (s : CompilerSettings) (session : σ) (keyField : String) (keyValue : FieldValue) :
    Except UpsertError (Option GraphNode) × σ :=
  match s.compileKeyLookup keyField keyValue with
  | .error e => (.error (.compile e), session)
  | .ok lookup =>
    match Engine.read session lookup.text with
    | (.error e, session) => (.error (.execution e), session)
    | (.ok nodes, session) => (singleNode nodes keyField keyValue, session)

def missingAmong (s : CompilerSettings) :
    List Identity → σ → Except UpsertError (List Identity) × σ
  | [], session => (.ok [], session)
  | identity :: rest, session =>
    match s.findByKey session identity.keyField identity.keyValue with
    | (.error e, session) => (.error e, session)
    | (.ok found, session) =>
      match s.missingAmong rest session with
      | (.error e, session) => (.error e, session)
      | (.ok more, session) => (.ok (if found.isNone then identity :: more else more), session)

/-- Related records without a node, in the order in which the create statement matches them. -/
def missingReferences (s : CompilerSettings) (session : σ) (record : Record) :
    Except UpsertError (List Identity) × σ :=
  match s.related record with
  | .error e => (.error (.compile e), session)
  | .ok related =>
    s.missingAmong ((related.bindings.flatMap (·.2)).map (·.identity)) session

end CompilerSettings

end RecordGraph
