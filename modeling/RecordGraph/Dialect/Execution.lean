import RecordGraph.Dialect.Parser
import RecordGraph.Graph.Store

/-!
Execution of statements. Clauses run left to right over rows, each of which binds
variables to nodes, starting from one empty row. What a clause has changed before
it fails stays changed, and is counted; callers that want all or nothing run on a
copy of the store.
-/

namespace RecordGraph

inductive ExecutionError where
  | parse (cause : ParseError)
  | store (cause : StoreError)
  | unbound (var : String)
  | alreadyBound (var : String)
  | nullInMerge (key : String)
  | notReadOnly
deriving DecidableEq

def ExecutionError.message : ExecutionError → String
  | parse cause => cause.message
  | store cause => "Graph error: " ++ cause.message
  | unbound var => "Variable '" ++ var ++ "' is not bound"
  | alreadyBound var => "Variable '" ++ var ++ "' is already bound"
  | nullInMerge key => "Cannot merge node using null property value for '" ++ key ++ "'"
  | notReadOnly => "Statement modifies the graph but was run as a read"

namespace Dialect

/-- What one statement has changed. -/
structure Stats where
  nodesCreated : Nat
  relationshipsCreated : Nat
  propertiesSet : Nat
deriving DecidableEq

def Stats.zero : Stats := ⟨0, 0, 0⟩

/-- A store being changed, with what has been changed so far. -/
structure Progress where
  store : Store
  stats : Stats

abbrev Row := List (String × Nat)

def Row.node? (row : Row) (var : String) : Option Nat :=
  row.lookup var

def Row.bind (row : Row) (var : String) (id : Nat) : Row :=
  row ++ [(var, id)]

abbrev Outcome (α : Type) := Except ExecutionError α × Progress

/-- Rows that a match leaves of one row: itself if its node is found, else one per node found. -/
def matchRow (var : String) (found : List Nat) (row : Row) : List Row :=
  match row.node? var with
  | some id => if found.contains id then [row] else []
  | none => found.map (row.bind var)

def matchRows (p : NodePattern) (store : Store) (rows : List Row) : List Row :=
  rows.flatMap (matchRow p.var (store.findNodes p.labels p.properties))

def findOrCreate (p : NodePattern) (g : Progress) : List Nat × Progress :=
  match g.store.findNodes p.labels p.properties with
  | [] =>
    let (id, store) := g.store.createNode p.labels p.properties
    ([id], ⟨store, { g.stats with nodesCreated := g.stats.nodesCreated + 1 }⟩)
  | found => (found, g)

def mergeNodeRows (p : NodePattern) : List Row → Progress → Outcome (List Row)
  | [], g => (.ok [], g)
  | row :: rest, g =>
    if (row.node? p.var).isSome then (.error (.alreadyBound p.var), g)
    else
      let (found, g) := findOrCreate p g
      match mergeNodeRows p rest g with
      | (.ok rows, g) => (.ok (found.map (row.bind p.var) ++ rows), g)
      | (.error e, g) => (.error e, g)

def mergePattern (p : NodePattern) (rows : List Row) (g : Progress) : Outcome (List Row) :=
  match p.properties.entries.find? (fun e => e.2.isNull) with
  | some e => (.error (.nullInMerge e.1), g)
  | none => mergeNodeRows p rows g

def bound (row : Row) (var : String) : Except ExecutionError Nat :=
  match row.node? var with
  | some id => .ok id
  | none => .error (.unbound var)

def Arrow.orient (arrow : Arrow) (left right : Nat) : Nat × Nat :=
  match arrow with
  | .rightToLeft => (right, left)
  | .leftToRight | .undirected => (left, right)

def mergeEdge (p : RelationshipPattern) (left right : Nat) (g : Progress) : Outcome Unit :=
  let (source, target) := p.arrow.orient left right
  if (g.store.findEdge? source target p.type (p.arrow ≠ .undirected)).isSome then (.ok (), g)
  else
    match g.store.createEdge source target p.type with
    | .error e => (.error (.store e), g)
    | .ok (_, store) =>
      (.ok (), ⟨store, { g.stats with relationshipsCreated := g.stats.relationshipsCreated + 1 }⟩)

def mergeRelationshipRow (p : RelationshipPattern) (row : Row) (g : Progress) : Outcome Unit :=
  match bound row p.left, bound row p.right with
  | .ok left, .ok right => mergeEdge p left right g
  | .error e, _ => (.error e, g)
  | _, .error e => (.error e, g)

def setRow (a : Assignment) (row : Row) (g : Progress) : Outcome Unit :=
  match bound row a.var with
  | .error e => (.error e, g)
  | .ok id =>
    match g.store.setProperty id a.key a.value with
    | .error e => (.error (.store e), g)
    | .ok store =>
      (.ok (), ⟨store, { g.stats with propertiesSet := g.stats.propertiesSet + 1 }⟩)

def eachRow (step : Row → Progress → Outcome Unit) : List Row → Progress → Outcome Unit
  | [], g => (.ok (), g)
  | row :: rest, g =>
    match step row g with
    | (.ok (), g) => eachRow step rest g
    | (.error e, g) => (.error e, g)

def Clause.run (c : Clause) (rows : List Row) (g : Progress) : Outcome (List Row) :=
  match c with
  | .matchNode p => (.ok (matchRows p g.store rows), g)
  | .mergeNode p => mergePattern p rows g
  | .mergeRelationship p =>
    match eachRow (mergeRelationshipRow p) rows g with
    | (.ok (), g) => (.ok rows, g)
    | (.error e, g) => (.error e, g)
  | .set a =>
    match eachRow (setRow a) rows g with
    | (.ok (), g) => (.ok rows, g)
    | (.error e, g) => (.error e, g)

def runClauses : List Clause → List Row → Progress → Outcome (List Row)
  | [], rows, g => (.ok rows, g)
  | c :: rest, rows, g =>
    match c.run rows g with
    | (.ok rows, g) => runClauses rest rows g
    | (.error e, g) => (.error e, g)

def returned (var : String) (store : Store) : List Row → Except ExecutionError (List Node)
  | [] => .ok []
  | row :: rest => do
    let id ← bound row var
    let node ← match store.node? id with
      | some n => .ok n
      | none => .error (.store (.nodeNotFound id))
    let more ← returned var store rest
    return node :: more

def Statement.run (s : Statement) (store : Store) : Outcome (List Node) :=
  match runClauses s.clauses [[]] ⟨store, .zero⟩ with
  | (.ok rows, g) => (returned s.returns g.store rows, g)
  | (.error e, g) => (.error e, g)

def execute (text : String) (store : Store) : Except ExecutionError (List Node) × Store :=
  match parse text with
  | .error e => (.error (.parse e), store)
  | .ok s =>
    let (result, g) := s.run store
    (result, g.store)

def executeRead (text : String) (store : Store) : Except ExecutionError (List Node) :=
  match parse text with
  | .error e => .error (.parse e)
  | .ok s => if s.isReadOnly then (s.run store).1 else .error .notReadOnly

end Dialect

end RecordGraph
