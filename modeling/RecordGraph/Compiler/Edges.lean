import RecordGraph.Compiler.Related

/-!
Relationship clauses. Each relation merges one edge to every match of its field,
in relation order and then match order; a field that is no structural field of
the record is refused.
-/

namespace RecordGraph.Related

def edgeClause (node label : String) (direction : Direction) (other : String) : String :=
  let edge := "[:" ++ label ++ "]"
  match direction with
  | .outgoing => "MERGE (" ++ node ++ ")-" ++ edge ++ "->(" ++ other ++ ")"
  | .incoming => "MERGE (" ++ node ++ ")<-" ++ edge ++ "-(" ++ other ++ ")"
  | .undirected => "MERGE (" ++ node ++ ")-" ++ edge ++ "-(" ++ other ++ ")"

def edgeClauses (related : Related) (node : String) :
    List Relation → Except RelationError (List String)
  | [] => .ok []
  | r :: rest =>
    match related.matchesOf? r.field with
    | none => .error (.unknownTarget r.field)
    | some found => do
      let label := Statement.escapeName r.label
      let more ← edgeClauses related node rest
      return found.map (fun m => edgeClause node label r.direction m.node) ++ more

end RecordGraph.Related
