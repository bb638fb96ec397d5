import RecordGraph.Statement.Literal
import RecordGraph.Text.Blank

/-!
Assembly of statements from clause texts. Blank clauses are dropped, the return
clause comes last, and the text joins all clauses by single spaces.
-/

namespace RecordGraph

structure CompiledStatement where
  clauses : List String
  /-- Aliases bound by the statement, in binding order. -/
  aliases : List String
deriving DecidableEq, Inhabited

def CompiledStatement.text (s : CompiledStatement) : String :=
  " ".intercalate s.clauses

namespace Statement

structure Draft where
  clauses : List String
  aliases : List String

namespace Draft

def empty : Draft := ⟨[], []⟩

def append (d : Draft) (clauses aliases : List String) : Draft :=
  ⟨d.clauses ++ clauses, d.aliases ++ aliases⟩

def addClauses (d : Draft) (clauses : List String) : Draft :=
  ⟨d.clauses ++ clauses.filter (fun c => !Text.isBlankText c), d.aliases⟩

def bindAlias (d : Draft) (clause node : String) : Draft :=
  { d with aliases := d.aliases ++ [node] }.addClauses [clause]

def returning (d : Draft) (node : String) : CompiledStatement :=
  ⟨d.clauses ++ ["RETURN " ++ node], d.aliases⟩

end Draft

def mergeNodeClause (node label : String) (properties : List String) : String :=
  let head := "MERGE (" ++ node ++ ":" ++ escapeName label
  if properties.isEmpty then head ++ ")" else head ++ " " ++ propertyMap properties ++ ")"

/-- Matches the nodes whose property `key` has the value written as `literal`. -/
def matchKeyClause (node key literal : String) : String :=
  "MATCH (" ++ node ++ " " ++ propertyMap [escapeName key ++ ":" ++ literal] ++ ")"

end Statement

end RecordGraph
