import RecordGraph.Graph.Property

/-!
Statements of the dialect: clauses in order, then the variable whose nodes are
returned. A clause matches or merges a node pattern, merges a relationship
between two variables, or sets a property.
-/

namespace RecordGraph.Dialect

structure NodePattern where
  var : String
  labels : List String
  properties : PropertyMap
deriving DecidableEq

/-- The direction of an arrow as written. -/
inductive Arrow where
  | leftToRight
  | rightToLeft
  | undirected
deriving DecidableEq, Repr

structure RelationshipPattern where
  left : String
  right : String
  type : String
  arrow : Arrow
deriving DecidableEq

structure Assignment where
  var : String
  key : String
  value : PropertyValue
deriving DecidableEq

inductive Clause where
  | matchNode (pattern : NodePattern)
  | mergeNode (pattern : NodePattern)
  | mergeRelationship (pattern : RelationshipPattern)
  | set (item : Assignment)
deriving DecidableEq

structure Statement where
  clauses : List Clause
  returns : String
deriving DecidableEq

def RelationshipPattern.endpoints? (p : RelationshipPattern) : Option (String × String) :=
  match p.arrow with
  | .leftToRight => some (p.left, p.right)
  | .rightToLeft => some (p.right, p.left)
  | .undirected => none

def Clause.isMatch : Clause → Bool
  | matchNode _ => true
  | _ => false

def Statement.isReadOnly (s : Statement) : Bool :=
  s.clauses.all Clause.isMatch

end RecordGraph.Dialect
