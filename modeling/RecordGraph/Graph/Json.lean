import RecordGraph.Json.Fields
import RecordGraph.Session.Basic

/-!
JSON forms of graph values. A property value is bare JSON, integers and other
numbers kept apart; an object is none. Nodes and edges are objects, or arrays of
their fields in order, and carry the times at which they were written.
-/

namespace RecordGraph

mutual

def PropertyValue.toJson : PropertyValue → Json
  | .null => .null
  | .boolean b => .bool b
  | .integer i => .ofInt i.toInt
  | .float x => .number (.float x)
  | .string s => .string s
  | .list items => .array (PropertyValue.itemsToJson items)

def PropertyValue.itemsToJson : List PropertyValue → List Json
  | [] => []
  | v :: rest => v.toJson :: PropertyValue.itemsToJson rest

end

mutual

def PropertyValue.ofJson? : Json → Option PropertyValue
  | .null => some .null
  | .bool b => some (.boolean b)
  | .number n =>
    match n.toInt64? with
    | some i => some (.integer i)
    | none => some (.float n.toDouble)
  | .string s => some (.string s)
  | .array items => (PropertyValue.itemsOfJson? items).map .list
  | .object _ => none

def PropertyValue.itemsOfJson? : List Json → Option (List PropertyValue)
  | [] => some []
  | j :: rest => do
    let v ← PropertyValue.ofJson? j
    let more ← PropertyValue.itemsOfJson? rest
    return v :: more

end

namespace PropertyMap

def toJson (m : PropertyMap) : Json :=
  .object (m.entries.map fun e => (e.1, e.2.toJson))

def ofMembers? : List (String × Json) → Option (List (String × PropertyValue))
  | [] => some []
  | (key, j) :: rest => do
    let v ← PropertyValue.ofJson? j
    let more ← ofMembers? rest
    return (key, v) :: more

def ofJson? : Json → Option PropertyMap
  | .object members => (ofMembers? members).map Dict.ofList
  | _ => none

end PropertyMap

namespace GraphNode

def toJson (n : GraphNode) : Json :=
  .object [("id", .string n.id), ("labels", .ofStrings n.labels),
    ("properties", PropertyMap.toJson n.properties)]

def ofJson? (w : Json.Written) : Option GraphNode :=
  match w.structureFields? ["id", "labels", "properties"] with
  | some [some id, some labels, some properties] => do
    let id ← id.asString?
    let labels ← labels.toStrings?
    let properties ← PropertyMap.ofJson? properties
    return ⟨id, labels, properties⟩
  | _ => none

end GraphNode

/-- A node with its times, in milliseconds. -/
structure NodeEntry where
  node : Node
  createdAt : Int64
  updatedAt : Int64

namespace NodeEntry

def toJson (e : NodeEntry) : Json :=
  .object [("id", .ofNat e.node.id), ("labels", .ofStrings e.node.labels),
    ("properties", PropertyMap.toJson e.node.properties),
    ("created_at", .ofInt e.createdAt.toInt), ("updated_at", .ofInt e.updatedAt.toInt)]

def ofJson? (w : Json.Written) : Option NodeEntry :=
  match w.structureFields? ["id", "labels", "properties", "created_at", "updated_at"] with
  | some [some id, some labels, some properties, some created, some updated] => do
    let id ← id.toId?
    let labels ← labels.toStrings?
    let properties ← PropertyMap.ofJson? properties
    let created ← created.toInt64?
    let updated ← updated.toInt64?
    return ⟨⟨id, Node.labelSet labels, properties⟩, created, updated⟩
  | _ => none

end NodeEntry

/-- An edge with its time, in milliseconds. -/
structure EdgeEntry where
  edge : Edge
  createdAt : Int64

namespace EdgeEntry

def toJson (e : EdgeEntry) : Json :=
  .object [("id", .ofNat e.edge.id), ("source", .ofNat e.edge.source),
    ("target", .ofNat e.edge.target), ("edge_type", .string e.edge.type),
    ("created_at", .ofInt e.createdAt.toInt)]

def ofJson? (w : Json.Written) : Option EdgeEntry :=
  match w.structureFields? ["id", "source", "target", "edge_type", "created_at"] with
  | some [some id, some source, some target, some type, some created] => do
    let id ← id.toId?
    let source ← source.toId?
    let target ← target.toId?
    let type ← type.asString?
    let created ← created.toInt64?
    return ⟨⟨id, source, target, type⟩, created⟩
  | _ => none

end EdgeEntry

end RecordGraph
