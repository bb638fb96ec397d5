import RecordGraph.Dict
import RecordGraph.Number.Shortest

/-!
JSON values. An object keeps its members as written, repeated names included;
its canonical form has each name once, with the last value, in name order. A
number is whole when it is written as an integer of at most 64 bits.
-/

namespace RecordGraph

open Number

inductive JsonNumber where
  | whole (i : Int)
  | float (x : Double)
deriving DecidableEq

inductive Json where
  | null
  | bool (b : Bool)
  | number (n : JsonNumber)
  | string (s : String)
  | array (items : List Json)
  | object (members : List (String × Json))
deriving Inhabited

namespace JsonNumber

def toInt64? : JsonNumber → Option Int64
  | whole i => if Int64.minValue.toInt ≤ i ∧ i ≤ Int64.maxValue.toInt then some (Int64.ofInt i) else none
  | float _ => none

def toInt32? : JsonNumber → Option Int32
  | whole i => if Int32.minValue.toInt ≤ i ∧ i ≤ Int32.maxValue.toInt then some (Int32.ofInt i) else none
  | float _ => none

def toDouble : JsonNumber → Double
  | whole i => Binary.ofInt .double i
  | float x => x

end JsonNumber

namespace Json

def typeName : Json → String
  | null => "null"
  | bool _ => "boolean"
  | number _ => "number"
  | string _ => "string"
  | array _ => "array"
  | object _ => "object"

def asString? : Json → Option String
  | string s => some s
  | _ => none

def asArray? : Json → Option (List Json)
  | array items => some items
  | _ => none

/-- The value of a name in an object, the last one if the name is repeated. -/
def field? (name : String) : Json → Option Json
  | object members => (members.reverse.find? (fun e => e.1 = name)).map (·.2)
  | _ => none

mutual

/-- The same value with each object's names in order and without repetition. -/
def canonical : Json → Json
  | array items => array (canonicalItems items)
  | object members => object (Dict.ofList (canonicalMembers members)).entries
  | j => j

def canonicalItems : List Json → List Json
  | [] => []
  | j :: rest => canonical j :: canonicalItems rest

def canonicalMembers : List (String × Json) → List (String × Json)
  | [] => []
  | (name, j) :: rest => (name, canonical j) :: canonicalMembers rest

end

def ofInt (i : Int) : Json := number (.whole i)
def ofNat (n : Nat) : Json := number (.whole n)
def ofStrings (texts : List String) : Json := array (texts.map string)

end Json

end RecordGraph
