import RecordGraph.Dict
import RecordGraph.Number.Shortest

/-!
Property values of graph nodes. Pattern agreement compares numbers across the
integer and floating-point kinds and never holds for null, not even with null;
equality is the comparison of data and keeps the kinds apart.
-/

namespace RecordGraph

open Number

inductive PropertyValue where
  | null
  | boolean (b : Bool)
  | integer (i : Int64)
  | float (x : Double)
  | string (s : String)
  | list (items : List PropertyValue)
deriving Inhabited

abbrev PropertyMap := Dict PropertyValue

namespace PropertyValue

def isNull : PropertyValue → Bool
  | null => true
  | _ => false

mutual

def decEq : (a b : PropertyValue) → Decidable (a = b)
  | null, null => isTrue rfl
  | boolean a, boolean b => decidable_of_iff (a = b) (by simp)
  | integer a, integer b => decidable_of_iff (a = b) (by simp)
  | float a, float b => decidable_of_iff (a = b) (by simp)
  | string a, string b => decidable_of_iff (a = b) (by simp)
  | list a, list b =>
    match decEqList a b with
    | isTrue h => isTrue (by rw [h])
    | isFalse h => isFalse (by simpa using h)
  | null, boolean _ | null, integer _ | null, float _ | null, string _ | null, list _
  | boolean _, null | boolean _, integer _ | boolean _, float _ | boolean _, string _
  | boolean _, list _ | integer _, null | integer _, boolean _ | integer _, float _
  | integer _, string _ | integer _, list _ | float _, null | float _, boolean _
  | float _, integer _ | float _, string _ | float _, list _ | string _, null
  | string _, boolean _ | string _, integer _ | string _, float _ | string _, list _
  | list _, null | list _, boolean _ | list _, integer _ | list _, float _
  | list _, string _ => isFalse (by simp)

def decEqList : (a b : List PropertyValue) → Decidable (a = b)
  | [], [] => isTrue rfl
  | x :: xs, y :: ys =>
    match decEq x y, decEqList xs ys with
    | isTrue h, isTrue t => isTrue (by rw [h, t])
    | isFalse h, _ => isFalse (by simp [h])
    | _, isFalse t => isFalse (by simp [t])
  | [], _ :: _ => isFalse (by simp)
  | _ :: _, [] => isFalse (by simp)

end

instance : DecidableEq PropertyValue := decEq

mutual

/-- Equality of data, in which a NaN differs from itself and the two zeros agree. -/
def equals : PropertyValue → PropertyValue → Bool
  | null, null => true
  | boolean a, boolean b => a == b
  | integer a, integer b => a == b
  | float a, float b => a.equals b
  | string a, string b => a == b
  | list a, list b => equalsList a b
  | _, _ => false

def equalsList : List PropertyValue → List PropertyValue → Bool
  | [], [] => true
  | x :: xs, y :: ys => equals x y && equalsList xs ys
  | _, _ => false

end

mutual

/-- Agreement of a stored value with a pattern's value. -/
def agrees : PropertyValue → PropertyValue → Bool
  | boolean a, boolean b => a == b
  | integer a, integer b => a == b
  | integer a, float b => (Binary.ofInt .double a.toInt).equals b
  | float a, integer b => (Binary.ofInt .double b.toInt).equals a
  | float a, float b => a.equals b
  | string a, string b => a == b
  | list a, list b => agreesList a b
  | _, _ => false

def agreesList : List PropertyValue → List PropertyValue → Bool
  | [], [] => true
  | x :: xs, y :: ys => agrees x y && agreesList xs ys
  | _, _ => false

end

def typeName : PropertyValue → String
  | null => "Null"
  | boolean _ => "Boolean"
  | integer _ => "Integer"
  | float _ => "Float"
  | string _ => "String"
  | list _ => "List"

mutual

def display : PropertyValue → String
  | null => "null"
  | boolean b => if b then "true" else "false"
  | integer i => intText i.toInt
  | float x => x.plainText
  | string s => s
  | list items => "[" ++ ", ".intercalate (displayAll items) ++ "]"

def displayAll : List PropertyValue → List String
  | [] => []
  | v :: rest => display v :: displayAll rest

end

end PropertyValue

end RecordGraph
