import RecordGraph.Compiler.Settings
import RecordGraph.Json.Fields
import RecordGraph.Upsert.Writer

/-!
Settings as they are written. JSON and YAML both come down to texts, other
scalars, and lists and groups of settings. A choice is written as its name, or as
a group of its name, or of its place among the choices, and nothing.
-/

namespace RecordGraph

inductive Setting where
  | null
  | text (s : String)
  /-- A whole number without sign. -/
  | natural (n : Nat)
  /-- A boolean or any other number. -/
  | scalar
  | items (settings : List Setting)
  | group (entries : List (Setting × Setting))
deriving Inhabited

namespace Setting

mutual

def ofJson : Json → Setting
  | .null => null
  | .bool _ => scalar
  | .number (.whole i) => if 0 ≤ i then natural i.toNat else scalar
  | .number (.float _) => scalar
  | .string s => text s
  | .array xs => items (ofJsonItems xs)
  | .object members => group (ofJsonMembers members)

def ofJsonItems : List Json → List Setting
  | [] => []
  | j :: rest => ofJson j :: ofJsonItems rest

def ofJsonMembers : List (String × Json) → List (Setting × Setting)
  | [] => []
  | (name, j) :: rest => (text name, ofJson j) :: ofJsonMembers rest

end

def text? : Setting → Option String
  | text s => some s
  | _ => none

def optionalText? : Setting → Option (Option String)
  | null => some none
  | s => s.text?.map some

/-- A choice among `all`, in their order; `nothing` says what may stand beside its name. -/
def choice? {α : Type} (ofName : String → Option α) (all : List α) (nothing : Setting → Bool) :
    Setting → Option α
  | text s => ofName s
  | group [(text name, value)] => if nothing value then ofName name else none
  | group [(natural place, value)] => if nothing value then all[place]? else none
  | _ => none

def isNull : Setting → Bool
  | null => true
  | _ => false

def isNothing : Setting → Bool
  | null => true
  | group [] => true
  | _ => false

/-- A field that may be missing, and must be readable if it is there. -/
def orDefault {α : Type} (default : α) (read : Setting → Option α) : Option Setting → Option α
  | none => some default
  | some s => read s

end Setting

def Escape.name : Escape → String
  | cypher => "cypher"
  | verbatim => "verbatim"

def Escape.all : List Escape := [cypher, verbatim]

def Escape.ofName? : String → Option Escape
  | "cypher" => some cypher
  | "verbatim" => some verbatim
  | _ => none

def NullPolicy.name : NullPolicy → String
  | dropNull => "omit"
  | writeNull => "write_null"

def NullPolicy.all : List NullPolicy := [dropNull, writeNull]

def NullPolicy.ofName? : String → Option NullPolicy
  | "omit" => some dropNull
  | "write_null" => some writeNull
  | _ => none

def FailurePolicy.name : FailurePolicy → String
  | abort => "abort"
  | skip => "skip"

def FailurePolicy.all : List FailurePolicy := [abort, skip]

def FailurePolicy.ofName? : String → Option FailurePolicy
  | "abort" => some abort
  | "skip" => some skip
  | _ => none

@[simp] theorem Escape.ofName?_name (e : Escape) : ofName? e.name = some e := by
  cases e <;> rfl

@[simp] theorem NullPolicy.ofName?_name (p : NullPolicy) : ofName? p.name = some p := by
  cases p <;> rfl

@[simp] theorem FailurePolicy.ofName?_name (p : FailurePolicy) : ofName? p.name = some p := by
  cases p <;> rfl

end RecordGraph
