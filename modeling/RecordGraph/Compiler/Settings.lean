import RecordGraph.Relation.Basic
import RecordGraph.Statement.Literal
import RecordGraph.Text.Blank

/-!
Settings of statement compilation and the errors it can end in. The alias of the
written node must be a plain name outside the aliases of matched nodes, and the
names of the label field and the key field must not be blank.
-/

namespace RecordGraph

structure CompilerSettings where
  labelField : String
  keyField : String
  nodeAlias : String
  escape : Escape
  createNulls : NullPolicy
deriving DecidableEq

def CompilerSettings.default : CompilerSettings :=
  ⟨"type", "uid", "m", .cypher, .dropNull⟩

inductive SettingDefect where
  | notPlain
  | reserved
  | empty
deriving DecidableEq

inductive CompileError where
  | inconsistent (cause : Inconsistency)
  | missingIdentity (record field : String)
  | relation (cause : RelationError)
  | invalidSetting (setting value : String) (defect : SettingDefect)

def SettingDefect.text : SettingDefect → String
  | notPlain => "not a plain identifier"
  | reserved => "reserved for matched nodes"
  | empty => "must not be empty"

def CompileError.message : CompileError → String
  | inconsistent cause =>
    "Schema inconsistency in field '" ++ cause.field ++ "': " ++ cause.reason.text
  | missingIdentity record field =>
    "Record '" ++ record ++ "' has no identity: field '" ++ field ++ "' is missing or empty"
  | relation cause => "Relation error: " ++ cause.message
  | invalidSetting setting value defect =>
    "Invalid setting '" ++ setting ++ "' = '" ++ value ++ "': " ++ defect.text

namespace CompilerSettings

/-- Aliases of matched nodes are the letter `a` and a number. -/
def isMatchAlias (name : String) : Bool :=
  match name.toList with
  | 'a' :: c :: rest => Statement.isAsciiDigit c && rest.all Statement.isAsciiDigit
  | _ => false

def validate (s : CompilerSettings) : Except CompileError Unit :=
  if !Statement.isPlainName s.nodeAlias.toList then
    .error (.invalidSetting "node_alias" s.nodeAlias .notPlain)
  else if isMatchAlias s.nodeAlias then
    .error (.invalidSetting "node_alias" s.nodeAlias .reserved)
  else if Text.isBlankText s.labelField then
    .error (.invalidSetting "label_field" s.labelField .empty)
  else if Text.isBlankText s.keyField then
    .error (.invalidSetting "key_field" s.keyField .empty)
  else .ok ()

theorem validate_eq_ok_iff (s : CompilerSettings) :
    s.validate = .ok () ↔ Statement.isPlainName s.nodeAlias.toList = true ∧
      isMatchAlias s.nodeAlias = false ∧ Text.isBlankText s.labelField = false ∧
      Text.isBlankText s.keyField = false := by
  unfold validate
  cases Statement.isPlainName s.nodeAlias.toList <;> cases isMatchAlias s.nodeAlias <;>
    cases Text.isBlankText s.labelField <;> cases Text.isBlankText s.keyField <;> simp

end CompilerSettings

end RecordGraph
