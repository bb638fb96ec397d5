import RecordGraph.Yaml.BlockScalar
import RecordGraph.Yaml.Plain
import RecordGraph.Yaml.Quoted
import RecordGraph.Yaml.Token

/-!
Taking a text apart into tokens. Outside of flow collections the column of a token
begins and ends collections. A token that may turn out to be a key is remembered
until its line ends, or more bytes than a key may have lie behind it; a value
indicator then puts the key's token before it.
-/

namespace RecordGraph.Yaml

/-- A token that may be a key: where it stands, how many tokens come before it, and whether its
column leaves it nothing else to be. -/
structure PossibleKey where
  required : Bool
  before : Nat
  position : Position

structure Lexer where
  cursor : Cursor
  /-- The tokens so far, last one first. -/
  tokens : List Token
  count : Nat
  /-- The columns of the open collections of lines, innermost first. -/
  columns : List Nat
  /-- Whether a key may begin here. -/
  mayBeKey : Bool
  /-- The possible key of the innermost flow collection, or of the lines if none is open. -/
  key : Option PossibleKey
  /-- The possible keys outside of each open flow collection, innermost first. -/
  outerKeys : List (Option PossibleKey)

namespace Lexer

def start (text : List Char) : Lexer :=
  ⟨.start text, [], 0, [], true, none, []⟩

def inFlow (l : Lexer) : Bool :=
  !l.outerKeys.isEmpty

def column (l : Lexer) : Int :=
  match l.columns with
  | [] => -1
  | c :: _ => c

def inside (l : Lexer) : Nat :=
  (l.column + 1).toNat

def add (t : Token) (l : Lexer) : Lexer :=
  { l with tokens := t :: l.tokens, count := l.count + 1 }

def insert (before : Nat) (ts : List Token) (l : Lexer) : Lexer :=
  let later := l.count - before
  { l with
    tokens := l.tokens.take later ++ ts.reverse ++ l.tokens.drop later
    count := l.count + ts.length }

def skip (n : Nat) (l : Lexer) : Lexer :=
  { l with cursor := l.cursor.skip n }

def take (n : Nat) (t : Token) (l : Lexer) : Lexer :=
  (l.add t).skip n

def allowKey (allowed : Bool) (l : Lexer) : Lexer :=
  { l with mayBeKey := allowed }

/-! Collections of lines -/

/-- Begins a collection at a column deeper than the open ones; the token for it goes after the
first `before` ones. -/
def beginLines (column before : Nat) (t : Token) (l : Lexer) : Lexer :=
  if l.inFlow || (column : Int) ≤ l.column then l
  else { l.insert before [t] with columns := column :: l.columns }

def endLines (column : Int) (l : Lexer) : Lexer :=
  if l.inFlow then l
  else
    let deeper := l.columns.takeWhile fun (c : Nat) => column < c
    { l with
      tokens := List.replicate deeper.length .blockEnd ++ l.tokens
      count := l.count + deeper.length
      columns := l.columns.drop deeper.length }

/-! Keys -/

def maxKeyBytes : Nat := 1024

def isPast (p : Position) (k : PossibleKey) : Bool :=
  k.position.line < p.line || k.position.bytes + maxKeyBytes < p.bytes

def dropPast? (l : Lexer) : Option Lexer :=
  match l.key with
  | none => some l
  | some k =>
    if !isPast l.cursor.position k then some l
    else if k.required then none
    else some { l with key := none }

def dropKey? (l : Lexer) : Option Lexer :=
  if l.key.any (·.required) then none else some { l with key := none }

def noteKey? (l : Lexer) : Option Lexer :=
  if !l.mayBeKey then some l
  else
    l.dropKey?.map fun l =>
      let required := !l.inFlow && l.column = (l.cursor.column : Int)
      { l with key := some ⟨required, l.count, l.cursor.position⟩ }

/-! Steps -/

def skipGap : Nat → Lexer → Lexer
  | 0, l => l
  | fuel + 1, l =>
    let c := l.cursor
    let c := if c.column = 0 && c.nextIs (· == '\ufeff') then c.skip 1 else c
    let c := c.skipWhile fun x => x == ' ' || (x == '\t' && (l.inFlow || !l.mayBeKey))
    let c := c.skipComment
    if c.nextIs isBreak then
      skipGap fuel { l with cursor := c.skip 1, mayBeKey := l.mayBeKey || !l.inFlow }
    else { l with cursor := c }

def node? (rule : Rule Token) (l : Lexer) : Option Lexer :=
  l.noteKey?.bind fun l =>
  (rule l.cursor).map fun (t, c) => { (l.add t).allowKey false with cursor := c }

def plainNode? (l : Lexer) : Option Lexer :=
  l.noteKey?.bind fun l =>
  (plain l.inFlow l.inside l.cursor).map fun (s, c) =>
    { (l.add (.scalar true s.text)).allowKey s.endsLine with cursor := c }

def blockScalar? (l : Lexer) : Option Lexer :=
  l.dropKey?.bind fun l =>
  (blockScalar l.column l.cursor).map fun (s, c) =>
    { (l.add (.scalar false s)).allowKey true with cursor := c }

def boundary? (rule : Rule Token) (l : Lexer) : Option Lexer :=
  (l.endLines (-1)).dropKey?.bind fun l =>
  (rule l.cursor).map fun (t, c) => { (l.add t).allowKey false with cursor := c }

def marker? (t : Token) (l : Lexer) : Option Lexer :=
  l.boundary? fun c => some (t, c.skip 3)

def beginFlow? (t : Token) (l : Lexer) : Option Lexer :=
  l.noteKey?.map fun l =>
    ({ l with key := none, outerKeys := l.key :: l.outerKeys }.allowKey true).take 1 t

def endFlow? (t : Token) (l : Lexer) : Option Lexer :=
  l.dropKey?.map fun l =>
    let l := match l.outerKeys with
      | [] => l
      | key :: outer => { l with key := key, outerKeys := outer }
    (l.allowKey false).take 1 t

def flowEntry? (l : Lexer) : Option Lexer :=
  l.dropKey?.map fun l => (l.allowKey true).take 1 .flowEntry

/-- An indicator that, outside of flow collections, begins a collection of lines where a key may
begin. -/
def lineIndicator? (collection : Token) (l : Lexer) : Option Lexer :=
  if l.inFlow then some l
  else if l.mayBeKey then some (l.beginLines l.cursor.column l.count collection)
  else none

def blockEntry? (l : Lexer) : Option Lexer :=
  (l.lineIndicator? .blockSequenceStart).bind fun l =>
  l.dropKey?.map fun l => (l.allowKey true).take 1 .blockEntry

def key? (l : Lexer) : Option Lexer :=
  (l.lineIndicator? .blockMappingStart).bind fun l =>
  l.dropKey?.map fun l => (l.allowKey !l.inFlow).take 1 .key

def value? (l : Lexer) : Option Lexer :=
  match l.key with
  | some k =>
    let l := (l.insert k.before [.key]).beginLines k.position.column k.before .blockMappingStart
    some (({ l with key := none }.allowKey false).take 1 .value)
  | none =>
    (l.lineIndicator? .blockMappingStart).map fun l => (l.allowKey !l.inFlow).take 1 .value

def next? (c : Char) (l : Lexer) : Option Lexer :=
  let after := l.cursor.rest.drop 1
  if l.cursor.column = 0 && c == '%' then
    l.boundary? fun c => (directive c).map fun (d, c) => (.directive d, c)
  else if l.cursor.isMarker '-' then l.marker? .documentStart
  else if l.cursor.isMarker '.' then l.marker? .documentEnd
  else if c == '[' then l.beginFlow? .flowSequenceStart
  else if c == '{' then l.beginFlow? .flowMappingStart
  else if c == ']' then l.endFlow? .flowSequenceEnd
  else if c == '}' then l.endFlow? .flowMappingEnd
  else if c == ',' then l.flowEntry?
  else if c == '-' && endsWord after then l.blockEntry?
  else if c == '?' && (l.inFlow || endsWord after) then l.key?
  else if c == ':' && (l.inFlow || endsWord after) then l.value?
  else if c == '*' then l.node? fun c => (anchorName c).map fun (n, c) => (.reference n, c)
  else if c == '&' then l.node? fun c => (anchorName c).map fun (n, c) => (.anchor n, c)
  else if c == '!' then l.node? fun c => (tag l.inFlow c).map fun (t, c) => (.tag t, c)
  else if (c == '|' || c == '>') && !l.inFlow then l.blockScalar?
  else if c == '\'' || c == '"' then
    l.node? fun c => (quoted c).map fun (s, c) => (.scalar false s, c)
  else if startsPlain l.inFlow (c :: after) then l.plainNode?
  else none

def run? : Nat → Lexer → Option (List Token)
  | 0, _ => none
  | fuel + 1, l =>
    (l.skipGap (l.cursor.rest.length + 1)).dropPast?.bind fun l =>
      let l := l.endLines l.cursor.column
      match l.cursor.next? with
      | some c => (l.next? c).bind (run? fuel)
      | none => (l.endLines (-1)).dropKey?.map fun l => l.tokens.reverse

end Lexer

def tokens? (text : String) : Option (List Token) :=
  if text.toList.all isAllowed then
    let chars := unifyBreaks text.toList
    (Lexer.start chars).run? (chars.length + 1)
  else none

end RecordGraph.Yaml
