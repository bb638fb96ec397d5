import RecordGraph.Dict

/-!
Places in a text. A cursor holds the characters ahead and where they stand: the
line, the column, and the bytes before them on the line. A gap is a run of blanks
and line breaks between two pieces of a scalar, which folds into less.
-/

namespace RecordGraph.Yaml

def isBlank (c : Char) : Bool :=
  c == ' ' || c == '\t'

def isBreak (c : Char) : Bool :=
  c == '\n' || c == '\u2028' || c == '\u2029'

def isAllowed (c : Char) : Bool :=
  c == '\t' || c == '\n' || c == '\r' || c == '\u0085' || (' ' ≤ c && c ≤ '~') ||
    ('\u00a0' ≤ c && c != '\ufffe' && c != '\uffff')

def unifyBreaks : List Char → List Char
  | '\r' :: '\n' :: r => '\n' :: unifyBreaks r
  | '\r' :: r => '\n' :: unifyBreaks r
  | '\u0085' :: r => '\n' :: unifyBreaks r
  | c :: r => c :: unifyBreaks r
  | [] => []

def endsWord : List Char → Bool
  | [] => true
  | c :: _ => isBlank c || isBreak c

def isNameChar (c : Char) : Bool :=
  c.isAlphanum || c == '-' || c == '_'

structure Position where
  line : Nat
  column : Nat
  bytes : Nat

def Position.after (p : Position) (c : Char) : Position :=
  if isBreak c then ⟨p.line + 1, 0, 0⟩ else ⟨p.line, p.column + 1, p.bytes + c.utf8Size⟩

structure Cursor where
  rest : List Char
  position : Position

abbrev Rule (α : Type) := Cursor → Option (α × Cursor)

namespace Cursor

def start (text : List Char) : Cursor :=
  ⟨text, ⟨0, 0, 0⟩⟩

def column (c : Cursor) : Nat :=
  c.position.column

def next? (c : Cursor) : Option Char :=
  c.rest.head?

def nextIs (c : Cursor) (p : Char → Bool) : Bool :=
  c.rest.head?.any p

def skip (n : Nat) (c : Cursor) : Cursor :=
  ⟨c.rest.drop n, (c.rest.take n).foldl Position.after c.position⟩

def run (p : Char → Bool) (c : Cursor) : List Char :=
  c.rest.takeWhile p

def skipWhile (p : Char → Bool) (c : Cursor) : Cursor :=
  c.skip (c.run p).length

def skipComment (c : Cursor) : Cursor :=
  if c.nextIs (· == '#') then c.skipWhile (!isBreak ·) else c

def isMarker (mark : Char) (c : Cursor) : Bool :=
  c.column = 0 && (c.rest.take 3 == [mark, mark, mark]) && endsWord (c.rest.drop 3)

def atMarker (c : Cursor) : Bool :=
  c.isMarker '-' || c.isMarker '.'

def endLine? (c : Cursor) : Option Cursor :=
  let c := (c.skipWhile isBlank).skipComment
  match c.next? with
  | none => some c
  | some x => if isBreak x then some (c.skip 1) else none

end Cursor

/-- What lies between two pieces of a scalar: the blanks before the first break and the breaks. -/
structure Gap where
  blanks : List Char
  breaks : List Char
  cursor : Cursor

namespace Gap

def isBroken (g : Gap) : Bool :=
  !g.breaks.isEmpty

/-- What a gap folds into: a single break becomes a blank, and of several the first is dropped. -/
def folded (g : Gap) : List Char :=
  match g.breaks with
  | [] => g.blanks
  | ['\n'] => [' ']
  | '\n' :: more => more
  | breaks => breaks

end Gap

/-- The gap ahead, given what has been passed of it. After a break no tab may stand before the
column `indent`. -/
def gapFrom? (indent : Nat) (blanks breaks : List Char) : List Char → Position → Option Gap
  | [], p => some ⟨blanks, breaks, ⟨[], p⟩⟩
  | c :: rest, p =>
    if isBreak c then gapFrom? indent blanks (breaks ++ [c]) rest (p.after c)
    else if !isBlank c then some ⟨blanks, breaks, ⟨c :: rest, p⟩⟩
    else if breaks.isEmpty then gapFrom? indent (blanks ++ [c]) breaks rest (p.after c)
    else if c == '\t' && p.column < indent then none
    else gapFrom? indent blanks breaks rest (p.after c)

def Cursor.gap? (indent : Nat) (c : Cursor) : Option Gap :=
  gapFrom? indent [] [] c.rest c.position

end RecordGraph.Yaml
