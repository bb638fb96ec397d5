import RecordGraph.Statement.Quoted

/-!
Scanning rules of the dialect. A rule takes the characters ahead and returns what
it read with the characters that remain, or nothing; a rule that fails takes no
characters. Blanks may stand between tokens and never inside one.
-/

namespace RecordGraph.Dialect

open RecordGraph.Statement (isAsciiLetter isAsciiDigit startsName continuesName isPlainName backtick)

abbrev Rule (α : Type) := List Char → Option (α × List Char)

def isSpace (c : Char) : Bool :=
  c == ' ' || c == '\t' || c == '\r' || c == '\n'

def skip (s : List Char) : List Char :=
  s.dropWhile isSpace

def token : List Char → List Char → Option (List Char)
  | [], s => some s
  | t :: ts, c :: s => if t = c then token ts s else none
  | _ :: _, [] => none

def lowerAscii (c : Char) : Char :=
  if 'A' ≤ c ∧ c ≤ 'Z' then Char.ofNat (c.toNat + 32) else c

def keyword : List Char → List Char → Option (List Char)
  | [], s => some s
  | t :: ts, c :: s => if t = lowerAscii c then keyword ts s else none
  | _ :: _, [] => none

def word (text : List Char) (s : List Char) : Option (List Char) :=
  (keyword text s).bind fun r =>
    match r with
    | c :: _ => if isAsciiLetter c || isAsciiDigit c then none else some r
    | [] => some r

def plainName : Rule (List Char)
  | c :: s =>
    if startsName c then some (c :: s.takeWhile continuesName, s.dropWhile continuesName) else none
  | [] => none

/-- The inside of a quoted name up to its closing backtick, with doubled ones made single. -/
def quotedBody : Rule (List Char)
  | [] => none
  | [c] => if c = backtick then some ([], []) else none
  | c :: d :: s =>
    if c = backtick then
      if d = backtick then (quotedBody s).map fun (name, r) => (backtick :: name, r)
      else some ([], d :: s)
    else (quotedBody (d :: s)).map fun (name, r) => (c :: name, r)

def name : Rule String
  | c :: s =>
    if c = backtick then (quotedBody s).map fun (n, r) => (String.ofList n, r)
    else (plainName (c :: s)).map fun (n, r) => (String.ofList n, r)
  | [] => none

def variableName : Rule String := fun s =>
  (plainName s).map fun (n, r) => (String.ofList n, r)

def unescaped (c : Char) : Char :=
  if c = 'n' then '\n' else if c = 't' then '\t' else c

def stringBody : Rule (List Char)
  | [] => none
  | '\'' :: s => some ([], s)
  | '\\' :: c :: s => (stringBody s).map fun (t, r) => (unescaped c :: t, r)
  | c :: s => (stringBody s).map fun (t, r) => (c :: t, r)

/-- Items separated by commas; the first one stands ahead. A comma needs an item after it. -/
def items {α : Type} (item : Rule α) : Nat → Rule (List α)
  | 0, _ => none
  | fuel + 1, s =>
    (item s).map fun (x, r) =>
      match token [','] (skip r) with
      | none => ([x], r)
      | some t =>
        match items item fuel (skip t) with
        | some (xs, r) => (x :: xs, r)
        | none => ([x], r)

def enclosed {α : Type} (item : Rule α) (close : Char) (s : List Char) :
    Option (List α × List Char) :=
  let s := skip s
  let (xs, r) := (items item (s.length + 1) s).getD ([], s)
  (token [close] (skip r)).map fun r => (xs, r)

def many {α : Type} (item : Rule α) : Nat → List Char → List α × List Char
  | 0, s => ([], s)
  | fuel + 1, s =>
    match item (skip s) with
    | none => ([], s)
    | some (x, r) =>
      let (xs, r) := many item fuel r
      (x :: xs, r)

end RecordGraph.Dialect
