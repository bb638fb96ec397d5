import RecordGraph.Json.Reader
import RecordGraph.Yaml.Cursor

/-!
Quoted scalars. They may run over several lines, whose breaks fold. Between single
quotes a quote is written twice; between double quotes a backslash begins an
escape, and before a break it joins the lines. No line inside is a marker.
-/

namespace RecordGraph.Yaml

def simpleEscape? : Char → Option Char
  | '0' => some '\x00'
  | 'a' => some '\x07'
  | 'b' => some '\x08'
  | 't' => some '\t'
  | '\t' => some '\t'
  | 'n' => some '\n'
  | 'v' => some '\x0b'
  | 'f' => some '\x0c'
  | 'r' => some '\r'
  | 'e' => some '\x1b'
  | ' ' => some ' '
  | '"' => some '"'
  | '/' => some '/'
  | '\\' => some '\\'
  | 'N' => some '\u0085'
  | '_' => some '\u00a0'
  | 'L' => some '\u2028'
  | 'P' => some '\u2029'
  | _ => none

def escapeDigits? : Char → Option Nat
  | 'x' => some 2
  | 'u' => some 4
  | 'U' => some 8
  | _ => none

def hexNumber? (digits : List Char) : Option Nat :=
  (digits.mapM Json.hexValue?).map fun values => values.foldl (fun n v => 16 * n + v) 0

def numberedEscape (digits : Nat) : Rule Char := fun c =>
  let ds := c.rest.take digits
  if ds.length < digits then none
  else
    (hexNumber? ds).bind fun n =>
      if n.isValidChar then some (Char.ofNat n, c.skip digits) else none

def escape (c : Cursor) : Option (Char × Cursor) :=
  (c.rest.drop 1).head?.bind fun letter =>
    match escapeDigits? letter with
    | some n => numberedEscape n (c.skip 2)
    | none => (simpleEscape? letter).map fun x => (x, c.skip 2)

/-- The inside of a quoted scalar up to its closing quote; `done` is what was read, last
character first. -/
def quotedInside (quote : Char) : Nat → List Char → Rule String
  | 0, _, _ => none
  | fuel + 1, done, c =>
    if c.atMarker then none
    else
      match c.rest with
      | [] => none
      | x :: rest =>
        if x == quote then
          if quote == '\'' && rest.head? = some quote then
            quotedInside quote fuel (quote :: done) (c.skip 2)
          else some (String.ofList done.reverse, c.skip 1)
        else if isBlank x || isBreak x then
          (c.gap? 0).bind fun gap =>
            quotedInside quote fuel (gap.folded.reverse ++ done) gap.cursor
        else if quote == '"' && x == '\\' then
          if rest.head?.any isBreak then
            ((c.skip 2).gap? 0).bind fun gap =>
              quotedInside quote fuel (gap.breaks.reverse ++ done) gap.cursor
          else (escape c).bind fun (e, c) => quotedInside quote fuel (e :: done) c
        else quotedInside quote fuel (x :: done) (c.skip 1)

def quoted (c : Cursor) : Option (String × Cursor) :=
  c.next?.bind fun quote => quotedInside quote (c.rest.length + 1) [] (c.skip 1)

end RecordGraph.Yaml
