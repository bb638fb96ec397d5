import RecordGraph.Yaml.Cursor

/-!
Plain scalars. A plain scalar is a run of words; it ends before a colon that a
blank follows, before a comment and, in a flow collection, before an indicator of
one. Its further lines are indented at least as deep as the collection demands.
-/

namespace RecordGraph.Yaml

def isFlowIndicator (c : Char) : Bool :=
  c ∈ [',', '[', ']', '{', '}']

def isIndicator (c : Char) : Bool :=
  isFlowIndicator c ||
    c ∈ ['-', '?', ':', '#', '&', '*', '!', '|', '>', '\'', '"', '%', '@', '\x60']

def startsPlain (flow : Bool) : List Char → Bool
  | [] => false
  | c :: rest =>
    if c == '-' then !rest.head?.any isBlank
    else if c == '?' || c == ':' then !flow && !endsWord rest
    else !isIndicator c && !isBlank c && !isBreak c

def plainWord? (flow : Bool) : List Char → Option (List Char)
  | [] => some []
  | c :: rest =>
    if isBlank c || isBreak c then some []
    else if flow && c == ':' && rest.head?.any fun d => d == '?' || isFlowIndicator d then none
    else if (c == ':' && endsWord rest) || (flow && isFlowIndicator c) then some []
    else (plainWord? flow rest).map (c :: ·)

structure PlainScalar where
  text : String
  endsLine : Bool

/-- The words of a plain scalar from the one ahead on. Of the words before it `done` holds the
characters, `gap` what the blanks after them fold into, and `broken` whether a line ended there. -/
def plainWords (flow : Bool) (indent : Nat) :
    Nat → List Char → List Char → Bool → Rule PlainScalar
  | 0, _, _, _, _ => none
  | fuel + 1, done, gap, broken, c =>
    let ended := some (⟨String.ofList done, broken⟩, c)
    if c.atMarker || c.nextIs (· == '#') then ended
    else
      (plainWord? flow c.rest).bind fun word =>
        if word.isEmpty then ended
        else
          let done := done ++ gap ++ word
          let c := c.skip word.length
          if !c.nextIs fun x => isBlank x || isBreak x then
            some (⟨String.ofList done, false⟩, c)
          else
            (c.gap? indent).bind fun g =>
              if !flow && g.cursor.column < indent then
                some (⟨String.ofList done, g.isBroken⟩, g.cursor)
              else plainWords flow indent fuel done g.folded g.isBroken g.cursor

def plain (flow : Bool) (indent : Nat) (c : Cursor) : Option (PlainScalar × Cursor) :=
  plainWords flow indent (c.rest.length + 1) [] [] false c

end RecordGraph.Yaml
