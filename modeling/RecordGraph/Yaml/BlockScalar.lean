import RecordGraph.Yaml.Cursor

/-!
Block scalars. A header states whether the lines below stand as they are or fold
into one another, what becomes of the breaks at the end, and perhaps how deep
the lines are indented; otherwise the deepest of the first empty lines and the
first other line says so. The scalar ends at the first line that is less deep.
-/

namespace RecordGraph.Yaml

inductive Chomping where
  | strip
  | clip
  | keep
deriving DecidableEq

structure BlockHeader where
  folds : Bool
  chomping : Chomping
  width : Option Nat

def takeChomping (c : Cursor) : Chomping × Cursor :=
  match c.next? with
  | some '-' => (.strip, c.skip 1)
  | some '+' => (.keep, c.skip 1)
  | _ => (.clip, c)

def takeWidth (c : Cursor) : Option Nat × Cursor :=
  match c.next? with
  | some x =>
    if '1' ≤ x && x ≤ '9' then (some (x.toNat - '0'.toNat), c.skip 1) else (none, c)
  | none => (none, c)

def blockHeader (folds : Bool) (c : Cursor) : Option (BlockHeader × Cursor) :=
  let (before, c) := takeWidth c
  let (chomping, c) := takeChomping c
  let (width, c) := if before.isNone then takeWidth c else (before, c)
  c.endLine?.map fun c => (⟨folds, chomping, width⟩, c)

/-- What lies before the next line of a block scalar: the breaks of the empty lines and the
deepest indentation among them and that line. -/
structure BlockGap where
  breaks : List Char
  deepest : Nat
  cursor : Cursor

def blockGap? (indent : Option Nat) : Nat → List Char → Nat → Cursor → Option BlockGap
  | 0, _, _, _ => none
  | fuel + 1, breaks, deepest, c =>
    let spaces := (c.run (· == ' ')).length
    let c := c.skip <| match indent with
      | none => spaces
      | some n => min spaces (n - c.column)
    let deepest := max deepest c.column
    match c.next? with
    | none => some ⟨breaks, deepest, c⟩
    | some x =>
      if x == '\t' && indent.all (c.column < ·) then none
      else if isBreak x then blockGap? indent fuel (breaks ++ [x]) deepest (c.skip 1)
      else some ⟨breaks, deepest, c⟩

structure BlockLines where
  done : List Char
  lastBreak : List Char
  beginsBlank : Bool

def BlockLines.joint (lines : BlockLines) (folds : Bool) (gap : BlockGap) : List Char :=
  if folds && lines.lastBreak == ['\n'] && !lines.beginsBlank && !gap.cursor.nextIs isBlank then
    if gap.breaks.isEmpty then [' '] else gap.breaks
  else lines.lastBreak ++ gap.breaks

def blockLines (folds : Bool) (indent : Nat) : Nat → BlockLines → BlockGap →
    Option (BlockLines × BlockGap)
  | 0, _, _ => none
  | fuel + 1, lines, gap =>
    if gap.cursor.column = indent && gap.cursor.next?.isSome then
      let line := gap.cursor.run (!isBreak ·)
      let after := gap.cursor.skip line.length
      let next : BlockLines :=
        ⟨lines.done ++ lines.joint folds gap ++ line, after.next?.toList, line.head?.any isBlank⟩
      (blockGap? (some indent) (after.rest.length + 1) [] 0 (after.skip 1)).bind
        (blockLines folds indent fuel next)
    else some (lines, gap)

def blockScalar (parent : Int) (c : Cursor) : Option (String × Cursor) :=
  (blockHeader (c.nextIs (· == '>')) (c.skip 1)).bind fun (header, c) =>
  let fuel := c.rest.length + 1
  let stated := header.width.map fun n => n + parent.toNat
  (blockGap? stated fuel [] 0 c).bind fun gap =>
  let indent := stated.getD (max gap.deepest (max (parent + 1).toNat 1))
  (blockLines header.folds indent fuel ⟨[], [], false⟩ gap).map fun (lines, gap) =>
    let last := if header.chomping != .strip then lines.lastBreak else []
    let empty := if header.chomping = .keep then gap.breaks else []
    (String.ofList (lines.done ++ last ++ empty), gap.cursor)

end RecordGraph.Yaml
