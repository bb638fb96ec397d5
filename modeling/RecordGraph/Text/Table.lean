import RecordGraph.Text.Split
import RecordGraph.Text.Width

/-!
Tables in plain characters. Every cell is as wide as the widest of its column
with a blank on either side; a cell of several lines makes its row as high. A
double rule closes the header and single rules stand between rows.
-/

namespace RecordGraph.Text

structure Table where
  header : List String
  rows : List (List String)

namespace Table

def fill (n : Nat) (c : Char) : String :=
  String.ofList (List.replicate n c)

def lines (cell : String) : List String :=
  split '\n' cell

def cellWidth (cell : String) : Nat :=
  ((lines cell).map width).foldl max 0

def columnWidth (t : Table) (index : Nat) : Nat :=
  ((t.header :: t.rows).map fun row => cellWidth (row.getD index "")).foldl max 0

def widths (t : Table) : List Nat :=
  (List.range t.header.length).map t.columnWidth

def pad (n : Nat) (text : String) : String :=
  " " ++ text ++ fill (n - width text) ' ' ++ " "

def rowLine (widths : List Nat) (texts : List String) : String :=
  "|" ++ "|".intercalate (List.zipWith pad widths texts) ++ "|"

def rowLines (widths : List Nat) (cells : List String) : List String :=
  let parts := cells.map lines
  let height := (parts.map List.length).foldl max 0
  (List.range height).map fun i => rowLine widths (parts.map fun ls => ls.getD i "")

/-- A rule of one character between two ends, with a cross at each column border. -/
def rule (widths : List Nat) (side cross line : Char) : String :=
  let spans := widths.map fun n => fill (n + 2) line
  String.singleton side ++ (String.singleton cross).intercalate spans ++ String.singleton side

def separated (between : String) : List (List String) → List String
  | [] => []
  | [row] => row
  | row :: rest => row ++ between :: separated between rest

def render (t : Table) : String :=
  let ws := t.widths
  let border := rule ws '+' '+' '-'
  let body := separated (rule ws '|' '+' '-') (t.rows.map (rowLines ws))
  "\n".intercalate
    ([border] ++ rowLines ws t.header ++ [rule ws '+' '=' '='] ++ body ++ [border])

end Table

end RecordGraph.Text
