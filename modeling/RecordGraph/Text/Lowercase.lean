import RecordGraph.Text.CaseTable

/-!
Lower case of a text. Each letter becomes its lower-case partner; a capital
sigma at the end of a word takes its final form, and a dotted capital I keeps
its dot as a combining mark. ASCII letters are decided without the tables.
-/

namespace RecordGraph.Text

def lowerChar (c : Char) : List Char :=
  let n := c.toNat
  if n < 0x80 then [c.toLower]
  else if n == 0x130 then ['i', '\u0307']
  else match lowerRuns.find? (·.covers n) with
    | some r => [Char.ofNat (n + r.shift).toNat]
    | none => [c]

def isIgnorable (c : Char) : Bool :=
  inRanges ignorableRanges c.toNat

def isCased (c : Char) : Bool :=
  inRanges casedRanges c.toNat

def startsCased (s : List Char) : Bool :=
  match s.dropWhile isIgnorable with
  | c :: _ => isCased c
  | [] => false

/-- Lower case of `rest`, where `before` holds what precedes it, last character first. -/
def lowerAfter (before : List Char) : List Char → List Char
  | [] => []
  | c :: rest =>
    let here :=
      if c == 'Σ' then
        if startsCased before && !startsCased rest then ['ς'] else ['σ']
      else lowerChar c
    here ++ lowerAfter (c :: before) rest

def lowerChars (s : List Char) : List Char :=
  lowerAfter [] s

def lower (s : String) : String :=
  String.ofList (lowerChars s.toList)

@[simp] theorem toList_lower (s : String) : (lower s).toList = lowerChars s.toList := by
  simp [lower]

example : lower "ΟΔΟΣ ΣΑΣ" = "οδος σας" := by decide +kernel
example : lower "Σ İA" = "σ i̇a" := by decide +kernel

end RecordGraph.Text
