/-!
Blank text. A character is blank when it has the White_Space property, so a
no-break space and an ideographic space are blank and a zero-width space is not.
Trimming drops blanks at both ends and keeps those inside.
-/

namespace RecordGraph.Text

def isBlank (c : Char) : Bool :=
  let n := c.toNat
  (9 ≤ n && n ≤ 13) || n == 0x20 || n == 0x85 || n == 0xA0 || n == 0x1680 ||
    (0x2000 ≤ n && n ≤ 0x200A) || n == 0x2028 || n == 0x2029 || n == 0x202F ||
    n == 0x205F || n == 0x3000

def trimStart (s : List Char) : List Char :=
  s.dropWhile isBlank

def trimEnd (s : List Char) : List Char :=
  (s.reverse.dropWhile isBlank).reverse

def trimChars (s : List Char) : List Char :=
  trimEnd (trimStart s)

def trim (s : String) : String :=
  String.ofList (trimChars s.toList)

@[simp] theorem toList_trim (s : String) : (trim s).toList = trimChars s.toList := by
  simp [trim]

/-- True of text that is empty once trimmed. -/
def isBlankText (s : String) : Bool :=
  s.toList.all isBlank

theorem trimStart_eq_nil_iff (s : List Char) : trimStart s = [] ↔ s.all isBlank = true := by
  induction s with
  | nil => simp [trimStart]
  | cons c r ih =>
    simp only [trimStart, List.dropWhile_cons] at ih ⊢
    cases h : isBlank c <;> simp [h, ih]

end RecordGraph.Text
