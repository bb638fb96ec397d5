import RecordGraph.Text.WidthTable

/-!
Display width of text in terminal columns. A character takes no column, one or
two; what stands behind it may change that: selectors and skin tones, joiners that
make one pictograph of several, pairs of letters that make a flag, and ligatures
of some scripts. So a text is measured from its end, character by character, with
what lies behind as the state.
-/

namespace RecordGraph.Text

/-- Characters that may join the one before them into one shape. The joined ones have a joiner
between. -/
inductive Ligature where
  | alef
  | lamed
  | joinedLamed
  /-- A letter that can stand below another. -/
  | subscript
  | ya
  | joinedYa
  | vowelYa
  | consonant
  | joinedConsonant
  | linkedConsonant
  | tone
  | orkhonI
  | joinedOrkhonI
deriving DecidableEq

/-- What stands behind a character, as far as it may change the width of that character. -/
inductive Sequel where
  | ordinary
  | ligature (l : Ligature)
  | vowelE
  | vowelAi
  | skinTone
  | pictograph
  | flagLetter
  | flag
  /-- A joiner, and a pictograph behind it. -/
  | joiner
  | joinedKeycap
  | joinedFlagLetter
  | joinedFlag
  | joinedFlagAndLetter
  /-- The end of a flag of tags behind a joiner: how many letters of it, then digits, were seen. -/
  | joinedTags (letters digits : Nat)
deriving DecidableEq

inductive Selector where
  | asText
  | asPictograph
  | asWide
deriving DecidableEq

structure Behind where
  sequel : Sequel
  selector : Option Selector
deriving DecidableEq

def isBetween (first last : Nat) (c : Char) : Bool :=
  first ≤ c.toNat && c.toNat ≤ last

def isFlagLetter (c : Char) : Bool :=
  isBetween 0x1F1E6 0x1F1FF c

def isSkinTone (c : Char) : Bool :=
  isBetween 0x1F3FB 0x1F3FF c

def isPictograph (c : Char) : Bool :=
  inRanges pictographRanges c.toNat

def isToned (c : Char) : Bool :=
  inRanges tonedRanges c.toNat

def isSelectable (c : Char) : Bool :=
  inRanges selectableRanges c.toNat

def isTextual (c : Char) : Bool :=
  isSelectable c && !isBetween 0x3000 0x33FF c && !isBetween 0x1F200 0x1F2FF c

def isQuotationMark (c : Char) : Bool :=
  c == '\u2018' || c == '\u2019' || c == '\u201c' || c == '\u201d'

def joinerChar : Char := '\u200d'

def isLigatureMark (c : Char) : Bool :=
  inRanges [(0x34F, 0x34F), (0x17B4, 0x17B5), (0x180B, 0x180D), (0x180F, 0x180F),
    (0xFE00, 0xFE0F), (0xE0100, 0xE01EF)] c.toNat

def selector? (c : Char) : Option Selector :=
  if c == '\ufe0e' then some .asText
  else if c == '\ufe0f' then some .asPictograph
  else if c == '\ufe01' then some .asWide
  else none

/-! Single characters -/

def charWidth (c : Char) : Nat :=
  let n := c.toNat
  if n ≤ 0xA0 then 1
  else if n = 0x17D8 then 3
  else if inRanges zeroWidthRanges n then 0
  else if inRanges wideRanges n then 2
  else 1

def isAlef (n : Nat) : Bool :=
  inRanges [(0x622, 0x623), (0x625, 0x625), (0x627, 0x627), (0x671, 0x673), (0x675, 0x675),
    (0x773, 0x774), (0x870, 0x882)] n

def isLam (n : Nat) : Bool :=
  inRanges [(0x644, 0x644), (0x6B5, 0x6B8), (0x76A, 0x76A), (0x8A6, 0x8A6), (0x8C7, 0x8C7)] n

def isSubscriptLetter (n : Nat) : Bool :=
  inRanges [(0x1780, 0x1782), (0x1784, 0x1787), (0x1789, 0x178C), (0x178E, 0x1793),
    (0x1795, 0x1798), (0x179B, 0x179D), (0x17A0, 0x17A0), (0x17A2, 0x17A2), (0x17A7, 0x17A7),
    (0x17AB, 0x17AC), (0x17AF, 0x17AF)] n

def isTifinaghConsonant (n : Nat) : Bool :=
  inRanges [(0x2D31, 0x2D65), (0x2D6F, 0x2D6F)] n

def ligature? (n : Nat) : Option Ligature :=
  if n = 0x5DC then some .lamed
  else if isAlef n then some .alef
  else if isSubscriptLetter n then some .subscript
  else if n = 0x1A10 then some .ya
  else if isTifinaghConsonant n then some .consonant
  else if n = 0xA4FC || n = 0xA4FD then some .tone
  else if n = 0x10C03 then some .orkhonI
  else none

def sequelOf (c : Char) : Sequel :=
  if isFlagLetter c then .flagLetter
  else if isSkinTone c then .skinTone
  else if isPictograph c then .pictograph
  else if c.toNat = 0x16D67 then .vowelE
  else if c.toNat = 0x16D68 then .vowelAi
  else
    match ligature? c.toNat with
    | some l => .ligature l
    | none => .ordinary

/-! Characters with what stands behind them -/

def Ligature.joined : Ligature → Ligature
  | lamed => joinedLamed
  | ya => joinedYa
  | consonant => joinedConsonant
  | orkhonI => joinedOrkhonI
  | l => l

def Ligature.before? (c : Char) (l : Ligature) : Option (Int × Sequel) :=
  let n := c.toNat
  if l = alef then
    if isLam n then some (0, .ordinary)
    else if charWidth c = 0 && !inRanges interruptingRanges n then some (0, .ligature alef)
    else none
  else if c == joinerChar then some (0, .ligature l.joined)
  else if isLigatureMark c then some (0, .ligature l)
  else
    match l with
    | joinedLamed => if n = 0x5D0 then some (0, .ordinary) else none
    | subscript => if n = 0x17D2 then some (-1, .ordinary) else none
    | joinedYa => if n = 0x1A17 then some (0, .ligature vowelYa) else none
    | vowelYa => if n = 0x1A15 then some (0, .ordinary) else none
    | consonant => if n = 0x2D7F then some (1, .ligature linkedConsonant) else none
    | joinedConsonant =>
      if n = 0x2D7F then some (1, .ligature linkedConsonant)
      else if isTifinaghConsonant n then some (0, .ordinary)
      else none
    | linkedConsonant => if isTifinaghConsonant n then some (-1, .ordinary) else none
    | tone => if 0xA4F8 ≤ n && n ≤ 0xA4FB then some (0, .ordinary) else none
    | joinedOrkhonI => if n = 0x10C32 then some (0, .ordinary) else none
    | _ => none

/-- A pair of flag letters takes two columns, and none where a joiner puts it before another
pictograph. -/
def beforeJoiner? (c : Char) : Option (Int × Sequel) :=
  if c == '\u20e3' then some (0, .joinedKeycap)
  else if isFlagLetter c then some (1, .joinedFlagLetter)
  else if isSkinTone c then some (0, .skinTone)
  else if c.toNat = 0xE007F then some (0, .joinedTags 0 0)
  else if isPictograph c then some (0, .pictograph)
  else none

def beforeTags? (c : Char) (letters digits : Nat) : Option (Int × Sequel) :=
  if isBetween 0xE0061 0xE007A c then
    if digits = 0 && letters < 6 then some (0, .joinedTags (letters + 1) 0) else none
  else if isBetween 0xE0030 0xE0039 c then
    if digits < 3 && letters ≤ 4 then some (0, .joinedTags letters (digits + 1)) else none
  else if c.toNat = 0x1F3F4 && ((digits = 0 && 3 ≤ letters) || digits = 3) then
    some (0, .pictograph)
  else none

/-- The columns that a character adds where it belongs to what stands behind it, and what it
becomes. -/
def Sequel.before? (c : Char) : Sequel → Option (Int × Sequel)
  | ordinary => none
  | ligature l => l.before? c
  | vowelE =>
    if c.toNat = 0x16D63 || c.toNat = 0x16D69 then some (0, ordinary)
    else if c.toNat = 0x16D67 then some (0, vowelAi)
    else if c.toNat = 0x16D68 then some (1, vowelE)
    else none
  | vowelAi => if c.toNat = 0x16D63 then some (0, ordinary) else none
  | skinTone =>
    if isToned c then some (0, pictograph)
    else if c == joinerChar then some (0, joiner)
    else none
  | pictograph => if c == joinerChar then some (0, joiner) else none
  | flagLetter => if isFlagLetter c then some (1, flag) else none
  | flag =>
    if isFlagLetter c then some (1, flag)
    else if c == joinerChar then some (0, joiner)
    else none
  | joiner => beforeJoiner? c
  | joinedKeycap => none
  | joinedFlagLetter => if isFlagLetter c then some (-1, joinedFlag) else none
  | joinedFlag =>
    if isFlagLetter c then some (3, joinedFlagAndLetter)
    else if c == joinerChar then some (0, joiner)
    else none
  | joinedFlagAndLetter =>
    if isFlagLetter c then some (-1, joinedFlag)
    else if c == joinerChar then some (0, joiner)
    else none
  | joinedTags letters digits => beforeTags? c letters digits

namespace Behind

def nothing : Behind := ⟨.ordinary, none⟩

def select (s : Selector) (b : Behind) : Behind :=
  match b.sequel with
  | .ligature _ => ⟨b.sequel, some s⟩
  | .joiner | .joinedKeycap =>
    if s = .asPictograph then ⟨b.sequel, some s⟩ else ⟨.ordinary, some s⟩
  | _ => ⟨.ordinary, some s⟩

def unselect (b : Behind) : Behind :=
  match b.selector, b.sequel with
  | none, _ => b
  | some _, .ligature l => ⟨.ligature l, none⟩
  | some _, _ => nothing

def selected? (c : Char) (b : Behind) : Option (Int × Sequel) :=
  match b.selector with
  | none => none
  | some .asPictograph =>
    if isSelectable c then
      some (if b.sequel = .joiner || b.sequel = .joinedKeycap then 0 else 2, .pictograph)
    else none
  | some .asText => if isTextual c then some (1, .ordinary) else none
  | some .asWide => if isQuotationMark c then some (2, .ordinary) else none

end Behind

def widthBefore (c : Char) (b : Behind) : Int × Behind :=
  match b.selected? c with
  | some (n, sequel) => (n, ⟨sequel, none⟩)
  | none =>
    match selector? c with
    | some s => (0, b.unselect.select s)
    | none =>
      match b.unselect.sequel.before? c with
      | some (n, sequel) => (n, ⟨sequel, none⟩)
      | none => (charWidth c, ⟨sequelOf c, none⟩)

def measure (s : List Char) : Int × Behind :=
  s.foldr (fun c (n, b) =>
    let (m, b) := widthBefore c b
    (n + m, b)) (0, .nothing)

def widthOf (s : List Char) : Nat :=
  (measure s).1.toNat

def width (s : String) : Nat :=
  widthOf s.toList

example : widthOf ([0x61, 0x301, 0xE9, 0x6F22].map Char.ofNat) = 4 := by decide +kernel
example : widthOf ([0x1F469, 0x200D, 0x1F469, 0x200D, 0x1F467].map Char.ofNat) = 2 := by
  decide +kernel
example : widthOf ([0x1F1E9, 0x1F1EA].map Char.ofNat) = 2 := by decide +kernel
example : widthOf ([0x31, 0xFE0F, 0x20E3, 0x20, 0x1F44D, 0x1F3FD].map Char.ofNat) = 5 := by
  decide +kernel

end RecordGraph.Text
