import RecordGraph.Json.Reader
import RecordGraph.Yaml.Cursor

/-!
Names that stand before a node or a document: anchors, tags and directives. A tag
is written out, or as a handle and the end of the tag; directives state which tags
the handles stand for, and the version of a document.
-/

namespace RecordGraph.Yaml

def anchorName (c : Cursor) : Option (String × Cursor) :=
  let name := (c.skip 1).run isNameChar
  let c := c.skip (name.length + 1)
  let ends := endsWord c.rest || c.nextIs (· ∈ ['?', ':', ',', ']', '}', '%', '@', '\x60'])
  if name.isEmpty || !ends then none else some (String.ofList name, c)

/-! Tags -/

/-- Characters of tags; flow indicators stand only in tags that are written out. -/
def isTagChar (writtenOut : Bool) (c : Char) : Bool :=
  isNameChar c ||
    c ∈ [';', '/', '?', ':', '@', '&', '=', '+', '$', '.', '%', '!', '~', '*', '\'', '(', ')'] ||
    (writtenOut && c ∈ [',', '[', ']'])

def octet? : List Char → Option (Nat × List Char)
  | '%' :: a :: b :: rest => do
    let a ← Json.hexValue? a
    let b ← Json.hexValue? b
    return (16 * a + b, rest)
  | _ => none

def leadingOctet? (n : Nat) : Option (Nat × Nat) :=
  if n < 0x80 then some (0, n)
  else if n / 0x20 = 6 then some (1, n % 0x20)
  else if n / 0x10 = 14 then some (2, n % 0x10)
  else if n / 8 = 30 then some (3, n % 8)
  else none

def trailingOctets? : Nat → Nat → List Char → Option (Nat × List Char)
  | 0, bits, s => some (bits, s)
  | n + 1, bits, s =>
    (octet? s).bind fun (x, s) =>
      if x / 0x40 = 2 then trailingOctets? n (0x40 * bits + x % 0x40) s else none

def octets? (s : List Char) : Option (Char × List Char) :=
  (octet? s).bind fun (x, s) =>
  (leadingOctet? x).bind fun (more, bits) =>
  (trailingOctets? more bits s).map fun (n, s) =>
    (if n.isValidChar then Char.ofNat n else '\ufffd', s)

def tagChars (writtenOut : Bool) : Nat → List Char → Rule (List Char)
  | 0, _, _ => none
  | fuel + 1, done, c =>
    match c.rest with
    | [] => some (done.reverse, c)
    | x :: _ =>
      if x == '%' then
        (octets? c.rest).bind fun (e, rest) =>
          tagChars writtenOut fuel (e :: done) (c.skip (c.rest.length - rest.length))
      else if isTagChar writtenOut x then tagChars writtenOut fuel (x :: done) (c.skip 1)
      else some (done.reverse, c)

def tagText (writtenOut : Bool) (mayBeEmpty : Bool) (c : Cursor) : Option (String × Cursor) :=
  (tagChars writtenOut (c.rest.length + 1) [] c).bind fun (chars, c) =>
    if chars.isEmpty && !mayBeEmpty then none
    else some (String.ofList (chars.takeWhile (· != '\x00')), c)

/-- A tag as it is written: its handle, which is empty where the tag is written out, and the rest. -/
structure WrittenTag where
  handle : String
  text : String

def bracketedTag (c : Cursor) : Option (WrittenTag × Cursor) :=
  (tagText true false (c.skip 2)).bind fun (text, c) =>
    if c.nextIs (· == '>') then some (⟨"", text⟩, c.skip 1) else none

def shortTag (c : Cursor) : Option (WrittenTag × Cursor) :=
  let name := (c.skip 1).run isNameChar
  let after := c.skip (name.length + 1)
  if after.nextIs (· == '!') then
    (tagText false false (after.skip 1)).map fun (text, c) =>
      (⟨"!" ++ String.ofList name ++ "!", text⟩, c)
  else
    (tagText false true (c.skip 1)).map fun (text, c) =>
      (if text.isEmpty then ⟨"", "!"⟩ else ⟨"!", text⟩, c)

def tag (flow : Bool) (c : Cursor) : Option (WrittenTag × Cursor) :=
  let found := if (c.rest.drop 1).head? = some '<' then bracketedTag c else shortTag c
  found.filter fun (_, c) => endsWord c.rest || (flow && c.nextIs (· == ','))

/-! Directives -/

inductive Directive where
  | version (major minor : Nat)
  /-- A handle and the beginning of the tags that are written with it. -/
  | handle (name beginning : String)

def versionNumber (c : Cursor) : Option (Nat × Cursor) :=
  let digits := c.run Char.isDigit
  if digits.isEmpty || 9 < digits.length then none
  else some (digits.foldl (fun n d => 10 * n + (d.toNat - '0'.toNat)) 0, c.skip digits.length)

def versionDirective (c : Cursor) : Option (Directive × Cursor) :=
  (versionNumber c).bind fun (major, c) =>
    if c.nextIs (· == '.') then
      (versionNumber (c.skip 1)).map fun (minor, c) => (.version major minor, c)
    else none

def handleDirective (c : Cursor) : Option (Directive × Cursor) :=
  let name := (c.skip 1).run isNameChar
  let after := c.skip (name.length + 1)
  let closed := after.nextIs (· == '!')
  let after := if closed then after.skip 1 else after
  if !c.nextIs (· == '!') || (!closed && !name.isEmpty) || !after.nextIs isBlank then none
  else
    (tagText true false (after.skipWhile isBlank)).bind fun (beginning, c) =>
      if endsWord c.rest then
        let handle := "!" ++ String.ofList name ++ if closed then "!" else ""
        some (.handle handle beginning, c)
      else none

def directive (c : Cursor) : Option (Directive × Cursor) :=
  let name := (c.skip 1).run isNameChar
  let c := c.skip (name.length + 1)
  let found :=
    if !endsWord c.rest then none
    else if name == ['Y', 'A', 'M', 'L'] then versionDirective (c.skipWhile isBlank)
    else if name == ['T', 'A', 'G'] then handleDirective (c.skipWhile isBlank)
    else none
  found.bind fun (d, c) => c.endLine?.map fun c => (d, c)

def knownHandles : List (String × String) :=
  [("!", "!"), ("!!", "tag:yaml.org,2002:")]

def WrittenTag.text? (handles : List (String × String)) (t : WrittenTag) : Option String :=
  if t.handle.isEmpty then some t.text
  else (handles.lookup t.handle).map (· ++ t.text)

end RecordGraph.Yaml
