/-!
Quoted text inside statements. A string stands between single quotes, with a
backslash before each backslash and quote; a name that is not a plain word
stands between backticks, each backtick inside written twice.
-/

namespace RecordGraph

/-- How strings are written into statements. -/
inductive Escape where
  | cypher
  /-- Strings are embedded as they are. -/
  | verbatim
deriving DecidableEq, Repr, Inhabited

namespace Statement

def escapeChar (c : Char) : List Char :=
  if c = '\\' then ['\\', '\\']
  else if c = '\'' then ['\\', '\'']
  else [c]

def quoteChars (escape : Escape) (s : List Char) : List Char :=
  match escape with
  | .cypher => '\'' :: (s.flatMap escapeChar ++ ['\''])
  | .verbatim => '\'' :: (s ++ ['\''])

def quote (escape : Escape) (s : String) : String :=
  String.ofList (quoteChars escape s.toList)

@[simp] theorem toList_quote (escape : Escape) (s : String) :
    (quote escape s).toList = quoteChars escape s.toList := by
  simp [quote]

def isAsciiLetter (c : Char) : Bool :=
  ('a' ≤ c && c ≤ 'z') || ('A' ≤ c && c ≤ 'Z')

def isAsciiDigit (c : Char) : Bool :=
  '0' ≤ c && c ≤ '9'

def startsName (c : Char) : Bool :=
  isAsciiLetter c || c == '_'

def continuesName (c : Char) : Bool :=
  startsName c || isAsciiDigit c

/-- A plain name is a letter or underscore followed by letters, digits and underscores. -/
def isPlainName : List Char → Bool
  | [] => false
  | c :: rest => startsName c && rest.all continuesName

def backtick : Char := '\x60'

def doubleBacktick (c : Char) : List Char :=
  if c = backtick then [backtick, backtick] else [c]

def nameChars (s : List Char) : List Char :=
  if isPlainName s then s else backtick :: (s.flatMap doubleBacktick ++ [backtick])

def escapeName (s : String) : String :=
  String.ofList (nameChars s.toList)

@[simp] theorem toList_escapeName (s : String) : (escapeName s).toList = nameChars s.toList := by
  simp [escapeName]

end Statement

end RecordGraph
