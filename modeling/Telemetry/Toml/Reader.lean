import Telemetry.Toml.Table

/-!
# Reading the characters of a configuration file

A reader consumes characters from the front and fails without saying why: of a
file that cannot be read only the name is ever reported.  White space within a
line is a blank or a tab, and a line ends with a line feed that a carriage
return may precede.
-/

namespace Telemetry.Toml

/-- What reads a value from the characters that remain. -/
abbrev Reader := StateT (List Char) Option

namespace Reader

/-- The next character, if any, which stays. -/
def peek : Reader (Option Char) := return (← get).head?

def next : Reader Char
  | [] => none
  | c :: rest => some (c, rest)

/-- The next character, which must satisfy a condition. -/
def satisfy (p : Char → Bool) : Reader Char := do
  let c ← next
  guard (p c)
  return c

def word (w : List Char) : Reader Unit := fun cs =>
  if cs.take w.length = w then some ((), cs.drop w.length) else none

/-- The characters up to the first that fails a condition. -/
def takeWhile (p : Char → Bool) : Reader (List Char) :=
  modifyGet fun cs => (cs.takeWhile p, cs.dropWhile p)

/-- What a reader reads, if it can read anything. -/
def attempt {α : Type} (r : Reader α) : Reader (Option α) :=
  (some <$> r) <|> pure none

/-- Further items, each after a comma, at most `bound` of them. -/
def moreItems {α : Type} (item : Reader α) : Nat → Reader (List α)
  | 0 => pure []
  | bound + 1 => do
    match ← attempt (word [','] *> item) with
    | none => return []
    | some a => return a :: (← moreItems item bound)

def items {α : Type} (item : Reader α) : Reader (List α) := do
  match ← attempt item with
  | none => return []
  | some a => return a :: (← moreItems item (← get).length)

def isSpace (c : Char) : Bool :=
  c == ' ' || c == '\t'

def spaces : Reader Unit := do
  let _ ← takeWhile isSpace

/-- Whether a character may stand for itself: all but the controls, of
which the tab may. -/
def isPlain (c : Char) : Bool :=
  c == '\t' || (' ' ≤ c && c != '\x7F')

def lineBreak : Reader Unit :=
  word ['\n'] <|> word ['\r', '\n']

/-- Consumes a comment up to the end of its line. -/
def comment : Reader Unit := do
  word ['#']
  let _ ← takeWhile isPlain

/-- Consumes what may follow a statement: white space, a comment, and the end of
the line or of the file. -/
def lineEnd : Reader Unit := do
  spaces
  let _ ← attempt comment
  match ← peek with
  | none => return ()
  | some _ => lineBreak

/-- The characters after white space, line breaks and comments; `commented`
tells whether a comment has begun. -/
def afterLines (commented : Bool) : List Char → Option (List Char)
  | [] => some []
  | '\n' :: rest => afterLines false rest
  | '\r' :: '\n' :: rest => afterLines false rest
  | c :: rest =>
    if commented then
      if isPlain c then afterLines true rest else none
    else if isSpace c then afterLines false rest
    else if c = '#' then afterLines true rest
    else if c = '\r' then none
    else some (c :: rest)

/-- Consumes white space, line breaks and comments. -/
def lines : Reader Unit :=
  fun cs => (afterLines false cs).map fun rest => ((), rest)

end Reader

end Telemetry.Toml
