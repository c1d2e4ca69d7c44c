import Telemetry.Toml.Reader

/-!
# Texts and keys of a configuration file

A text stands between double quotes with escapes or between single quotes
without any; three quotes of either kind allow line breaks.  A key is a name of
letters, digits, dashes and underscores, or a text on one line; dots join keys
to a path.
-/

namespace Telemetry.Toml

def hexNumber? (digits : List Char) : Option Nat :=
  digits.foldlM (fun n c => do
    let digit ←
      if c.isDigit then some (c.toNat - '0'.toNat)
      else if 'a' ≤ c ∧ c ≤ 'f' then some (c.toNat - 'a'.toNat + 10)
      else if 'A' ≤ c ∧ c ≤ 'F' then some (c.toNat - 'A'.toNat + 10)
      else none
    return n * 16 + digit) 0

def codePoint? (digits : List Char) : Option Char := do
  let n ← hexNumber? digits
  if h : n.isValidChar then some (Char.ofNatAux n h) else none

/-- The character that a letter after a backslash stands for. -/
def escaped? : Char → Option Char
  | 'b' => some '\x08'
  | 't' => some '\t'
  | 'n' => some '\n'
  | 'f' => some '\x0C'
  | 'r' => some '\r'
  | '"' => some '"'
  | '\\' => some '\\'
  | _ => none

/-- Where a reader of escaped text stands. -/
inductive Stretch where
  /-- Among the characters of the text. -/
  | text
  /-- After a backslash that a line break must follow, with nothing but
  white space between. -/
  | joining
  /-- In the white space and the line breaks after such a line break,
  which are dropped. -/
  | joined
  deriving DecidableEq, Repr

/-- The text that escaped characters stand for; `lines` tells whether line
breaks may occur. -/
def unescape? (lines : Bool) : Stretch → List Char → Option (List Char)
  | .joining, [] => none
  | _, [] => some []
  | stretch, '\n' :: rest =>
    if lines then
      if stretch = .text then ('\n' :: ·) <$> unescape? lines .text rest
      else unescape? lines .joined rest
    else none
  | stretch, '\r' :: '\n' :: rest =>
    if lines then
      if stretch = .text then ('\n' :: ·) <$> unescape? lines .text rest
      else unescape? lines .joined rest
    else none
  | stretch, c :: rest =>
    if stretch ≠ .text ∧ Reader.isSpace c then unescape? lines stretch rest
    else if stretch = .joining then none
    else if c = '\\' then
      match rest with
      | 'u' :: a :: b :: c :: d :: rest => do
        let point ← codePoint? [a, b, c, d]
        (point :: ·) <$> unescape? lines .text rest
      | 'U' :: a :: b :: c :: d :: e :: f :: g :: h :: rest => do
        let point ← codePoint? [a, b, c, d, e, f, g, h]
        (point :: ·) <$> unescape? lines .text rest
      | c :: rest =>
        match escaped? c with
        | some point => (point :: ·) <$> unescape? lines .text rest
        | none =>
          if lines then unescape? lines .joining (c :: rest) else none
      | [] => none
    else if Reader.isPlain c then (c :: ·) <$> unescape? lines .text rest
    else none

/-- The text of characters without escapes; `lines` tells whether line
breaks may occur. -/
def literal? (lines : Bool) : List Char → Option (List Char)
  | [] => some []
  | '\n' :: rest => if lines then ('\n' :: ·) <$> literal? lines rest else none
  | '\r' :: '\n' :: rest =>
    if lines then ('\n' :: ·) <$> literal? lines rest else none
  | c :: rest =>
    if Reader.isPlain c then (c :: ·) <$> literal? lines rest else none

/-- Splits at the quote that closes a text on one line; a character after a
backslash closes nothing where backslashes escape. -/
def splitAtQuote (quote : Char) : List Char → Option (List Char × List Char)
  | [] => none
  | [c] => if c = quote then some ([], []) else none
  | c :: next :: rest =>
    if c = quote then some ([], next :: rest)
    else if quote = '"' ∧ c = '\\' then
      (splitAtQuote quote rest).map fun (raw, rest) => (c :: next :: raw, rest)
    else (splitAtQuote quote (next :: rest)).map fun (raw, rest) =>
      (c :: raw, rest)

/-- Splits at the three quotes that close a text of lines; up to two more of
them belong to the text. -/
def splitAtQuotes (quote : Char) : List Char → Option (List Char × List Char)
  | [] => none
  | [_] => none
  | [_, _] => none
  | c :: next :: third :: rest =>
    if c = quote ∧ next = quote ∧ third = quote then
      let extra := (rest.take 2).takeWhile (· == quote)
      some (extra, rest.drop extra.length)
    else if quote = '"' ∧ c = '\\' then
      (splitAtQuotes quote (third :: rest)).map fun (raw, rest) =>
        (c :: next :: raw, rest)
    else (splitAtQuotes quote (next :: third :: rest)).map fun (raw, rest) =>
      (c :: raw, rest)

def contents? (lines : Bool) (quote : Char) (raw : List Char) :
    Option (List Char) :=
  if quote = '"' then unescape? lines .text raw else literal? lines raw

namespace Reader

def line (quote : Char) : Reader String := do
  word [quote]
  let raw ← splitAtQuote quote
  return String.ofList (← contents? false quote raw)

/-- Reads a text between three quotes on either side; a line break after the
first three is not part of it. -/
def block (quote : Char) : Reader String := do
  word [quote, quote, quote]
  let _ ← attempt lineBreak
  let raw ← splitAtQuotes quote
  return String.ofList (← contents? true quote raw)

/-- Whether a character may stand in a key without quotes. -/
def isKeyCharacter (c : Char) : Bool :=
  c.isAlphanum || c == '-' || c == '_'

def simpleKey : Reader String := do
  match ← peek with
  | some '"' => line '"'
  | some '\'' => line '\''
  | _ =>
    let key ← takeWhile isKeyCharacter
    guard (key ≠ [])
    return String.ofList key

/-- How deep values and keys may be nested. -/
def depthBound : Nat := 80

/-- The keys that follow with dots before them, at most `bound` of them. -/
def moreKeys : Nat → Reader (List String)
  | 0 => failure
  | bound + 1 => do
    match ← peek with
    | some '.' =>
      word ['.']
      spaces
      let key ← simpleKey
      spaces
      return key :: (← moreKeys bound)
    | _ => return []

/-- Reads a key: the tables on the way and the last name. -/
def key : Reader (List String × String) := do
  spaces
  let first ← simpleKey
  spaces
  let more ← moreKeys depthBound
  let path := first :: more
  return (path.dropLast, path.getLast?.getD first)

end Reader

end Telemetry.Toml
