/-!
# Resource identifiers

Which texts identify a resource: a path, an authority alone, or a scheme, an
authority and a path with a query.  A port need not be a number.
-/

namespace Telemetry.Uri

/-- Whether a character may stand in a scheme. -/
def isSchemeCharacter (c : Char) : Bool :=
  c.isAlphanum || c == '+' || c == '-' || c == '.'

/-- Whether a character may stand in an authority by itself. -/
def isAuthorityCharacter (c : Char) : Bool :=
  c.isAlphanum || "!$&'()*+,-.;=_~".toList.contains c

def endsAuthority (c : Char) : Bool :=
  c == '/' || c == '?' || c == '#'

/-- What has been seen of an authority. -/
structure Scan where
  /-- The colons outside brackets since the last at sign. -/
  colons : Nat
  opened : Bool
  closed : Bool
  /-- A percent sign outside brackets since the last at sign. -/
  percent : Bool
  /-- The last character is an at sign. -/
  atSign : Bool

/-- Nothing has been seen. -/
def Scan.start : Scan := ⟨0, false, false, false, false⟩

/-- The greatest number of colons. -/
def colonBound : Nat := 8

def Scan.step (s : Scan) (c : Char) : Option Scan :=
  let s := { s with atSign := false }
  match c with
  | ':' =>
    if s.colons < colonBound then some { s with colons := s.colons + 1 }
      else none
  | '[' =>
    if s.percent || s.opened then none else some { s with opened := true }
  | ']' =>
    if !s.opened || s.closed then none
    else some { s with closed := true, colons := 0, percent := false }
  | '@' => some { s with colons := 0, percent := false, atSign := true }
  | '%' => some { s with percent := true }
  | c => if isAuthorityCharacter c then some s else none

/-- Whether an authority may end here. -/
def Scan.isComplete (s : Scan) : Bool :=
  s.opened == s.closed && s.colons ≤ 1 && !s.atSign && !s.percent

/-- Whether characters are an authority, possibly an empty one. -/
def isAuthority (cs : List Char) : Bool :=
  match cs.foldlM Scan.step Scan.start with
  | some s => s.isComplete
  | none => false

/-- Whether a character may stand in a query. -/
def isQueryCharacter (c : Char) : Bool :=
  let n := c.toNat
  n == 0x21 || (0x24 ≤ n && n ≤ 0x3B) || n == 0x3D || 0x3F ≤ n

/-- Whether a character may stand in a path. -/
def isPathCharacter (c : Char) : Bool :=
  c == '"' || (isQueryCharacter c && c != '?' && c != '\x60')

/-- Whether characters are a path with a query; what follows a number
sign does not matter. -/
def isPath (cs : List Char) : Bool :=
  let cs := cs.takeWhile (· != '#')
  (cs.takeWhile (· != '?')).all isPathCharacter
    && ((cs.dropWhile (· != '?')).drop 1).all isQueryCharacter

/-- The greatest number of characters of a scheme. -/
def schemeBound : Nat := 64

/-- The greatest number of bytes of an identifier. -/
def lengthBound : Nat := 65534

/-- What follows the scheme, if there is one. -/
def afterScheme? (cs : List Char) : Option (List Char) :=
  match cs.dropWhile isSchemeCharacter with
  | ':' :: '/' :: '/' :: rest => if cs.length ≤ 3 then none else some rest
  | _ => none

/-- Whether a text identifies a resource. -/
def isValid (s : String) : Bool :=
  let cs := s.toList
  if lengthBound < s.utf8ByteSize then false
  else if cs = ['*'] then true
  else
    match cs, afterScheme? cs with
    | [], _ => false
    | '/' :: _, _ => isPath cs
    | _, none => isAuthority cs
    | _, some rest =>
      let authority := rest.takeWhile (!endsAuthority ·)
      (cs.takeWhile (· != ':')).length ≤ schemeBound && !authority.isEmpty
        && isAuthority authority && isPath (rest.dropWhile (!endsAuthority ·))

end Telemetry.Uri
