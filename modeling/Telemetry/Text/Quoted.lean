import Telemetry.Text.CharacterRanges

/-!
# Quoted text in messages

A message quotes a text so that every character of it can be read off: quotes
and backslashes are escaped, four controls have short escapes, and a character
that leaves no mark or joins the one before it is written as its code point.
-/

namespace Telemetry.Text

def hexDigits (n : Nat) : List Char :=
  Nat.toDigits 16 n

def codePointEscape (c : Char) : List Char :=
  ['\\', 'u', '\x7b'] ++ hexDigits c.toNat ++ ['\x7d']

/-- A character as it stands in any quoted text, the quotes aside. -/
def quotedChar (c : Char) : List Char :=
  if c = '\x00' then ['\\', '0']
  else if c = '\t' then ['\\', 't']
  else if c = '\r' then ['\\', 'r']
  else if c = '\n' then ['\\', 'n']
  else if c = '\\' then ['\\', '\\']
  else if 0x20 ≤ c.toNat ∧ c.toNat < 0x7F then [c]
  else if inRanges graphemeExtenders c.toNat || inRanges markless c.toNat then
    codePointEscape c
  else [c]

def quote (s : String) : String :=
  String.ofList <|
    '"' :: s.toList.flatMap
        (fun c => if c = '"' then ['\\', '"'] else quotedChar c)
      ++ ['"']

def quoteChar (c : Char) : String :=
  String.ofList <|
    '\'' :: (if c = '\'' then ['\\', '\''] else quotedChar c) ++ ['\'']

end Telemetry.Text
