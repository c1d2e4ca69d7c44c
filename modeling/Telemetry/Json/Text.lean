import Telemetry.Json.Cursor

/-!
# Strings in documents

Writing a text with the escapes a document needs, reading one back, and passing
over one whose characters do not matter.  Only the controls, the quote and the
backslash are escaped when written; when read, a surrogate pair stands for the
character it encodes and a lone surrogate is refused.
-/

namespace Telemetry.Json

def quoteByte : UInt8 := 0x22

def backslashByte : UInt8 := 0x5C

/-- The lower-case hexadecimal digit of a number below sixteen, as a byte. -/
def hexByte (n : UInt8) : UInt8 :=
  if n < 10 then 0x30 + n else 0x57 + n

/-- The letter that stands for a control character after a
backslash, if it has one. -/
def shortEscape? (b : UInt8) : Option UInt8 :=
  if b = 0x08 then some 0x62
  else if b = 0x09 then some 0x74
  else if b = 0x0A then some 0x6E
  else if b = 0x0C then some 0x66
  else if b = 0x0D then some 0x72
  else if b = quoteByte then some quoteByte
  else if b = backslashByte then some backslashByte
  else none

def escapeByte (b : UInt8) : Bytes :=
  match shortEscape? b with
  | some letter => [backslashByte, letter]
  | none =>
    if b < 0x20 then
      [backslashByte, 0x75, 0x30, 0x30, hexByte (b / 16), hexByte (b % 16)]
    else [b]

def writeText (s : String) : Bytes :=
  quoteByte :: (Utf8.encode s).flatMap escapeByte ++ [quoteByte]

/-- The byte that a letter after a backslash stands for. -/
def unescape? (letter : UInt8) : Option UInt8 :=
  if letter = 0x22 then some 0x22
  else if letter = 0x5C then some 0x5C
  else if letter = 0x2F then some 0x2F
  else if letter = 0x62 then some 0x08
  else if letter = 0x66 then some 0x0C
  else if letter = 0x6E then some 0x0A
  else if letter = 0x72 then some 0x0D
  else if letter = 0x74 then some 0x09
  else none

/-- The value of a hexadecimal digit of either case. -/
def hexValue? (b : UInt8) : Option Nat :=
  if 0x30 ≤ b ∧ b ≤ 0x39 then some (b.toNat - 0x30)
  else if 0x61 ≤ b ∧ b ≤ 0x66 then some (b.toNat - 0x57)
  else if 0x41 ≤ b ∧ b ≤ 0x46 then some (b.toNat - 0x37)
  else none

def hexUnit? (a b c d : UInt8) : Option Nat := do
  let a ← hexValue? a
  let b ← hexValue? b
  let c ← hexValue? c
  let d ← hexValue? d
  return ((a * 16 + b) * 16 + c) * 16 + d

def isHighSurrogate (unit : Nat) : Bool :=
  0xD800 ≤ unit && unit ≤ 0xDBFF

def isLowSurrogate (unit : Nat) : Bool :=
  0xDC00 ≤ unit && unit ≤ 0xDFFF

def joinSurrogates (high low : Nat) : Nat :=
  (high - 0xD800) * 0x400 + (low - 0xDC00) + 0x10000

def reversedCodePoint (code : Nat) : Bytes :=
  (String.utf8EncodeChar (Char.ofNat code)).reverse

/-- The place after a backslash and the letter that follows it. -/
def Position.afterEscape (p : Position) (letter : UInt8) : Position :=
  (p.after backslashByte).after letter

/-- Reads the bytes of a text up to its closing quote, where the cursor stays;
`acc` holds those read before, the last one first. -/
def readRaw (acc : Bytes) (p : Position) : Bytes → Except Error (Bytes × Cursor)
  | [] => .error ⟨.endInText, p⟩
  | b :: rest =>
    if b = quoteByte then .ok (acc.reverse, ⟨b :: rest, p⟩)
    else if b < 0x20 then .error ⟨.controlCharacter, p.after b⟩
    else if b ≠ backslashByte then readRaw (b :: acc) (p.after b) rest
    else
      match rest with
      | [] => .error ⟨.endInText, p.after b⟩
      | letter :: rest =>
        let p := p.afterEscape letter
        match unescape? letter with
        | some byte => readRaw (byte :: acc) p rest
        | none =>
          if letter ≠ 0x75 then .error ⟨.invalidEscape, p⟩
          else
            match rest with
            | d₁ :: d₂ :: d₃ :: d₄ :: rest =>
              let p := p.afterAll [d₁, d₂, d₃, d₄]
              match hexUnit? d₁ d₂ d₃ d₄ with
              | none => .error ⟨.invalidEscape, p⟩
              | some unit =>
                if isLowSurrogate unit then .error ⟨.loneSurrogate, p⟩
                else if !isHighSurrogate unit then
                  readRaw (reversedCodePoint unit ++ acc) p rest
                else
                  match rest with
                  | [] => .error ⟨.endInText, p⟩
                  | [b] =>
                    if b = backslashByte then .error ⟨.endInText, p.after b⟩
                    else .error ⟨.endInEscape, p.after b⟩
                  | b :: letter :: rest =>
                    if b ≠ backslashByte then .error ⟨.endInEscape, p.after b⟩
                    else if letter ≠ 0x75 then
                      .error ⟨.endInEscape, p.afterEscape letter⟩
                    else
                      let p := p.afterEscape letter
                      match rest with
                      | d₁ :: d₂ :: d₃ :: d₄ :: rest =>
                        let p := p.afterAll [d₁, d₂, d₃, d₄]
                        match hexUnit? d₁ d₂ d₃ d₄ with
                        | none => .error ⟨.invalidEscape, p⟩
                        | some low =>
                          if isLowSurrogate low then
                            readRaw
                              (reversedCodePoint (joinSurrogates unit low) ++
                                acc) p rest
                          else .error ⟨.loneSurrogate, p⟩
                      | rest => .error ⟨.endInText, p.afterAll rest⟩
            | rest => .error ⟨.endInText, p.afterAll rest⟩

def Cursor.readText (c : Cursor) : Except Error (String × Cursor) := do
  let (raw, c) ← readRaw [] c.position c.rest
  match Utf8.decode? raw with
  | some s => return (s, c.advance)
  | none => c.fail .invalidCodePoint

/-- Passes over a text up to its closing quote; of an escape only
its form is checked. -/
def passRaw (p : Position) : Bytes → Except Error Cursor
  | [] => .error ⟨.endInText, p⟩
  | b :: rest =>
    if b = quoteByte then .ok ⟨rest, p.after b⟩
    else if b < 0x20 then .error ⟨.controlCharacter, p⟩
    else if b ≠ backslashByte then passRaw (p.after b) rest
    else
      match rest with
      | [] => .error ⟨.endInText, p.after b⟩
      | letter :: rest =>
        let p := p.afterEscape letter
        if (unescape? letter).isSome then passRaw p rest
        else if letter ≠ 0x75 then .error ⟨.invalidEscape, p⟩
        else
          match rest with
          | d₁ :: d₂ :: d₃ :: d₄ :: rest =>
            let p := p.afterAll [d₁, d₂, d₃, d₄]
            if (hexUnit? d₁ d₂ d₃ d₄).isSome then passRaw p rest
            else .error ⟨.invalidEscape, p⟩
          | rest => .error ⟨.endInText, p.afterAll rest⟩

/-- Passes over a text whose opening quote has been consumed. -/
def Cursor.passText (c : Cursor) : Except Error Cursor :=
  passRaw c.position c.rest

end Telemetry.Json
