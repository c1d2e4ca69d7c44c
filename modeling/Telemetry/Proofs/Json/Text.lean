import Telemetry.Proofs.Result
import Telemetry.Json.Value
import Mathlib.Data.List.Basic

/-!
# Texts that are written are read back

A value reads back when its reader, given the bytes of the value and whatever
may follow them in a document, returns the value and leaves the rest.  Every
text reads back, whatever characters it holds.
-/

namespace Telemetry.Json

/-- What may follow a value: nothing, a comma, or the end of a container. -/
def Delimited (rest : Bytes) : Prop :=
  ∀ b, rest.head? = some b → b = 0x2C ∨ b = 0x5D ∨ b = 0x7D

/-- The bytes stand for the value: the reader finds it and
leaves what follows. -/
def Reads {α : Type} (read : Cursor → Except Error (α × Cursor)) (bytes : Bytes)
    (a : α) : Prop :=
  ∀ rest p, Delimited rest → ∃ q, read ⟨bytes ++ rest, p⟩ = .ok (a, ⟨rest, q⟩)

theorem delimited_nil : Delimited [] := by
  intro b hb
  simp at hb

theorem delimited_cons {b : UInt8} (h : b = 0x2C ∨ b = 0x5D ∨ b = 0x7D)
    (rest : Bytes) :
    Delimited (b :: rest) := by
  intro b' hb'
  obtain rfl : b = b' := by simpa using hb'
  exact h

/-- A document that holds one value is read as that value. -/
theorem Reads.document {α : Type} {read : Cursor → Except Error (α × Cursor)}
    {bytes : Bytes} {a : α} (h : Reads read bytes a) :
    Json.document read bytes = .ok a := by
  obtain ⟨q, hq⟩ := h [] .start delimited_nil
  rw [List.append_nil] at hq
  simp [Json.document, Cursor.ofBytes, hq, bind, Except.bind, Cursor.skipSpace,
    Cursor.afterSpace, pure, Except.pure]

/-! ## Escapes -/

theorem unescape?_of_shortEscape? {b letter : UInt8}
    (h : shortEscape? b = some letter) :
    unescape? letter = some b := by
  unfold shortEscape? at h
  split_ifs at h with h₁ h₂ h₃ h₄ h₅ h₆ h₇ <;> cases h <;> subst b <;> decide

theorem not_special_of_shortEscape? {b : UInt8} (h : shortEscape? b = none) :
    b ≠ quoteByte ∧ b ≠ backslashByte := by
  constructor
  · rintro rfl
    exact absurd h (by decide)
  · rintro rfl
    exact absurd h (by decide)

/-- The escape of a control character with its code gives the character back. -/
theorem hexUnit?_control {b : UInt8} (h : b < 0x20) :
    hexUnit? 0x30 0x30 (hexByte (b / 16)) (hexByte (b % 16)) = some b.toNat ∧
      isLowSurrogate b.toNat = false ∧ isHighSurrogate b.toNat = false ∧
      reversedCodePoint b.toNat = [b] := by
  have hall : ∀ n < 32, let b := UInt8.ofNat n
      hexUnit? 0x30 0x30 (hexByte (b / 16)) (hexByte (b % 16)) = some b.toNat ∧
        isLowSurrogate b.toNat = false ∧ isHighSurrogate b.toNat = false ∧
        reversedCodePoint b.toNat = [b] := by decide
  have hlt : b.toNat < 32 := by simpa using UInt8.lt_iff_toNat_lt.mp h
  simpa using hall b.toNat hlt

/-- A byte that was escaped is read as that byte. -/
theorem readRaw_escapeByte (b : UInt8) (acc : Bytes) (p : Position)
    (rest : Bytes) :
    ∃ q, readRaw acc p (escapeByte b ++ rest) = readRaw (b :: acc) q rest := by
  cases hshort : shortEscape? b with
  | some letter =>
      refine ⟨p.afterEscape letter, ?_⟩
      have hletter := unescape?_of_shortEscape? hshort
      simp only [escapeByte, hshort, List.cons_append, List.nil_append]
      rw [readRaw.eq_def]
      simp [hletter, quoteByte, backslashByte]
  | none =>
      obtain ⟨hquote, hbackslash⟩ := not_special_of_shortEscape? hshort
      by_cases hcontrol : b < 0x20
      · obtain ⟨hunit, hlow, hhigh, hcode⟩ := hexUnit?_control hcontrol
        refine ⟨(p.afterEscape 0x75).afterAll
          [0x30, 0x30, hexByte (b / 16), hexByte (b % 16)], ?_⟩
        simp only [escapeByte, hshort, if_pos hcontrol, List.cons_append,
          List.nil_append]
        rw [readRaw.eq_def]
        simp [backslashByte, quoteByte, unescape?, hunit, hlow, hhigh, hcode]
      · refine ⟨p.after b, ?_⟩
        simp only [escapeByte, hshort, if_neg hcontrol, List.cons_append,
          List.nil_append]
        rw [readRaw.eq_def]
        simp [hquote, hbackslash, hcontrol]

theorem readRaw_flatMap_escapeByte (bytes acc : Bytes) (p : Position)
    (rest : Bytes) :
    ∃ q, readRaw acc p (bytes.flatMap escapeByte ++ quoteByte :: rest) =
      .ok (acc.reverse ++ bytes, ⟨quoteByte :: rest, q⟩) := by
  induction bytes generalizing acc p with
  | nil =>
      refine ⟨p, ?_⟩
      rw [List.flatMap_nil, List.nil_append, readRaw.eq_def]
      simp
  | cons b bytes ih =>
      obtain ⟨q, hq⟩ := readRaw_escapeByte b acc p
        (bytes.flatMap escapeByte ++ quoteByte :: rest)
      obtain ⟨q', hq'⟩ := ih (b :: acc) q
      refine ⟨q', ?_⟩
      rw [List.flatMap_cons, List.append_assoc, hq, hq']
      simp

/-! ## Texts -/

/-- A text is read back, whatever follows it. -/
theorem readText_writeText (s : String) (p : Position) (rest : Bytes) :
    ∃ q, Cursor.readText ⟨(writeText s).tail ++ rest, p⟩ =
      .ok (s, ⟨rest, q⟩) := by
  obtain ⟨q, hq⟩ := readRaw_flatMap_escapeByte (Utf8.encode s) [] p rest
  refine ⟨q.after quoteByte, ?_⟩
  simp [Cursor.readText, writeText, hq, bind, Except.bind, pure, Except.pure,
    Cursor.advance]

theorem writeText_eq_cons (s : String) :
    writeText s = quoteByte :: (writeText s).tail := rfl

theorem skipSpace_cons {b : UInt8} (h : Cursor.isSpace b = false) (rest : Bytes)
    (p : Position) : Cursor.skipSpace ⟨b :: rest, p⟩ = ⟨b :: rest, p⟩ := by
  simp [Cursor.skipSpace, Cursor.afterSpace, h]

theorem token_cons {b : UInt8} (h : Cursor.isSpace b = false) (rest : Bytes)
    (p : Position) : Cursor.token ⟨b :: rest, p⟩ = .ok ⟨b :: rest, p⟩ := by
  simp [Cursor.token, skipSpace_cons h]

theorem reads_text (expected s : String) :
    Reads (Cursor.text expected) (writeText s) s := by
  intro rest p _
  obtain ⟨q, hq⟩ := readText_writeText s (p.after quoteByte) rest
  refine ⟨q, ?_⟩
  rw [writeText_eq_cons, List.cons_append]
  simp only [Cursor.text,
    token_cons (by decide : Cursor.isSpace quoteByte = false), bind,
    Except.bind]
  simpa [Cursor.sees, Cursor.peek, Cursor.advance] using hq

end Telemetry.Json
