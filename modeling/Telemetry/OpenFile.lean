import Telemetry.Text.Utf8

/-!
# Open files

The system keeps the bytes of an open file and the offset at which the next
access begins.  Reads and writes move the offset; setting the length leaves it
where it is, so that it may stand beyond the end.  A write there fills the gap
with zeros.

A file that is replaced as a whole is cut off and rewound before it is written,
and one that is read as a whole is rewound before it is read.
-/

namespace Telemetry

/-- A file while it is open. -/
structure OpenFile where
  contents : Bytes
  /-- Where the next access begins. -/
  offset : Nat
  deriving DecidableEq, Repr

namespace OpenFile

/-- Bytes cut off at a length, or filled up to it with zeros. -/
def resized (length : Nat) (bytes : Bytes) : Bytes :=
  bytes.take length ++ List.replicate (length - bytes.length) 0

def setLength (length : Nat) (o : OpenFile) : OpenFile :=
  { o with contents := resized length o.contents }

def seek (offset : Nat) (o : OpenFile) : OpenFile :=
  { o with offset }

/-- Reads from the offset to the end. -/
def readToEnd (o : OpenFile) : Bytes × OpenFile :=
  (o.contents.drop o.offset,
    { o with offset := max o.offset o.contents.length })

/-- Writes at the offset, over what stands there. -/
def write (bytes : Bytes) (o : OpenFile) : OpenFile :=
  if bytes.isEmpty then o
  else
    { contents :=
        resized o.offset o.contents ++ bytes ++
          o.contents.drop (o.offset + bytes.length)
      offset := o.offset + bytes.length }

/-- Cuts everything off and rewinds. -/
def clear (o : OpenFile) : OpenFile := (o.setLength 0).seek 0

/-- Reads the whole file. -/
def load (o : OpenFile) : Bytes × OpenFile := (o.seek 0).readToEnd

/-- Replaces the whole file. -/
def save (bytes : Bytes) (o : OpenFile) : OpenFile := o.clear.write bytes

@[simp] theorem clear_eq (o : OpenFile) : o.clear = ⟨[], 0⟩ := by
  simp [clear, setLength, resized, seek]

/-- A file is read whole wherever its offset stood. -/
@[simp] theorem load_eq (o : OpenFile) :
    o.load = (o.contents, ⟨o.contents, o.contents.length⟩) := by
  simp [load, seek, readToEnd]

/-- What was saved is all that a file holds, whatever it held before and
wherever its offset stood. -/
@[simp] theorem save_eq (bytes : Bytes) (o : OpenFile) :
    o.save bytes = ⟨bytes, bytes.length⟩ := by
  cases bytes with
  | nil => simp [save, write]
  | cons b bytes => simp [save, write, resized]

/-- What is written without rewinding comes after a gap, and what is written
without cutting off comes before the rest of what was there. -/
example :
    (((OpenFile.mk [1, 2, 3] 3).setLength 0).write [7]).contents =
      [0, 0, 0, 7] ∧
      (((OpenFile.mk [1, 2, 3] 3).seek 0).write [7]).contents = [7, 2, 3] := by
  decide

end OpenFile

end Telemetry
