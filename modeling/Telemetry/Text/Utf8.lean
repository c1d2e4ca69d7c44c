/-!
# Byte strings and UTF-8

Everything that travels or is stored is a list of bytes.  This module fixes
that type and the two directions between bytes and text: encoding never fails,
decoding refuses every list that is not well-formed UTF-8.
-/

namespace Telemetry

/-- A byte string. -/
abbrev Bytes := List UInt8

namespace Utf8

def encode (s : String) : Bytes :=
  s.toByteArray.data.toList

/-- The text that a byte string encodes, if it is well-formed UTF-8. -/
def decode? (bytes : Bytes) : Option String :=
  String.fromUTF8? ⟨bytes.toArray⟩

/-- Decoding gives back the text that was encoded. -/
@[simp] theorem decode?_encode (s : String) : decode? (encode s) = some s := by
  have h : (⟨s.toByteArray.data.toList.toArray⟩ : ByteArray) =
      s.toByteArray := by simp
  unfold decode? encode String.fromUTF8?
  rw [h]
  simp [s.isValidUTF8, String.fromUTF8]

/-- Only the encoding of a text decodes to it. -/
theorem encode_of_decode? {bytes : Bytes} {s : String}
    (h : decode? bytes = some s) : encode s = bytes := by
  unfold decode? String.fromUTF8? at h
  split at h
  · simp only [Option.some.injEq] at h
    subst h
    simp [encode, String.fromUTF8]
  · simp at h

/-- Two texts with the same bytes are equal. -/
theorem encode_injective {s t : String} (h : encode s = encode t) : s = t := by
  have := congrArg decode? h
  simpa using this

end Utf8

end Telemetry
