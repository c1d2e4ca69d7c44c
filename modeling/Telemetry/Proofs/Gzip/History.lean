import Telemetry.Proofs.Digest.Crc32
import Telemetry.Proofs.Gzip
import Mathlib.Data.Nat.Digits.Defs

/-!
# A compressor does not remember

A writer is given a new output before it is used and starts afresh on it, so
whatever a compressor was asked before, and whatever its parked writers hold, it
answers as a new one does: with a member of the data, which gives the data back.
-/

namespace Telemetry.Gzip

/-! ## The format of a member -/

/-- The four bytes of a number, the lowest first. -/
def LittleEndian (n : Nat) (bytes : Bytes) : Prop :=
  bytes.length = 4 ∧ Nat.ofDigits 256 (bytes.map UInt8.toNat) = n

/-- A member holds the data: after the fixed header a stream that expands to the
data, the check sum of the data, and its length without what exceeds 32 bits. -/
def IsMember (data member : Bytes) : Prop :=
  ∃ stream check size sum,
    member = [0x1F, 0x8B, 0x08, 0, 0, 0, 0, 0, 0, 0xFF] ++ stream ++
      check ++ size ∧
    Deflate.inflate stream = .ok (data, []) ∧
    Crc32.IsSum data sum ∧ LittleEndian sum.toNat check ∧
    LittleEndian (data.length % 2 ^ 32) size

theorem littleEndian_littleEndian32 (n : Nat) :
    LittleEndian (n % 2 ^ 32) (littleEndian32 n) := by
  refine ⟨by simp [littleEndian32], ?_⟩
  have hbytes : (littleEndian32 n).map UInt8.toNat =
      [n % 256, n / 2 ^ 8 % 256, n / 2 ^ 16 % 256, n / 2 ^ 24 % 256] := by
    simp [littleEndian32, List.range_succ, Nat.shiftRight_eq_div_pow]
  rw [hbytes]
  simp only [Nat.ofDigits_cons, Nat.ofDigits_nil]
  omega

/-- Only one text of four bytes stands for a number. -/
theorem LittleEndian.unique {n : Nat} {a b : Bytes} (ha : LittleEndian n a)
    (hb : LittleEndian n b) : a = b := by
  have hlt (bytes : Bytes) : ∀ d ∈ bytes.map UInt8.toNat, d < 256 := by
    intro d hd
    obtain ⟨byte, -, rfl⟩ := List.mem_map.mp hd
    exact byte.toNat_lt
  have hlength : (a.map UInt8.toNat).length = (b.map UInt8.toNat).length := by
    rw [List.length_map, List.length_map, ha.1, hb.1]
  exact List.map_injective_iff.mpr (fun _ _ => UInt8.toNat.inj)
    (Nat.ofDigits_inj_of_len_eq (by decide) hlength (hlt a) (hlt b)
      (ha.2.trans hb.2.symm))

/-- The two numbers at the end of a member. -/
theorem littleEndian_sum (data : Bytes) :
    LittleEndian (Crc32.sum data).toNat
      (littleEndian32 (Crc32.sum data).toNat) := by
  have h := littleEndian_littleEndian32 (Crc32.sum data).toNat
  rwa [Nat.mod_eq_of_lt (Crc32.sum data).toNat_lt] at h

theorem isMember_of_inflate {packed data : Bytes}
    (h : Deflate.inflate packed = .ok (data, [])) :
    IsMember data (header ++ (packed ++ trailer data)) := by
  refine ⟨packed, littleEndian32 (Crc32.sum data).toNat,
    littleEndian32 data.length, Crc32.sum data, ?_, h, Crc32.isSum_sum data,
    littleEndian_sum data, littleEndian_littleEndian32 data.length⟩
  rw [trailer, List.append_assoc, List.append_assoc]
  rfl

/-- Whoever has written a member, its data is read out of it. -/
theorem IsMember.decompress {data member : Bytes} (h : IsMember data member) :
    decompress member = .ok data := by
  obtain ⟨packed, check, size, sum, rfl, hinflate, hsum, hcheck, hsize⟩ := h
  obtain rfl := Crc32.isSum_iff.mp hsum
  obtain rfl := hcheck.unique (littleEndian_sum data)
  obtain rfl := hsize.unique (littleEndian_littleEndian32 data.length)
  rw [List.append_assoc, List.append_assoc]
  exact decompress_of_inflate hinflate

/-! ## Calls -/

inductive Call where
  | compress (data : Bytes)
  | decompress (bytes : Bytes)

namespace Compressor

variable {ω : Type} {e : Encoder ω}

/-- The answer to a call, and the compressor after it. -/
def perform (e : Encoder ω) (c : Compressor ω) :
    Call → Except Error Bytes × Compressor ω
  | .compress data => (.ok (c.compress e data).1, (c.compress e data).2)
  | .decompress bytes => (Gzip.decompress bytes, c)

/-- The compressor after some calls, whatever their answers. -/
def after (e : Encoder ω) (c : Compressor ω) (calls : List Call) :
    Compressor ω :=
  calls.foldl (fun c call => (c.perform e call).2) c

/-- After any calls, and with any writers parked, data is compressed to the same
member as by a new compressor, and the member gives the data back. -/
theorem perform_after (h : e.Lawful) (c : Compressor ω) (calls : List Call)
    (data : Bytes) :
    ∃ member,
      ((c.after e calls).perform e (.compress data)).1 = .ok member ∧
      (Compressor.new.perform e (.compress data)).1 = .ok member ∧
      IsMember data member ∧
      ((c.after e calls).perform e (.decompress member)).1 = .ok data := by
  obtain ⟨packed, hpacked, hinflate⟩ :=
    exists_compress_fst h (c.after e calls) data
  have hmember := isMember_of_inflate hinflate
  rw [← hpacked] at hmember
  refine ⟨((c.after e calls).compress e data).1, rfl, ?_, hmember,
    hmember.decompress⟩
  exact congrArg Except.ok (compress_fst_eq h .new (c.after e calls) data)

/-- Two writers are parked, one of them with data that was never written, and a
reading has failed. -/
theorem perform_after_failure :
    let c : Compressor Writer :=
      ⟨[⟨0, ⟨[0x1F], [1, 2]⟩⟩, ⟨1, ⟨[], []⟩⟩], 2, []⟩
    let calls := [.compress [5, 5], .decompress [0x1F, 0x8B], .compress []]
    encoder.Lawful ∧
      (c.perform encoder (.decompress [0x1F, 0x8B])).1 = .error .endOfFile ∧
      ∃ member,
        ((c.after encoder calls).perform encoder (.compress [7, 8, 7])).1 =
          .ok member ∧
        (Compressor.new.perform encoder (.compress [7, 8, 7])).1 =
          .ok member ∧
        IsMember [7, 8, 7] member ∧
        ((c.after encoder calls).perform encoder (.decompress member)).1 =
          .ok [7, 8, 7] :=
  ⟨lawful_encoder, rfl, perform_after lawful_encoder _ _ _⟩

end Compressor

end Telemetry.Gzip
