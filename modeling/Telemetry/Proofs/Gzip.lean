import Telemetry.Gzip
import Telemetry.Proofs.Deflate.Framing

/-!
# Reading back what was compressed

Stored blocks hold any data, and what leaves in another form has been expanded
before.  Either way the reader of a member takes the data out of it, whatever
follows the member.
-/

namespace Telemetry

namespace Deflate

/-! ## Stored blocks -/

theorem need_of_le {n count : Nat} (held : Nat) (rest : Bytes) (h : n ≤ count) :
    need n ⟨held, count, rest⟩ =
      .ok (held % 1 <<< n, ⟨held >>> n, count - n, rest⟩) := by
  unfold need BitReader.take BitReader.fill
  rw [if_pos h]
  rfl

theorem need_cons {n count : Nat} (held : Nat) (b : UInt8) (rest : Bytes)
    (h : count < n) :
    need n ⟨held, count, b :: rest⟩ =
      need n ⟨held + b.toNat <<< count, count + 8, rest⟩ := by
  have hfill : BitReader.fill n ⟨held, count, b :: rest⟩ =
      BitReader.fill n ⟨held + b.toNat <<< count, count + 8, rest⟩ := by
    rw [BitReader.fill]
    exact if_neg (Nat.not_le_of_lt h)
  unfold need BitReader.take
  rw [hfill]

theorem need_word (low high : UInt8) (rest : Bytes) :
    need 16 ⟨0, 0, low :: high :: rest⟩ = .ok (low.toNat + 256 * high.toNat,
      ⟨0, 0, rest⟩) := by
  have hlow := low.toNat_lt
  have hhigh := high.toNat_lt
  rw [need_cons _ _ _ (by decide), need_cons _ _ _ (by decide),
    need_of_le _ _ (by decide)]
  have hheld : 0 + low.toNat <<< 0 + high.toNat <<< (0 + 8) =
      low.toNat + 256 * high.toNat := by
    simp only [Nat.shiftLeft_eq]
    omega
  have hmod : (low.toNat + 256 * high.toNat) % 1 <<< 16 = low.toNat +
      256 * high.toNat := by
    simp only [Nat.shiftLeft_eq]
    omega
  have hshift : (low.toNat + 256 * high.toNat) >>> 16 = 0 := by
    simp only [Nat.shiftRight_eq_div_pow]
    omega
  rw [hheld, hmod, hshift]

theorem toNat_low_add_high {n : Nat} (h : n ≤ storedLimit) :
    (UInt8.ofNat n).toNat + 256 * (UInt8.ofNat (n / 256)).toNat = n := by
  unfold storedLimit at h
  simp only [UInt8.toNat_ofNat']
  omega

theorem readStored_append {data : Bytes} (h : data.length ≤ storedLimit)
    (out : Array UInt8) (tail : Bytes) :
    readStored out
      ⟨0, 5, UInt8.ofNat data.length :: UInt8.ofNat (data.length / 256) ::
        UInt8.ofNat (storedLimit - data.length) :: UInt8.ofNat
          ((storedLimit - data.length) / 256) :: (data ++ tail)⟩ =
        .ok (out ++ data.toArray, ⟨0, 0, tail⟩) := by
  have hcheck := toNat_low_add_high (Nat.sub_le storedLimit data.length)
  have hsize := toNat_low_add_high h
  have hsum : data.length + (storedLimit - data.length) = storedLimit :=
    Nat.add_sub_cancel' h
  have halign : ∀ rest, BitReader.align ⟨0, 5, rest⟩ = ⟨0, 0, rest⟩ := by
    intro rest
    simp [BitReader.align]
  unfold readStored
  rw [halign, need_word, hsize]
  simp only [bind, Except.bind]
  rw [need_word, hcheck]
  simp [hsum, pure, Except.pure]

theorem readBlock_storedBlock {data : Bytes} (h : data.length ≤ storedLimit)
    (fuel : Nat) (final : Bool) (out : Array UInt8) (tail : Bytes) :
    readBlock fuel out ⟨0, 0, storedBlock final data ++ tail⟩ =
      .ok (final, out ++ data.toArray, ⟨0, 0, tail⟩) := by
  have hstored := readStored_append h out tail
  have hfinal : ∀ rest, need 1 ⟨0, 0, (if final then 1 else 0) :: rest⟩ =
      .ok (if final then 1 else 0, ⟨0, 7, rest⟩) := by
    intro rest
    rw [need_cons _ _ _ (by decide), need_of_le _ _ (by decide)]
    cases final <;> rfl
  have hform : ∀ rest, need 2 ⟨0, 7, rest⟩ = .ok (0, ⟨0, 5, rest⟩) := by
    intro rest
    rw [need_of_le _ _ (by decide)]
    rfl
  unfold readBlock storedBlock
  simp only [List.cons_append, List.nil_append, hfinal, hform, bind,
    Except.bind, if_true, hstored]
  cases final <;> rfl

theorem length_le_storedBlocks (fuel : Nat) (data : Bytes) :
    data.length ≤ (storedBlocks fuel data).length := by
  induction fuel generalizing data with
  | zero =>
      unfold storedBlocks storedBlock
      rw [List.length_append]
      exact Nat.le_add_left _ _
  | succ fuel ih =>
      unfold storedBlocks
      split
      · unfold storedBlock
        rw [List.length_append]
        exact Nat.le_add_left _ _
      · have hrest := ih (data.drop storedLimit)
        simp only [storedBlock, List.length_append, List.length_take,
          List.length_drop] at hrest ⊢
        omega

theorem length_storedBlocks_le (fuel : Nat) (data : Bytes) :
    (storedBlocks fuel data).length ≤ data.length + 5 * (fuel + 1) := by
  have hone :
      ∀ final bytes, (storedBlock final bytes).length = bytes.length + 5 := by
    intro final bytes
    unfold storedBlock
    rw [List.length_append, Nat.add_comm]
    rfl
  induction fuel generalizing data with
  | zero => exact Nat.le_of_eq (hone true data)
  | succ fuel ih =>
      unfold storedBlocks
      split
      · rw [hone]
        omega
      · have hrest := ih (data.drop storedLimit)
        rw [List.length_append, hone]
        rw [List.length_drop] at hrest
        rw [List.length_take]
        omega

theorem readBlocks_storedBlocks {fuel blocks : Nat} (tokens : Nat)
    {data : Bytes} (h : data.length ≤ (fuel + 1) * storedLimit)
    (hblocks : fuel < blocks) (out : Array UInt8) (tail : Bytes) :
    readBlocks tokens blocks out ⟨0, 0, storedBlocks fuel data ++ tail⟩ =
      .ok (out ++ data.toArray, ⟨0, 0, tail⟩) := by
  induction fuel generalizing blocks data out with
  | zero =>
      obtain ⟨blocks, rfl⟩ :=
        Nat.exists_eq_succ_of_ne_zero (Nat.ne_of_gt hblocks)
      have hone : data.length ≤ storedLimit := by omega
      unfold readBlocks storedBlocks
      rw [readBlock_storedBlock hone]
      rfl
  | succ fuel ih =>
      obtain ⟨blocks, rfl⟩ :=
        Nat.exists_eq_succ_of_ne_zero (Nat.ne_zero_of_lt hblocks)
      unfold readBlocks storedBlocks
      -- the first block is the last one just when it holds all of the data
      by_cases hone : data.length ≤ storedLimit
      · rw [if_pos hone, readBlock_storedBlock hone]
        rfl
      · have htake : (data.take storedLimit).length ≤ storedLimit := by
          rw [List.length_take]
          exact Nat.min_le_left _ _
        have hdrop :
            (data.drop storedLimit).length ≤ (fuel + 1) * storedLimit := by
          rw [List.length_drop]
          rw [Nat.add_mul] at h
          omega
        have hrest := ih hdrop (Nat.lt_of_succ_lt_succ hblocks)
          (out ++ (data.take storedLimit).toArray)
        rw [if_neg hone, List.append_assoc, readBlock_storedBlock htake]
        have hjoin : out ++ (data.take storedLimit).toArray ++
            (data.drop storedLimit).toArray = out ++ data.toArray := by
          rw [Array.append_assoc, List.append_toArray _ (data.drop storedLimit),
            List.take_append_drop]
        rw [hjoin] at hrest
        exact hrest

theorem inflate_store (data : Bytes) :
    inflate (store data) = .ok (data, []) := by
  have hlength := length_le_storedBlocks (data.length / storedLimit) data
  have hdata : data.length ≤ (data.length / storedLimit + 1) * storedLimit := by
    have hmod := Nat.div_add_mod data.length storedLimit
    have hlt := Nat.mod_lt data.length (show 0 < storedLimit by decide)
    rw [Nat.add_mul, Nat.mul_comm]
    omega
  have hfuel : data.length / storedLimit < 8 * (store data).length + 1 := by
    have hdiv := Nat.div_le_self data.length storedLimit
    unfold store
    omega
  have hblocks :=
    readBlocks_storedBlocks (8 * (store data).length + 1) hdata hfuel #[] []
  rw [List.append_nil] at hblocks
  unfold inflate
  change (readBlocks _ _ #[] ⟨0, 0, store data⟩ >>= _) = _
  unfold store at hblocks ⊢
  rw [hblocks]
  simp [bind, Except.bind, pure, Except.pure]

/-! ## Compressed data -/

theorem inflate_deflate (data : Bytes) :
    inflate (deflate data) = .ok (data, []) := by
  unfold deflate
  by_cases h : (pack data).length < (store data).length &&
    expandsTo (pack data) data
  · have hexpands := (Bool.and_eq_true_iff.mp h).2
    rw [if_pos h]
    unfold expandsTo at hexpands
    split at hexpands
    · next found hinflate =>
        rw [hinflate, eq_of_beq hexpands]
    · nomatch hexpands
  · rw [if_neg h]
    exact inflate_store data

theorem length_deflate_le (data : Bytes) :
    (deflate data).length ≤ data.length +
      5 * (data.length / storedLimit + 1) := by
  have hstore :
      (store data).length ≤ data.length + 5 * (data.length / storedLimit + 1) :=
    length_storedBlocks_le _ data
  unfold deflate
  by_cases h : (pack data).length < (store data).length &&
    expandsTo (pack data) data
  · rw [if_pos h]
    have hless := of_decide_eq_true (Bool.and_eq_true_iff.mp h).1
    exact Nat.le_trans (Nat.le_of_lt hless) hstore
  · rw [if_neg h]
    exact hstore

end Deflate

namespace Gzip

/-! ## Members -/

variable {ω : Type} {e : Encoder ω}

/-- What a library that writes streams promises: a writer that is given a new
output has forgotten what it was writing, and what it then writes of some data,
once it is ended, is a stream that expands to the data. -/
structure Encoder.Lawful (e : Encoder ω) : Prop where
  forgets (w v : ω) (output : Bytes) :
    (e.reset w output).2 = (e.reset v output).2
  expands (w : ω) (output data : Bytes) :
    ∃ packed,
      (e.reset (e.write (e.reset w output).2 data) []).1 = output ++ packed ∧
      Deflate.inflate packed = .ok (data, [])

theorem lawful_encoder : encoder.Lawful where
  forgets _ _ _ := rfl
  expands _ _ data := ⟨Deflate.deflate data, rfl, Deflate.inflate_deflate data⟩

namespace Compressor

/-- The member of some data does not depend on the writers that are parked. -/
theorem compress_fst_eq (h : e.Lawful) (c d : Compressor ω) (data : Bytes) :
    (c.compress e data).1 = (d.compress e data).1 := by
  unfold compress
  dsimp only
  rw [h.forgets]

/-- A member is the header, a stream that expands to the data, and the check
sum and the length of the data. -/
theorem exists_compress_fst (h : e.Lawful) (c : Compressor ω) (data : Bytes) :
    ∃ packed, (c.compress e data).1 = header ++ (packed ++ trailer data) ∧
      Deflate.inflate packed = .ok (data, []) := by
  obtain ⟨packed, hpacked, hinflate⟩ :=
    h.expands (c.acquire (plan e)).1.content header data
  refine ⟨packed, ?_, hinflate⟩
  unfold compress
  dsimp only
  rw [hpacked, List.append_assoc]

end Compressor

theorem compress_eq (data : Bytes) :
    compress data = header ++ (Deflate.deflate data ++ trailer data) :=
  List.append_assoc _ _ _

theorem compress_ne_nil (data : Bytes) : compress data ≠ [] := by
  rw [compress_eq]
  exact List.cons_ne_nil _ _

theorem length_trailer (data : Bytes) : (trailer data).length = 8 := by
  simp [trailer, littleEndian32]

/-- A member is hardly longer than what it holds. -/
theorem length_compress_le (data : Bytes) :
    (compress data).length ≤ data.length +
      5 * (data.length / Deflate.storedLimit + 1) + 18 := by
  have hdeflate := Deflate.length_deflate_le data
  have hheader : header.length = 10 := rfl
  rw [compress_eq, List.length_append, List.length_append, length_trailer,
    hheader]
  omega

theorem skipHeader_header (rest : Bytes) :
    skipHeader (header ++ rest) = .ok rest := by
  have htake : take 10 (header ++ rest) = .ok (header, rest) := by
    unfold take header
    rfl
  unfold skipHeader
  rw [htake]
  rfl

/-- A member gives back the data that is expanded from its middle. -/
theorem decompress_of_inflate {packed data : Bytes}
    (h : Deflate.inflate packed = .ok (data, [])) :
    decompress (header ++ (packed ++ trailer data)) = .ok data := by
  have hinflate := Deflate.inflate_append (trailer data) h
  rw [List.nil_append] at hinflate
  have htake : take 8 (trailer data) = .ok (trailer data, []) := by
    have hlength := length_trailer data
    unfold take
    dsimp only
    rw [List.take_of_length_le (Nat.le_of_eq hlength),
      List.drop_of_length_le (Nat.le_of_eq hlength), hlength]
    rfl
  unfold decompress
  rw [skipHeader_header]
  simp only [bind, Except.bind, hinflate, htake]
  rfl

/-- What was compressed is read back. -/
theorem decompress_compress (data : Bytes) :
    decompress (compress data) = .ok data := by
  rw [compress_eq]
  exact decompress_of_inflate (Deflate.inflate_deflate data)

end Gzip

end Telemetry
