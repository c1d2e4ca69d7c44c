import Telemetry.Proofs.Gzip

/-!
# Runs of zeros

A block may have codes in which one bit stands for the longest copy and one for
the nearest distance.  Two bits of it are then expanded to 258 bytes, so that a
member holds a run of zeros of a thousand times its length.
-/

namespace Telemetry

namespace Deflate

/-! ## Reading zero bits -/

/-- A reader in front of some zero bits and the bytes that follow them. -/
def zeroBits (n : Nat) (tail : Bytes) : BitReader :=
  ⟨0, n % 8, List.replicate (n / 8) 0 ++ tail⟩

theorem need_zeroBits (n : Nat) (tail : Bytes) :
    need 1 (zeroBits (n + 1) tail) = .ok (0, zeroBits n tail) := by
  rw [zeroBits, zeroBits]
  by_cases hwhole : (n + 1) % 8 = 0
  · have hbytes : (n + 1) / 8 = n / 8 + 1 := by omega
    have hbits : n % 8 = 7 := by omega
    rw [hwhole, hbytes, List.replicate_succ, List.cons_append,
      need_cons _ _ _ Nat.one_pos, hbits]
    exact need_of_le 0 _ (by decide)
  · have hbytes : (n + 1) / 8 = n / 8 := by omega
    have hbits : (n + 1) % 8 = n % 8 + 1 := by omega
    rw [hbytes, hbits]
    exact need_of_le 0 _ (Nat.le_add_left 1 _)

theorem need_zero (r : BitReader) : need 0 r = .ok (0, r) := by
  rw [need_of_le r.held r.rest (Nat.zero_le r.count), Nat.shiftLeft_zero,
    Nat.mod_one, Nat.shiftRight_zero]
  rfl

/-! ## A code of one bit for the longest copy -/

/-- One bit is the longest copy; two are a zero or the end. -/
def runLiterals : Codebook :=
  ⟨[1, 2, 0, 0, 0, 0, 0, 0, 0, 0, 0, 0, 0, 0, 0], #[285, 0, 256]⟩

/-- One bit is the nearest distance. -/
def runDistances : Codebook :=
  ⟨[1, 0, 0, 0, 0, 0, 0, 0, 0, 0, 0, 0, 0, 0, 0], #[0]⟩

/-- The beginning of the last block of some data: the lengths of its codes,
which are 2 for a zero and for the end and 1 for the longest copy and the
nearest distance, and then a zero. -/
def runHead : Bytes := [237, 224, 129, 0, 0, 0, 0, 128, 32, 236, 79, 189, 72, 5]

set_option maxRecDepth 20000 in
theorem readCodes_runHead :
    readCodes ⟨29, 5, runHead.drop 1⟩ =
      .ok (runLiterals, runDistances, ⟨1, 6, []⟩) := by
  with_unfolding_all rfl

theorem read_runLiterals (n : Nat) (tail : Bytes) :
    runLiterals.read (zeroBits (n + 1) tail) = .ok (285, zeroBits n tail) := by
  rw [Codebook.read, runLiterals, readFrom_cons, need_zeroBits]
  rfl

theorem read_runDistances (n : Nat) (tail : Bytes) :
    runDistances.read (zeroBits (n + 1) tail) = .ok (0, zeroBits n tail) := by
  rw [Codebook.read, runDistances, readFrom_cons, need_zeroBits]
  rfl

/-- A range of one value takes no bits. -/
theorem readValue_single {ranges : List Range} {symbol base : Nat}
    (h : ranges[symbol]? = some ⟨base, 0⟩) (r : BitReader) :
    readValue ranges symbol r = .ok (base, r) := by
  rw [readValue, h]
  dsimp only
  rw [need_zero]
  rfl

theorem readValue_longest (r : BitReader) :
    readValue lengthRanges 28 r = .ok (258, r) :=
  readValue_single rfl r

theorem readValue_nearest (r : BitReader) :
    readValue distanceRanges 0 r = .ok (1, r) :=
  readValue_single rfl r

section Tokens

variable {literals distances : Codebook} {out : Array UInt8} {r r' : BitReader}

theorem readTokens_literal {symbol : Nat}
    (h : literals.read r = .ok (symbol, r')) (hsymbol : symbol < endOfBlock)
    (fuel : Nat) :
    readTokens literals distances (fuel + 1) out r =
      readTokens literals distances fuel (out.push (UInt8.ofNat symbol))
        r' := by
  rw [readTokens, h]
  exact if_pos hsymbol

theorem readTokens_end (h : literals.read r = .ok (endOfBlock, r'))
    (fuel : Nat) :
    readTokens literals distances (fuel + 1) out r = .ok (out, r') := by
  rw [readTokens, h]
  simp only [bind, Except.bind, Nat.lt_irrefl, if_false, if_true]
  rfl

end Tokens

theorem copyBack_replicate (distance n size : Nat) :
    copyBack distance n (Array.replicate size 0) = Array.replicate
      (size + n) 0 := by
  induction n generalizing size with
  | zero => rfl
  | succ n ih =>
      have hzero : (Array.replicate size (0 : UInt8)).getD
          ((Array.replicate size (0 : UInt8)).size - distance) 0 = 0 := by
        rw [Array.getD_eq_getD_getElem?, Array.getElem?_replicate]
        split <;> rfl
      rw [copyBack, hzero, ite_self, ← Array.replicate_succ, ih,
        Nat.add_right_comm, Nat.add_assoc]

theorem readTokens_copy (fuel n size : Nat) (tail : Bytes) :
    readTokens runLiterals runDistances (fuel + 1) (Array.replicate size 0)
        (zeroBits (n + 2) tail) =
      readTokens runLiterals runDistances fuel (Array.replicate (size + 258) 0)
        (zeroBits n tail) := by
  rw [readTokens, read_runLiterals]
  change (readValue lengthRanges 28 (zeroBits (n + 1) tail) >>= _) = _
  rw [readValue_longest]
  change (runDistances.read (zeroBits (n + 1) tail) >>= _) = _
  rw [read_runDistances]
  change (readValue distanceRanges 0 (zeroBits n tail) >>= _) = _
  rw [readValue_nearest, ← copyBack_replicate 1]
  rfl

theorem readTokens_copies (copies fuel size : Nat) (tail : Bytes) :
    readTokens runLiterals runDistances (fuel + copies) (Array.replicate size 0)
        (zeroBits (2 * copies) tail) =
      readTokens runLiterals runDistances fuel
        (Array.replicate (size + 258 * copies) 0) (zeroBits 0 tail) := by
  induction copies generalizing size with
  | zero => rfl
  | succ copies ih =>
      have hsize : size + 258 + 258 * copies = size + 258 * (copies + 1) := by
        omega
      rw [Nat.mul_succ, ← Nat.add_assoc fuel, readTokens_copy, ih, hsize]

/-! ## Blocks and members -/

/-- A block that holds a zero and copies of it, two and then four for each
byte in the middle. -/
def run (middle : Nat) : Bytes := runHead ++ (List.replicate middle 0 ++ [3])

def runLength (middle : Nat) : Nat := 517 + 1032 * middle

theorem length_run (middle : Nat) : (run middle).length = middle + 15 := by
  simp only [run, runHead, List.length_append, List.length_cons,
    List.length_nil, List.length_replicate]
  omega

theorem readTokens_run (fuel middle : Nat) :
    readTokens runLiterals runDistances (fuel + 4 * middle + 4) #[]
        ⟨1, 6, List.replicate middle 0 ++ [3]⟩ =
      .ok (Array.replicate (runLength middle) 0, ⟨0, 6, []⟩) := by
  have hzero : runLiterals.read ⟨1, 6, List.replicate middle 0 ++ [3]⟩ =
      .ok (0, ⟨0, 4, List.replicate middle 0 ++ [3]⟩) := by
    have hshort : runLiterals.read ⟨1, 6, []⟩ = .ok (0, ⟨0, 4, []⟩) := by cbv
    exact framed_read runLiterals _ _ (List.replicate middle 0 ++ [3]) hshort
  -- four bits of the head are left, and with the bytes in the middle they are
  -- copies, two bits each
  have hbits : (⟨0, 4, List.replicate middle 0 ++ [3]⟩ : BitReader) =
      zeroBits (2 * (4 * middle + 2)) [3] := by
    have hcount : 2 * (4 * middle + 2) % 8 = 4 := by omega
    have hbytes : 2 * (4 * middle + 2) / 8 = middle := by omega
    rw [zeroBits, hcount, hbytes]
  have hend :
      runLiterals.read (zeroBits 0 [3]) = .ok (endOfBlock, ⟨0, 6, []⟩) := by cbv
  have hcopies := readTokens_copies (4 * middle + 2) (fuel + 1) 1 [3]
  have hfuel : fuel + 1 + (4 * middle + 2) = fuel + 4 * middle + 3 := by omega
  have hlength : 1 + 258 * (4 * middle + 2) = runLength middle := by
    rw [runLength]
    omega
  have hpush : (#[] : Array UInt8).push (UInt8.ofNat 0) = Array.replicate 1 0 :=
    rfl
  rw [hfuel, hlength] at hcopies
  rw [readTokens_literal hzero (by decide), hpush, hbits, hcopies,
    readTokens_end hend]

theorem readBlock_run (fuel middle : Nat) :
    readBlock (fuel + 4 * middle + 4) #[] ⟨0, 0, run middle⟩ =
      .ok (true, Array.replicate (runLength middle) 0, ⟨0, 6, []⟩) := by
  let tail : Bytes := List.replicate middle 0 ++ [3]
  have hfinal : need 1 ⟨0, 0, runHead⟩ = .ok (1, ⟨118, 7, runHead.drop 1⟩) := by
    cbv
  have hform : need 2 ⟨118, 7, runHead.drop 1⟩ =
      .ok (2, ⟨29, 5, runHead.drop 1⟩) := by cbv
  rw [readBlock]
  change (need 1 (extend tail ⟨0, 0, runHead⟩) >>= _) = _
  rw [framed_need 1 _ _ tail hfinal]
  change (need 2 (extend tail ⟨118, 7, runHead.drop 1⟩) >>= _) = _
  rw [framed_need 2 _ _ tail hform]
  change (readCodes (extend tail ⟨29, 5, runHead.drop 1⟩) >>= _) = _
  rw [framed_readCodes _ _ tail readCodes_runHead]
  change (readTokens runLiterals runDistances _ #[] ⟨1, 6, tail⟩ >>= _) = _
  rw [readTokens_run]
  rfl

theorem inflate_run (middle : Nat) :
    inflate (run middle) = .ok (List.replicate (runLength middle) 0, []) := by
  obtain ⟨spare, hfuel⟩ : ∃ spare,
      8 * (run middle).length + 1 = spare + 4 * middle + 4 := by
    rw [length_run]
    exact ⟨4 * middle + 117, by omega⟩
  rw [inflate]
  change (readBlocks _ _ #[] ⟨0, 0, run middle⟩ >>= _) = _
  rw [hfuel, readBlocks, readBlock_run]
  change Except.ok ((Array.replicate (runLength middle) (0 : UInt8)).toList,
    _) = _
  rw [Array.toList_replicate]

end Deflate

namespace Gzip

def zeros (middle : Nat) : Bytes :=
  header ++
    (Deflate.run middle ++
      trailer (List.replicate (Deflate.runLength middle) 0))

theorem length_zeros (middle : Nat) : (zeros middle).length = middle + 33 := by
  have hheader : header.length = 10 := rfl
  rw [zeros, List.length_append, List.length_append, length_trailer, hheader,
    Deflate.length_run]
  omega

/-- A member holds a run of more than a thousand times its length,
if it is not short. -/
theorem decompress_zeros (middle : Nat) :
    decompress (zeros middle) =
      .ok (List.replicate (Deflate.runLength middle) 0) :=
  decompress_of_inflate (Deflate.inflate_run middle)

end Gzip

end Telemetry
