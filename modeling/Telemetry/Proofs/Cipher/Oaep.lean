import Telemetry.Cipher.Oaep
import Mathlib.Data.List.TakeWhile

/-!
# Padded blocks give their messages back

Masking twice undoes itself, so the seed comes out of the front of a block and
the message out of what follows.
-/

namespace Telemetry

theorem Sha256.length_hash (bytes : Bytes) :
    (Sha256.hash bytes).length = 32 := rfl

namespace Oaep

/-! ## Masks -/

theorem length_maskDigests (seed : Bytes) (counter count : Nat) :
    (maskDigests seed counter count).length = digestSize * count := by
  induction count generalizing counter with
  | zero => rfl
  | succ count ih =>
      rw [maskDigests, List.length_append, Sha256.length_hash, ih, Nat.mul_succ,
        Nat.add_comm]
      rfl

theorem length_mask (seed : Bytes) (size : Nat) :
    (mask seed size).length = size := by
  have hroom : size ≤ digestSize * (size / digestSize + 1) := by
    have hlt := Nat.lt_mul_div_succ size (show 0 < digestSize by decide)
    exact Nat.le_of_lt hlt
  unfold mask
  rw [List.length_take, length_maskDigests, Nat.min_eq_left hroom]

theorem length_xor {a b : Bytes} (h : a.length ≤ b.length) :
    (xor a b).length = a.length := by
  unfold xor
  rw [List.length_zipWith, Nat.min_eq_left h]

theorem xor_xor {a b : Bytes} (h : a.length ≤ b.length) :
    xor (xor a b) b = a := by
  unfold xor
  induction a generalizing b with
  | nil => rfl
  | cons x a ih =>
      cases b with
      | nil => exact absurd h (Nat.not_succ_le_zero _)
      | cons y b =>
          have hrest := ih (Nat.le_of_succ_le_succ h)
          have hbyte : x ^^^ y ^^^ y = x := by
            rw [UInt8.xor_assoc, UInt8.xor_self, UInt8.xor_zero]
          rw [List.zipWith_cons_cons, List.zipWith_cons_cons, hrest, hbyte]

/-! ## Blocks -/

section Padded

variable {size : Nat} {seed message : Bytes}

/-- What a block hides: a digest, zeros, a one and the message. -/
def padded (size : Nat) (message : Bytes) : Bytes :=
  Sha256.hash [] ++ List.replicate (size - overhead - message.length) 0 ++
    1 :: message

/-- What a block hides, masked by the seed. -/
def masked (size : Nat) (seed message : Bytes) : Bytes :=
  xor (padded size message) (mask seed (padded size message).length)

theorem pad_eq (size : Nat) (seed message : Bytes) :
    pad size seed message =
      0 :: (xor seed (mask (masked size seed message) digestSize) ++
        masked size seed message) :=
  rfl

theorem length_padded (hroom : message.length + overhead ≤ size) :
    (padded size message).length + digestSize + 1 = size := by
  unfold padded
  unfold overhead at hroom ⊢
  rw [List.length_append, List.length_append, Sha256.length_hash,
    List.length_replicate, List.length_cons]
  unfold digestSize at hroom ⊢
  omega

theorem length_masked :
    (masked size seed message).length = (padded size message).length :=
  length_xor (Nat.le_of_eq (length_mask _ _).symm)

theorem length_hidden (hseed : seed.length = digestSize) :
    (xor seed (mask (masked size seed message) digestSize)).length =
      digestSize := by
  rw [length_xor (by rw [length_mask, hseed]), hseed]

theorem length_pad (hseed : seed.length = digestSize)
    (hroom : message.length + overhead ≤ size) :
    (pad size seed message).length = size := by
  have hpadded := length_padded hroom
  rw [pad_eq, List.length_cons, List.length_append, length_hidden hseed,
    length_masked]
  omega

/-- The message comes out of the block that it was put into. -/
theorem unpad?_pad (hseed : seed.length = digestSize)
    (hroom : message.length + overhead ≤ size) :
    unpad? size (pad size seed message) = some message := by
  have hsize : ¬ ((pad size seed message).length ≠ size ∨ size < overhead) := by
    rw [length_pad hseed hroom]
    omega
  have hhidden :
      (xor seed (mask (masked size seed message) digestSize)).length =
      digestSize :=
    length_hidden hseed
  -- the masked data uncovers the seed, and the seed then uncovers the data
  have hseedBack : xor (xor seed (mask (masked size seed message) digestSize))
      (mask (masked size seed message) digestSize) = seed :=
    xor_xor (by rw [length_mask, hseed])
  have hdata :
      xor (masked size seed message)
        (mask seed (masked size seed message).length) =
        padded size message := by
    rw [length_masked]
    exact xor_xor (Nat.le_of_eq (length_mask _ _).symm)
  have hdigest : (padded size message).take digestSize = Sha256.hash [] := by
    unfold padded
    rw [List.append_assoc]
    exact List.take_left' (Sha256.length_hash [])
  have hzeros : ((padded size message).drop digestSize).dropWhile (· == 0) =
      1 :: message := by
    have hdrop : (padded size message).drop digestSize =
        List.replicate (size - overhead - message.length) 0 ++
          1 :: message := by
      unfold padded
      rw [List.append_assoc]
      exact List.drop_left' (Sha256.length_hash [])
    rw [hdrop, List.dropWhile_append_of_pos fun b hb => ?_]
    · rfl
    · rw [List.eq_of_mem_replicate hb]
      rfl
  unfold unpad?
  rw [if_neg hsize, pad_eq]
  dsimp only
  rw [List.take_left' hhidden, List.drop_left' hhidden, hseedBack, hdata,
    hdigest, hzeros]
  simp

end Padded

/-- What is uncovered of masked data, without what stands before the
message, is not longer. -/
theorem length_uncovered_le (masked seed : Bytes) :
    (((xor masked (mask seed masked.length)).drop digestSize).dropWhile
      (· == 0)).length ≤ masked.length :=
  calc
    (((xor masked (mask seed masked.length)).drop digestSize).dropWhile
          (· == 0)).length ≤
        ((xor masked (mask seed masked.length)).drop digestSize).length :=
      (List.dropWhile_suffix _).length_le
    _ ≤ (xor masked (mask seed masked.length)).length :=
      (List.drop_suffix _ _).length_le
    _ = masked.length := length_xor (Nat.le_of_eq (length_mask _ _).symm)

/-- A block holds no message that is longer than itself. -/
theorem length_le_of_unpad? {size : Nat} {block message : Bytes}
    (h : unpad? size block = some message) : message.length ≤ size := by
  unfold unpad? at h
  split at h
  · nomatch h
  · next hsize =>
      have hlength : block.length = size := by
        by_contra hne
        exact hsize (.inl hne)
      cases block with
      | nil => nomatch h
      | cons first payload =>
          dsimp only at h
          split at h
          · nomatch h
          · split at h
            · next hdata =>
                obtain rfl := Option.some.inj h
                have hle := length_uncovered_le (payload.drop digestSize)
                  (xor (payload.take digestSize)
                    (mask (payload.drop digestSize) digestSize))
                rw [hdata, List.length_cons, List.length_drop] at hle
                rw [← hlength, List.length_cons]
                omega
            · nomatch h

end Oaep

end Telemetry
