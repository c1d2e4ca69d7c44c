import Telemetry.Protobuf.Wire

/-!
# Reading back words of the protobuf wire format

Whatever follows a word, reading takes the word and nothing else.
-/

namespace Telemetry.Protobuf

namespace Input

theorem next?_cons (b : UInt8) (rest : Bytes) :
    (ofBytes (b :: rest)).next? = some (b, ofBytes rest) := rfl

theorem split?_append (bytes rest : Bytes) :
    (ofBytes (bytes ++ rest)).split? bytes.length =
      some (bytes, ofBytes rest) := by
  have hle : bytes.length ≤ (bytes ++ rest).length := by
    rw [List.length_append]
    exact Nat.le_add_right _ _
  unfold split? ofBytes
  refine (if_pos hle).trans ?_
  refine congrArg some (Prod.ext List.take_left (ext_bytes ?_))
  exact List.drop_left

end Input

/-! ## Varints -/

theorem writeVarint_ne_nil (n : Nat) : writeVarint n ≠ [] := by
  unfold writeVarint writeGroups
  split <;> exact List.cons_ne_nil _ _

theorem readGroups_last {k n : Nat} (h : n < 128) (hroom : k = 0 → n < 2)
    (rest : Bytes) :
    readGroups (k + 1) (.ofBytes (UInt8.ofNat n :: rest)) =
      some (n, .ofBytes rest) := by
  have hbyte : (UInt8.ofNat n).toNat = n := by
    rw [UInt8.toNat_ofNat']
    omega
  have hsmall : UInt8.ofNat n < 128 := by
    rw [UInt8.lt_iff_toNat_lt, hbyte]
    exact h
  have hbits : ¬ (k = 0 ∧ 2 ≤ UInt8.ofNat n) := by
    rintro ⟨hk, htwo⟩
    rw [UInt8.le_iff_toNat_le, hbyte] at htwo
    exact absurd (hroom hk) (Nat.not_lt_of_le htwo)
  simp [readGroups, Input.next?_cons, hsmall, hbits, hbyte]

theorem readGroups_more {fuel n m : Nat} (h : n < 128) {bytes rest : Bytes}
    (hrest : readGroups fuel (.ofBytes bytes) = some (m, .ofBytes rest)) :
    readGroups (fuel + 1) (.ofBytes (UInt8.ofNat (n + 128) :: bytes)) =
      some (n + 128 * m, .ofBytes rest) := by
  have hbyte : (UInt8.ofNat (n + 128)).toNat = n + 128 := by
    rw [UInt8.toNat_ofNat']
    omega
  have hlarge : ¬ UInt8.ofNat (n + 128) < 128 := by
    rw [UInt8.lt_iff_toNat_lt, hbyte]
    exact Nat.not_lt_of_le (Nat.le_add_left _ _)
  generalize UInt8.ofNat (n + 128) = b at hbyte hlarge
  simp [readGroups, Input.next?_cons, hlarge, hrest, hbyte]

theorem readGroups_writeGroups {k n : Nat} (h : n >>> (7 * k) < 2)
    (rest : Bytes) :
    readGroups (k + 1) (.ofBytes (writeGroups k n ++ rest)) =
      some (n, .ofBytes rest) := by
  induction k generalizing n with
  | zero =>
      have htwo : n < 2 := h
      exact readGroups_last (Nat.lt_trans htwo (by decide)) (fun _ => htwo) rest
  | succ k ih =>
      unfold writeGroups
      by_cases hn : n < 128
      · rw [if_pos hn]
        exact readGroups_last hn (fun hk => absurd hk (Nat.succ_ne_zero k)) rest
      · have hshift : (n / 128) >>> (7 * k) < 2 := by
          have hsplit : n >>> (7 * (k + 1)) = (n >>> 7) >>> (7 * k) := by
            rw [← Nat.shiftRight_add, Nat.mul_succ, Nat.add_comm]
          rw [hsplit, Nat.shiftRight_eq_div_pow n 7] at h
          exact h
        have hvalue : n % 128 + 128 * (n / 128) = n := Nat.mod_add_div n 128
        have hmore := readGroups_more (Nat.mod_lt n (by decide)) (ih hshift)
        rw [hvalue] at hmore
        rw [if_neg hn]
        exact hmore

theorem readVarint_writeVarint {n : Nat} (h : n < UInt64.size) (rest : Bytes) :
    readVarint (.ofBytes (writeVarint n ++ rest)) = .ok (n, .ofBytes rest) := by
  have hgroups : n >>> (7 * 9) < 2 := by
    simp only [UInt64.size, Nat.shiftRight_eq_div_pow] at h ⊢
    omega
  unfold readVarint writeVarint
  rw [readGroups_writeGroups hgroups]

/-! ## Words of 64 bits -/

theorem zigzag_lt (i : Int64) : zigzag i < UInt64.size := by
  have hlow := i.le_toInt
  have hhigh := i.toInt_lt
  unfold zigzag
  simp only [UInt64.size]
  split <;> omega

theorem unzigzag_zigzag (i : Int64) : unzigzag (zigzag i) = i := by
  have hvalue : (if zigzag i % 2 = 0 then ((zigzag i / 2 : Nat) : Int)
      else -((zigzag i / 2 : Nat) : Int) - 1) = i.toInt := by
    unfold zigzag
    dsimp only
    split <;> split <;> omega
  unfold unzigzag
  rw [← apply_ite Int64.ofInt, hvalue, Int64.ofInt_toInt]

theorem length_writeFixed64 (w : UInt64) : (writeFixed64 w).length = 8 := by
  simp [writeFixed64]

theorem readFixed64_writeFixed64 (w : UInt64) :
    readFixed64 (writeFixed64 w) = w := by
  have hw := w.toNat_lt
  have hsum :
      (writeFixed64 w).foldr (fun b n => b.toNat + 256 * n) 0 = w.toNat := by
    simp only [writeFixed64, List.range, List.range.loop, List.map_cons,
      List.map_nil, List.foldr_cons, List.foldr_nil, UInt8.toNat_ofNat',
      Nat.shiftRight_eq_div_pow]
    omega
  unfold readFixed64
  rw [hsum, UInt64.ofNat_toNat]

end Telemetry.Protobuf
