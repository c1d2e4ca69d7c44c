import Telemetry.Proofs.Cipher.Rsa

/-!
# Elements are read back

An element is written as its tag, the shortest form of its length, and its
contents; reading it gives them back, whatever stands after it.  A number that
is not negative is written in the fewest bytes that do not begin with a sign.
-/

namespace Telemetry

namespace Rsa

theorem span_le_span {m n : Nat} (h : m ≤ n) : span m ≤ span n := by
  unfold span
  rw [Nat.one_shiftLeft, Nat.one_shiftLeft]
  exact Nat.pow_le_pow_right (by decide) (Nat.mul_le_mul_left 8 h)

theorem span_four : span 4 = 4294967296 := by decide

theorem byteLength_le_of_lt_span {n size : Nat} (h : n < span size) :
    byteLength n ≤ size := by
  rcases Nat.eq_zero_or_pos n with rfl | hpos
  · exact Nat.zero_le _
  · by_contra hlt
    have hle := span_le (Nat.ne_of_gt hpos)
    have hmono := span_le_span (Nat.le_sub_one_of_lt (Nat.lt_of_not_le hlt))
    omega

theorem natural_cons (b : UInt8) (bytes : Bytes) :
    Der.natural (b :: bytes) = b.toNat * span bytes.length +
      Der.natural bytes := by
  induction bytes using List.reverseRecOn with
  | nil => simp [Der.natural, span]
  | append_singleton bytes last ih =>
      rw [← List.cons_append, natural_append, natural_append, ih,
        List.length_append, List.length_singleton, span_succ]
      ring

/-- The first of the bytes of a number that needs them all is not zero. -/
theorem head?_toBytes_ne_zero {size n : Nat} (hle : span size ≤ n)
    (hlt : n < span (size + 1)) :
    (toBytes (size + 1) n).head? ≠ some 0 := by
  intro hzero
  obtain ⟨rest, hbytes⟩ := List.head?_eq_some_iff.mp hzero
  have hlength := length_toBytes (size + 1) n
  have hnatural := natural_toBytes hlt
  rw [hbytes, List.length_cons, Nat.add_right_cancel_iff] at hlength
  rw [hbytes, natural_zero_cons] at hnatural
  have hrest := natural_lt rest
  rw [hnatural, hlength] at hrest
  exact absurd hle (Nat.not_le_of_lt hrest)

theorem bitLength_le_of_lt {n k : Nat} (h : n < 2 ^ k) : bitLength n ≤ k := by
  unfold bitLength
  split_ifs with hzero
  · exact Nat.zero_le k
  · exact (Nat.log2_lt hzero).mpr h

theorem bitLength_shiftLeft_add_one {k : Nat} (h : 0 < k) :
    bitLength (1 <<< k + 1) = k + 1 := by
  have hlog : (1 <<< k + 1).log2 = k := by
    rw [Nat.log2_eq_iff (Nat.succ_ne_zero _), Nat.one_shiftLeft, Nat.pow_succ]
    have hpow := Nat.one_lt_two_pow (Nat.ne_of_gt h)
    omega
  unfold bitLength
  rw [if_neg (Nat.succ_ne_zero _), hlog]

/-- A number leaves a bit free in the bytes of an integer. -/
theorem two_mul_lt_span (n : Nat) : 2 * n < span (bitLength n / 8 + 1) := by
  have hn : n < 2 ^ bitLength n := by
    unfold bitLength
    split_ifs with hzero
    · rw [hzero]
      exact Nat.one_pos
    · exact Nat.lt_log2_self
  have hpow : 2 * 2 ^ bitLength n ≤ 2 ^ (8 * (bitLength n / 8 + 1)) := by
    rw [← Nat.pow_succ']
    exact Nat.pow_le_pow_right (by decide) (by omega)
  unfold span
  rw [Nat.one_shiftLeft]
  omega

/-- No shorter bytes leave a bit free. -/
theorem span_le_two_mul {n : Nat} (h : 8 ≤ bitLength n) :
    span (bitLength n / 8) ≤ 2 * n := by
  unfold bitLength at h ⊢
  split_ifs at h ⊢ with hzero
  · omega
  · have hpow : 2 ^ (8 * ((n.log2 + 1) / 8)) ≤ 2 * 2 ^ n.log2 := by
      rw [← Nat.pow_succ']
      exact Nat.pow_le_pow_right (by decide) (by omega)
    have hn := Nat.log2_self_le hzero
    unfold span
    rw [Nat.one_shiftLeft]
    omega

end Rsa

namespace Der

open Rsa

variable {tag : UInt8} {contents : Bytes} {n : Nat}

/-! ## Elements -/

/-- A length in its shortest form. -/
def lengthBytes (n : Nat) : Bytes :=
  if n < 128 then [UInt8.ofNat n]
  else UInt8.ofNat (128 + byteLength n) :: toBytes (byteLength n) n

def write (tag : UInt8) (contents : Bytes) : Bytes :=
  tag :: (lengthBytes contents.length ++ contents)

theorem length?_of_short {n : Nat} (h : n < 128) (rest : Bytes) :
    length? (UInt8.ofNat n :: rest) = some (n, rest) := by
  have hn : (UInt8.ofNat n).toNat = n :=
    UInt8.toNat_ofNat_of_lt (Nat.lt_trans h (by decide))
  have hlt : UInt8.ofNat n < 128 := by
    rw [UInt8.lt_iff_toNat_lt, hn]
    exact h
  rw [length?, if_pos hlt, hn]

/-- The bytes of a length whose number is given are taken when there
is none too many. -/
theorem length?_of_long {n size : Nat} (hlong : 128 ≤ n) (hcount : size + 1 ≤ 4)
    (hneed : span size ≤ n) (hfit : n < span (size + 1)) (rest : Bytes) :
    length? (UInt8.ofNat (128 + (size + 1)) :: (toBytes (size + 1) n ++ rest)) =
      some (n, rest) := by
  have hb : (UInt8.ofNat (128 + (size + 1))).toNat = 128 + (size + 1) :=
    UInt8.toNat_ofNat_of_lt
      (Nat.lt_of_le_of_lt (Nat.add_le_add_left hcount 128) (by decide))
  have hge : ¬ UInt8.ofNat (128 + (size + 1)) < 128 := by
    rw [UInt8.lt_iff_toNat_lt, hb]
    exact Nat.not_lt_of_le (Nat.le_add_right _ _)
  have hlength : (toBytes (size + 1) n).length = size + 1 := length_toBytes _ _
  rw [length?, if_neg hge, hb, Nat.add_sub_cancel_left]
  simp only [List.take_left' hlength, List.drop_left' hlength,
    natural_toBytes hfit]
  exact if_pos ⟨Nat.le_add_left 1 size, hcount, hlength,
    head?_toBytes_ne_zero hneed hfit, hlong⟩

theorem length?_lengthBytes_append (h : n < span 4) (rest : Bytes) :
    length? (lengthBytes n ++ rest) = some (n, rest) := by
  unfold lengthBytes
  split_ifs with hshort
  · exact length?_of_short hshort rest
  · have hpos : n ≠ 0 := by omega
    have hcount : byteLength n ≤ 4 := byteLength_le_of_lt_span h
    obtain ⟨size, hsize⟩ : ∃ size, byteLength n = size + 1 :=
      ⟨_, byteLength_of_ne_zero hpos⟩
    have hfit := lt_span_byteLength hpos
    have hneed := span_le hpos
    rw [hsize] at hfit hneed hcount ⊢
    exact length?_of_long (Nat.le_of_not_lt hshort) hcount hneed hfit rest

theorem element?_write_append (h : contents.length < span 4) (rest : Bytes) :
    element? (write tag contents ++ rest) = some (⟨tag, contents⟩, rest) := by
  unfold write
  rw [List.cons_append, List.append_assoc, element?,
    length?_lengthBytes_append h]
  simp

theorem tagged?_write_append (h : contents.length < span 4) (rest : Bytes) :
    tagged? tag (write tag contents ++ rest) = some (contents, rest) := by
  unfold tagged?
  rw [element?_write_append h]
  simp

theorem only?_write (h : contents.length < span 4) :
    only? tag (write tag contents) = some contents := by
  have hread : tagged? tag (write tag contents ++ []) = some (contents, []) :=
    tagged?_write_append h []
  rw [List.append_nil] at hread
  unfold only?
  rw [hread]
  simp

theorem length_write_le (h : contents.length < span 4) :
    (write tag contents).length ≤ contents.length + 6 := by
  have hcount := byteLength_le_of_lt_span h
  unfold write lengthBytes
  split_ifs
  · simp only [List.length_cons, List.length_append, List.length_nil]
    omega
  · simp only [List.length_cons, List.length_append, length_toBytes]
    omega

/-! ## Numbers -/

/-- The contents of an integer that is not negative. -/
def unsignedBytes (n : Nat) : Bytes := toBytes (bitLength n / 8 + 1) n

theorem unsigned?_unsignedBytes (n : Nat) :
    unsigned? (unsignedBytes n) = some n := by
  have hroom := two_mul_lt_span n
  have hneed : 8 ≤ bitLength n → span (bitLength n / 8) ≤ 2 * n :=
    span_le_two_mul
  have hlength : (unsignedBytes n).length = bitLength n / 8 + 1 :=
    length_toBytes _ _
  have hnatural : natural (unsignedBytes n) = n := natural_toBytes (by omega)
  generalize unsignedBytes n = bytes at hlength hnatural
  match bytes with
  | [] => nomatch hlength
  | [b] =>
      have hsize : bitLength n / 8 + 1 = 1 := hlength.symm
      have hb : b.toNat = n := by simpa [natural] using hnatural
      have hlt : b < 128 := by
        rw [hsize] at hroom
        change 2 * n < 256 at hroom
        rw [UInt8.lt_iff_toNat_lt, hb]
        change n < 128
        omega
      rw [unsigned?, if_pos hlt, hb]
  | b :: c :: rest =>
      have hsize : bitLength n / 8 = rest.length + 1 := by
        rw [List.length_cons, List.length_cons] at hlength
        omega
      have hneed := hneed (by omega)
      have hrest := natural_lt rest
      rw [hsize, span_succ] at hneed
      rw [hsize, span_succ, span_succ] at hroom
      have hvalue := hnatural
      rw [natural_cons, natural_cons, List.length_cons, span_succ] at hvalue
      have hplain : ¬ (b ≥ 128 ∨ (b = 0 ∧ c < 128)) := by
        rintro (hb | ⟨rfl, hc⟩)
        · -- the bit of the sign would be set
          have hb : 128 ≤ b.toNat := UInt8.le_iff_toNat_le.mp hb
          have hle := Nat.mul_le_mul_right (span rest.length * 256) hb
          omega
        · -- the zero would not be needed
          have hc : c.toNat ≤ 127 :=
            Nat.le_of_lt_succ (UInt8.lt_iff_toNat_lt.mp hc)
          have hle := Nat.mul_le_mul_right (span rest.length) hc
          have hzero : (0 : UInt8).toNat = 0 := rfl
          rw [hzero, Nat.zero_mul] at hvalue
          omega
      rw [unsigned?, if_neg hplain, hnatural]

def writeUnsigned (n : Nat) : Bytes := write integerTag (unsignedBytes n)

theorem readUnsigned?_writeUnsigned_append (h : bitLength n / 8 + 1 < span 4)
    (rest : Bytes) :
    readUnsigned? (writeUnsigned n ++ rest) = some (n, rest) := by
  have hlength : (unsignedBytes n).length < span 4 := by
    rwa [unsignedBytes, length_toBytes]
  unfold readUnsigned? writeUnsigned
  rw [tagged?_write_append hlength]
  simp [unsigned?_unsignedBytes]

theorem length_writeUnsigned_le (h : bitLength n / 8 + 1 < span 4) :
    (writeUnsigned n).length ≤ bitLength n / 8 + 7 := by
  have hlength : (unsignedBytes n).length = bitLength n / 8 + 1 :=
    length_toBytes _ _
  have hle : (writeUnsigned n).length ≤ (unsignedBytes n).length + 6 :=
    length_write_le (hlength ▸ h)
  rwa [hlength] at hle

end Der

end Telemetry
