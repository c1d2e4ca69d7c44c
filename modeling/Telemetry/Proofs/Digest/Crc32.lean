import Telemetry.Digest.Crc32
import Mathlib.Algebra.CharP.Two
import Mathlib.Algebra.Field.ZMod
import Mathlib.RingTheory.AdjoinRoot
import Mathlib.Tactic.LinearCombination

/-!
# The check sum is a remainder of polynomials

The bits of a text, the lowest of each byte first, are the coefficients of a
polynomial, the first bit that of the highest power.  The check sum complements
the remainder that this polynomial leaves, with 32 ones put in front of it as
they are read, when it is divided by the generator.
-/

namespace Telemetry.Crc32

open Polynomial

/-! ## Bits as coefficients -/

/-- The polynomial whose coefficients are some bits, the first that of
the highest power. -/
noncomputable def ofBits : List Bool → (ZMod 2)[X]
  | [] => 0
  | b :: bits => (if b then X ^ bits.length else 0) + ofBits bits

theorem ofBits_append (bits more : List Bool) :
    ofBits (bits ++ more) = ofBits bits * X ^ more.length + ofBits more := by
  induction bits with
  | nil => simp [ofBits]
  | cons b bits ih =>
      cases b <;> simp [ofBits, ih, pow_add, add_mul, add_assoc]

theorem ofBits_replicate_false (n : Nat) :
    ofBits (List.replicate n false) = 0 := by
  induction n with
  | zero => rfl
  | succ n ih => simp [List.replicate_succ, ofBits, ih]

theorem ofBits_zipWith_xor {a b : List Bool} (h : a.length = b.length) :
    ofBits (List.zipWith xor a b) = ofBits a + ofBits b := by
  induction a generalizing b with
  | nil =>
      obtain rfl := List.length_eq_zero_iff.mp h.symm
      simp [ofBits]
  | cons x a ih =>
      cases b with
      | nil => nomatch h
      | cons y b =>
          have hlength : a.length = b.length := Nat.succ.inj h
          have htwice : (X : (ZMod 2)[X]) ^ b.length + X ^ b.length = 0 :=
            CharTwo.add_self_eq_zero _
          cases x <;> cases y <;> simp [ofBits, ih hlength, hlength]
          · ring
          · ring
          · linear_combination -htwice

theorem degree_ofBits_lt (bits : List Bool) :
    (ofBits bits).degree < bits.length := by
  induction bits with
  | nil => simp [ofBits]
  | cons b bits ih =>
      have hlt : (bits.length : WithBot Nat) < (b :: bits).length := by
        exact_mod_cast Nat.lt_succ_self _
      refine lt_of_le_of_lt (degree_add_le _ _) (max_lt ?_ (ih.trans hlt))
      cases b
      · simp
      · simpa using hlt

theorem eq_of_ofBits_eq {a b : List Bool} (hlength : a.length = b.length)
    (h : ofBits a = ofBits b) : a = b := by
  induction a generalizing b with
  | nil => exact (List.length_eq_zero_iff.mp hlength.symm).symm
  | cons x a ih =>
      cases b with
      | nil => nomatch hlength
      | cons y b =>
          have hrest : a.length = b.length := Nat.succ.inj hlength
          -- the first bit is the coefficient of a power that the others do not
          -- reach
          have hcoeff (z : Bool) (bits : List Bool) :
              (ofBits (z :: bits)).coeff bits.length = if z then 1 else 0 := by
            have hothers := coeff_eq_zero_of_degree_lt (degree_ofBits_lt bits)
            cases z <;> simp [ofBits, hothers]
          have hfirst := hcoeff x a
          rw [h, hrest, hcoeff y b] at hfirst
          obtain rfl : x = y := by
            cases x <;> cases y <;> simp at hfirst ⊢
          rw [ofBits, ofBits, hrest, add_left_cancel_iff] at h
          rw [ih hrest h]

/-- The lowest `n` bits of a number, the lowest first. -/
def lowBits (n value : Nat) : List Bool :=
  (List.range n).map value.testBit

@[simp] theorem length_lowBits (n value : Nat) :
    (lowBits n value).length = n := by
  simp [lowBits]

theorem lowBits_xor (n a b : Nat) :
    lowBits n (a ^^^ b) = List.zipWith xor (lowBits n a) (lowBits n b) := by
  unfold lowBits
  rw [List.zipWith_map, List.zipWith_self]
  exact List.map_congr_left fun i _ => Nat.testBit_xor a b i

theorem lowBits_and (n value : Nat) :
    lowBits n (value &&& (2 ^ n - 1)) = lowBits n value := by
  unfold lowBits
  refine List.map_congr_left fun i hi => ?_
  rw [Nat.testBit_and, Nat.testBit_two_pow_sub_one,
    decide_eq_true (List.mem_range.mp hi), Bool.and_true]

theorem lowBits_add (m n value : Nat) :
    lowBits (m + n) value = lowBits m value ++ lowBits n (value >>> m) := by
  unfold lowBits
  rw [List.range_add, List.map_append, List.map_map]
  congr 1
  exact List.map_congr_left fun i _ => (Nat.testBit_shiftRight value).symm

theorem lowBits_eq_false {n value : Nat} (h : value = 0) :
    lowBits n value = List.replicate n false := by
  subst h
  simp [lowBits, List.eq_replicate_iff]

/-- The bits of bytes in the order in which they are sent. -/
def bitsOf (bytes : Bytes) : List Bool :=
  bytes.flatMap fun b => lowBits 8 b.toNat

/-- The polynomial of a word, whose lowest bit is the coefficient of
the highest power. -/
noncomputable def ofWord (c : UInt32) :
    (ZMod 2)[X] := ofBits (lowBits 32 c.toNat)

theorem ofWord_xor (a b : UInt32) : ofWord (a ^^^ b) = ofWord a + ofWord b := by
  unfold ofWord
  rw [UInt32.toNat_xor, lowBits_xor, ofBits_zipWith_xor (by simp)]

/-- A word is its lowest bits ahead of the others. -/
theorem ofWord_eq {m n : Nat} (h : m + n = 32) (c : UInt32) :
    ofWord c = ofBits (lowBits m c.toNat) * X ^ n +
      ofBits (lowBits n (c.toNat >>> m)) := by
  unfold ofWord
  rw [← h, lowBits_add, ofBits_append, length_lowBits]

theorem ofBits_lowBits_of_small {m n value : Nat} (h : value < 2 ^ m) :
    ofBits (lowBits (m + n) value) = ofBits (lowBits m value) * X ^ n := by
  have hrest : value >>> m = 0 := by
    rw [Nat.shiftRight_eq_div_pow, Nat.div_eq_of_lt h]
  rw [lowBits_add, ofBits_append, length_lowBits, lowBits_eq_false hrest,
    ofBits_replicate_false, add_zero]

/-! ## The generator -/

/-- The polynomial by which is divided. -/
noncomputable def generator : (ZMod 2)[X] :=
  X ^ 32 + X ^ 26 + X ^ 23 + X ^ 22 + X ^ 16 + X ^ 12 + X ^ 11 + X ^ 10 +
    X ^ 8 + X ^ 7 + X ^ 5 + X ^ 4 + X ^ 2 + X + 1

theorem degree_ofWord_lt (c : UInt32) : (ofWord c).degree < 32 := by
  have h := degree_ofBits_lt (lowBits 32 c.toNat)
  rwa [length_lowBits] at h

theorem generator_eq : generator = X ^ 32 + ofWord 0xEDB88320 := by
  have hbits : lowBits 32 (0xEDB88320 : UInt32).toNat =
      [false, false, false, false, false, true, false, false, true, true, false,
        false, false, false, false, true, false, false, false, true, true, true,
        false, true, true, false, true, true, false, true, true, true] := by
        decide
  unfold generator ofWord
  rw [hbits]
  simp only [ofBits, List.length_cons, List.length_nil]
  norm_num
  ring

theorem monic_generator : generator.Monic := by
  rw [generator_eq]
  exact monic_X_pow_add (degree_ofWord_lt _)

theorem degree_generator : generator.degree = 32 := by
  rw [generator_eq, degree_add_eq_left_of_degree_lt] <;> rw [degree_X_pow]
  · rfl
  · exact degree_ofWord_lt _

/-- What a polynomial leaves when it is divided by the generator. -/
noncomputable abbrev residue : (ZMod 2)[X] →+* AdjoinRoot generator :=
  AdjoinRoot.mk generator

theorem residue_word : residue (ofWord 0xEDB88320) = residue (X ^ 32) := by
  apply AdjoinRoot.mk_eq_mk.mpr
  have hsum : ofWord 0xEDB88320 - X ^ 32 = generator := by
    rw [generator_eq, CharTwo.sub_eq_add, add_comm]
  rw [hsum]

/-! ## Division -/

theorem toNat_and_one (c : UInt32) :
    c &&& 1 = 1 ↔ c.toNat.testBit 0 = true := by
  rw [← UInt32.toNat_inj, UInt32.toNat_and, Nat.testBit_zero,
    decide_eq_true_iff]
  exact Nat.and_one_is_mod c.toNat ▸ Iff.rfl

/-- A step of the division multiplies by the variable. -/
theorem residue_shift (c : UInt32) :
    residue (ofWord (shift c)) = residue (X * ofWord c) := by
  have hsmall : c.toNat >>> 1 < 2 ^ 31 := by
    have hlt := c.toNat_lt
    rw [Nat.shiftRight_eq_div_pow]
    omega
  have hmoved : ofWord (c >>> 1) = ofBits (lowBits 31 (c.toNat >>> 1)) * X := by
    have h := ofBits_lowBits_of_small (m := 31) (n := 1) hsmall
    rwa [pow_one] at h
  have hword := ofWord_eq (m := 1) (n := 31) rfl c
  have hlow : lowBits 1 c.toNat = [c.toNat.testBit 0] := rfl
  rw [hlow] at hword
  unfold shift
  by_cases hbit : c &&& 1 = 1
  · -- the highest coefficient leaves the word, and the generator takes its
    -- place
    rw [if_pos hbit, ofWord_xor, map_add, residue_word, hmoved, hword,
      (toNat_and_one c).mp hbit, ← map_add]
    refine congrArg residue ?_
    simp only [ofBits, if_true, List.length_nil]
    ring
  · rw [if_neg hbit, hmoved, hword,
      Bool.eq_false_of_not_eq_true fun h => hbit ((toNat_and_one c).mpr h)]
    refine congrArg residue ?_
    simp only [ofBits, Bool.false_eq_true, if_false]
    ring

theorem residue_repeat_shift (n : Nat) (c : UInt32) :
    residue (ofWord (Nat.repeat shift n c)) = residue (X ^ n * ofWord c) := by
  induction n with
  | zero => rw [Nat.repeat, pow_zero, one_mul]
  | succ n ih =>
      rw [Nat.repeat, residue_shift, map_mul, ih, ← map_mul, pow_succ',
        mul_assoc]

theorem table_getD {n : Nat} (h : n < 256) : table.getD n 0 = entry n := by
  simp [table, h]

/-- The lowest byte of a word leaves it ahead of eight new bits. -/
theorem residue_step (c : UInt32) (b : UInt8) :
    residue (ofWord (step c b)) =
      residue (X ^ 8 * ofWord c + X ^ 32 * ofBits (lowBits 8 b.toNat)) := by
  have hbyte : ((c ^^^ b.toUInt32) &&& 0xFF).toNat < 256 := by
    rw [UInt32.toNat_and]
    exact Nat.lt_of_le_of_lt Nat.and_le_right (by decide)
  have hbits : lowBits 8 ((c ^^^ b.toUInt32) &&& 0xFF).toNat =
      List.zipWith xor (lowBits 8 c.toNat) (lowBits 8 b.toNat) := by
    rw [UInt32.toNat_and, UInt32.toNat_xor, UInt8.toNat_toUInt32]
    exact (lowBits_and 8 _).trans (lowBits_xor 8 _ _)
  have hentry : residue (ofWord (entry ((c ^^^ b.toUInt32) &&& 0xFF).toNat)) =
      residue (X ^ 32 *
        (ofBits (lowBits 8 c.toNat) + ofBits (lowBits 8 b.toNat))) := by
    unfold entry
    rw [residue_repeat_shift, UInt32.ofNat_toNat]
    refine congrArg residue ?_
    unfold ofWord
    rw [ofBits_lowBits_of_small (m := 8) (n := 24) hbyte, hbits,
      ofBits_zipWith_xor (by simp)]
    ring
  have hmoved :
      ofWord (c >>> 8) = ofBits (lowBits 24 (c.toNat >>> 8)) * X ^ 8 := by
    have hsmall : c.toNat >>> 8 < 2 ^ 24 := by
      have hlt := c.toNat_lt
      rw [Nat.shiftRight_eq_div_pow]
      omega
    exact ofBits_lowBits_of_small (m := 24) (n := 8) hsmall
  unfold step
  rw [table_getD hbyte, ofWord_xor, map_add, hentry, ← map_add, hmoved,
    ofWord_eq (m := 8) (n := 24) rfl c]
  refine congrArg residue ?_
  ring

theorem residue_foldl_step (c : UInt32) (bytes : Bytes) :
    residue (ofWord (bytes.foldl step c)) =
      residue (X ^ (bitsOf bytes).length * ofWord c + X ^ 32 * ofBits
        (bitsOf bytes)) := by
  induction bytes generalizing c with
  | nil => simp [bitsOf, ofBits]
  | cons b bytes ih =>
      have hcons : bitsOf (b :: bytes) = lowBits 8 b.toNat ++ bitsOf bytes :=
        rfl
      rw [List.foldl_cons, ih, map_add, map_mul, residue_step, ← map_mul,
        ← map_add, hcons, List.length_append, length_lowBits, ofBits_append]
      refine congrArg residue ?_
      ring

/-- The word is the check sum of the bytes: complemented, it is what remains
of their polynomial, moved up by 32 places and with ones added to its 32
highest coefficients. -/
def IsSum (bytes : Bytes) (check : UInt32) : Prop :=
  ofWord (~~~ check) =
    (X ^ (bitsOf bytes).length * ofBits (List.replicate 32 true) +
      X ^ 32 * ofBits (bitsOf bytes)) %ₘ generator

theorem ofWord_injective {a b : UInt32} (h : ofWord a = ofWord b) : a = b := by
  have hbits := eq_of_ofBits_eq (by simp) h
  apply UInt32.toNat_inj.mp
  apply Nat.eq_of_testBit_eq
  intro i
  by_cases hi : i < 32
  · exact List.map_inj_left.mp hbits i (List.mem_range.mpr hi)
  · have hlarge (c : UInt32) : c.toNat.testBit i = false :=
      Nat.testBit_lt_two_pow (Nat.lt_of_lt_of_le c.toNat_lt
        (Nat.pow_le_pow_right (by decide) (Nat.le_of_not_lt hi)))
    rw [hlarge a, hlarge b]

theorem isSum_sum (bytes : Bytes) : IsSum bytes (sum bytes) := by
  have hones : ofWord 0xFFFFFFFF = ofBits (List.replicate 32 true) := by
    unfold ofWord
    exact congrArg ofBits (by decide)
  have hresidue := residue_foldl_step 0xFFFFFFFF bytes
  rw [hones] at hresidue
  have hdvd := AdjoinRoot.mk_eq_mk.mp hresidue
  unfold IsSum sum
  rw [UInt32.not_not, ← modByMonic_eq_of_dvd_sub monic_generator hdvd]
  refine ((modByMonic_eq_self_iff monic_generator).mpr ?_).symm
  rw [degree_generator]
  exact degree_ofWord_lt _

/-- The bytes determine their check sum. -/
theorem isSum_iff {bytes : Bytes} {check : UInt32} :
    IsSum bytes check ↔ check = sum bytes := by
  constructor
  · intro h
    have hnot := ofWord_injective (h.trans (isSum_sum bytes).symm)
    calc
      check = ~~~ (~~~ check) := UInt32.not_not.symm
      _ = ~~~ (~~~ sum bytes) := congrArg (~~~ ·) hnot
      _ = sum bytes := UInt32.not_not
  · rintro rfl
    exact isSum_sum bytes

end Telemetry.Crc32
