import Telemetry.Proofs.Protobuf.Wire
import Telemetry.Binary64.Basic
import Mathlib.Data.Nat.Digits.Defs

/-!
# The format of messages

What the bytes of a message are by its schema, apart from any way to write or to
read them: the numbers of the fields, the types of their values, and which
values may be left out.  Writers are held against this description.
-/

namespace Telemetry.Protobuf

/-! ## Numbers -/

/-- The seven-bit groups of a number, the lowest first and no more of them than
it takes; every byte but the last has its highest bit set. -/
inductive Varint : Nat → Bytes → Prop where
  | last {n : Nat} {b : UInt8} (byte : b.toNat = n) (small : n < 128) :
      Varint n [b]
  | more {n : Nat} {b : UInt8} {bytes : Bytes} (byte : b.toNat = n % 128 + 128)
      (large : 128 ≤ n) (others : Varint (n / 128) bytes) :
      Varint n (b :: bytes)

/-- The bits of a signed word moved up by one place, and flipped if it is
negative. -/
def zigzagBits (i : Int64) : BitVec 64 :=
  (i.toBitVec <<< 1) ^^^ i.toBitVec.sshiftRight 63

/-- The eight bytes of a word, the lowest first. -/
def LittleEndian (w : UInt64) (bytes : Bytes) : Prop :=
  bytes.length = 8 ∧ Nat.ofDigits 256 (bytes.map UInt8.toNat) = w.toNat

theorem varint_writeGroups
    {k n : Nat} (h : n < 128 ^ (k + 1)) : Varint n (writeGroups k n) := by
  induction k generalizing n with
  | zero =>
      have hbyte : (UInt8.ofNat n).toNat = n := by
        rw [UInt8.toNat_ofNat']
        omega
      exact .last hbyte h
  | succ k ih =>
      rw [writeGroups]
      by_cases hsmall : n < 128
      · have hbyte : (UInt8.ofNat n).toNat = n := by
          rw [UInt8.toNat_ofNat']
          omega
        rw [if_pos hsmall]
        exact .last hbyte hsmall
      · have hbyte : (UInt8.ofNat (n % 128 + 128)).toNat = n % 128 + 128 := by
          rw [UInt8.toNat_ofNat']
          omega
        have hrest : n / 128 < 128 ^ (k + 1) :=
          Nat.div_lt_of_lt_mul (by rwa [Nat.pow_succ, Nat.mul_comm] at h)
        rw [if_neg hsmall]
        exact .more hbyte (Nat.le_of_not_lt hsmall) (ih hrest)

theorem varint_writeVarint
    {n : Nat} (h : n < UInt64.size) : Varint n (writeVarint n) :=
  varint_writeGroups (Nat.lt_trans h (by decide))

theorem length_writeGroups_le (k n : Nat) :
    (writeGroups k n).length ≤ k + 1 := by
  induction k generalizing n with
  | zero => exact Nat.le_refl 1
  | succ k ih =>
      rw [writeGroups]
      split
      · exact Nat.succ_le_succ (Nat.zero_le _)
      · exact Nat.succ_le_succ (ih (n / 128))

theorem length_writeVarint_le (n : Nat) : (writeVarint n).length ≤ 10 :=
  length_writeGroups_le 9 n

theorem sshiftRight_sign (x : BitVec 64) :
    x.sshiftRight 63 = if 2 ^ 63 ≤ x.toNat then BitVec.allOnes 64
      else 0#64 := by
  have hlt := x.isLt
  have hmsb := x.msb_eq_decide
  by_cases hsign : 2 ^ 63 ≤ x.toNat
  · have hzero : ~~~x >>> 63 = 0#64 := by
      apply BitVec.eq_of_toNat_eq
      rw [BitVec.toNat_ushiftRight, BitVec.toNat_not, Nat.shiftRight_eq_div_pow]
      exact Nat.div_eq_of_lt (by omega)
    rw [if_pos hsign,
      BitVec.sshiftRight_eq_of_msb_true (hmsb.trans (decide_eq_true hsign)),
      hzero]
    rfl
  · rw [if_neg hsign,
      BitVec.sshiftRight_eq_of_msb_false (hmsb.trans (decide_eq_false hsign))]
    apply BitVec.eq_of_toNat_eq
    rw [BitVec.toNat_ushiftRight, Nat.shiftRight_eq_div_pow]
    exact Nat.div_eq_of_lt (Nat.lt_of_not_le hsign)

/-- Doubling a word and flipping its bits gives the even numbers to the words
that are not negative, and the odd numbers to the others. -/
theorem toNat_zigzagBits (i : Int64) : (zigzagBits i).toNat = zigzag i := by
  have hlt := i.toBitVec.isLt
  have hint : i.toInt = if 2 * i.toBitVec.toNat < 2 ^ 64 then
    (i.toBitVec.toNat : Int)
      else i.toBitVec.toNat - (2 ^ 64 : Nat) := i.toBitVec.toInt_eq_toNat_cond
  have hdouble : (i.toBitVec <<< 1).toNat = 2 * i.toBitVec.toNat % 2 ^ 64 := by
    rw [BitVec.toNat_shiftLeft, Nat.shiftLeft_eq, Nat.pow_one, Nat.mul_comm]
  rw [zigzagBits, sshiftRight_sign, zigzag]
  by_cases hsign : 2 ^ 63 ≤ i.toBitVec.toNat
  · rw [if_pos hsign, BitVec.xor_allOnes, BitVec.toNat_not, hdouble]
    split <;> omega
  · rw [if_neg hsign, BitVec.xor_zero, hdouble]
    split <;> omega

theorem littleEndian_writeFixed64 (w : UInt64) :
    LittleEndian w (writeFixed64 w) := by
  constructor
  · exact length_writeFixed64 w
  · have hw := w.toNat_lt
    simp only [writeFixed64, List.range, List.range.loop, List.map_cons,
      List.map_nil, Nat.ofDigits_cons, Nat.ofDigits_nil, UInt8.toNat_ofNat',
      Nat.shiftRight_eq_div_pow]
    omega

/-! ## Fields -/

/-- A value of one of the types that fields have. -/
inductive Scalar where
  | string (text : String)
  | enumeration (number : Nat)
  | double (value : Binary64)
  | sint64 (value : Int64)
  deriving DecidableEq

namespace Scalar

def form : Scalar → Nat
  | .string _ => 2
  | .enumeration _ => 0
  | .double _ => 1
  | .sint64 _ => 0

/-- The value of the type that stands for a field that is left out. -/
def default : Scalar → Scalar
  | .string _ => .string ""
  | .enumeration _ => .enumeration 0
  | .double _ => .double .zero
  | .sint64 _ => .sint64 0

inductive Payload : Scalar → Bytes → Prop where
  | string {text : String} {size : Bytes}
      (length : Varint (Utf8.encode text).length size) :
      Payload (.string text) (size ++ Utf8.encode text)
  | enumeration {n : Nat} {bytes : Bytes} (number : Varint n bytes) :
      Payload (.enumeration n) bytes
  | double {x : Binary64} {bytes : Bytes} (word : LittleEndian x.bits bytes) :
      Payload (.double x) bytes
  | sint64 {i : Int64} {bytes : Bytes}
      (number : Varint (zigzagBits i).toNat bytes) :
      Payload (.sint64 i) bytes

end Scalar

/-- What a message holds in a field: always a value if its presence is implicit,
and maybe none if it is explicit. -/
inductive Content where
  | implicit (value : Scalar)
  | explicit (value : Option Scalar)

/-- What is written of a field.  Where presence is implicit, the default is left
out, and where it is explicit, every value is written. -/
def Content.written? : Content → Option Scalar
  | .implicit value => if value = value.default then none else some value
  | .explicit value => value

/-- The bytes are those of fields with their numbers, in order. -/
inductive Written : List (Nat × Content) → Bytes → Prop where
  | done : Written [] []
  | omitted {number : Nat} {content : Content} {fields : List (Nat × Content)}
      {bytes : Bytes} (absent : content.written? = none)
      (others : Written fields bytes) :
      Written ((number, content) :: fields) bytes
  | present {number : Nat} {content : Content} {fields : List (Nat × Content)}
      {value : Scalar} {key payload bytes : Bytes}
      (held : content.written? = some value)
      (tagged : Varint (8 * number + value.form) key)
      (paid : value.Payload payload)
      (others : Written fields bytes) :
      Written ((number, content) :: fields) (key ++ payload ++ bytes)

theorem Written.append {fields others : List (Nat × Content)}
    {bytes rest : Bytes} (h : Written fields bytes)
    (hrest : Written others rest) :
    Written (fields ++ others) (bytes ++ rest) := by
  induction h with
  | done => exact hrest
  | omitted absent _ ih => exact .omitted absent ih
  | present held tagged paid _ ih =>
      rw [List.append_assoc]
      exact .present held tagged paid ih

theorem Written.single {number : Nat} {content : Content} {value : Scalar}
    {key payload : Bytes} (held : content.written? = some value)
    (tagged : Varint (8 * number + value.form) key)
    (paid : value.Payload payload) :
    Written [(number, content)] (key ++ payload) := by
  rw [← List.append_nil (key ++ payload)]
  exact .present held tagged paid .done

/-- The bytes are those of messages one after the other, each with its length
before it. -/
inductive Delimited : List (List (Nat × Content)) → Bytes → Prop where
  | done : Delimited [] []
  | message {fields : List (Nat × Content)}
      {messages : List (List (Nat × Content))} {size body bytes : Bytes}
      (length : Varint body.length size) (written : Written fields body)
      (others : Delimited messages bytes) :
      Delimited (fields :: messages) (size ++ body ++ bytes)

end Telemetry.Protobuf
