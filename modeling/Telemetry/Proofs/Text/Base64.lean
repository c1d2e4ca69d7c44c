import Telemetry.Text.Base64
import Telemetry.Proofs.Text

/-!
# Base64 is read back

Three bytes are written as four characters, and what is left at the end is
padded.  Reading gives back the bytes, and no character that is written is blank
or a dash.
-/

namespace Telemetry.Base64

def digit (n : Nat) : UInt8 :=
  if n < 26 then UInt8.ofNat (n + 65)
  else if n < 52 then UInt8.ofNat (n + 71)
  else if n < 62 then UInt8.ofNat (n - 4)
  else if n = 62 then 43
  else 47

def encode : Bytes → Bytes
  | [] => []
  | [x] => [digit (x.toNat / 4), digit (x.toNat % 4 * 16), pad, pad]
  | [x, y] =>
    [digit (x.toNat / 4), digit (x.toNat % 4 * 16 + y.toNat / 16),
      digit (y.toNat % 16 * 4), pad]
  | x :: y :: z :: rest =>
    digit (x.toNat / 4) :: digit (x.toNat % 4 * 16 + y.toNat / 16)
      :: digit (y.toNat % 16 * 4 + z.toNat / 64) :: digit (z.toNat % 64) ::
      encode rest

theorem value?_digit {n : Nat} (h : n < 64) : value? (digit n) = some n := by
  have hall : ∀ k < 64, value? (digit k) = some k := by decide
  exact hall n h

theorem digit_ne_pad {n : Nat} (h : n < 64) : digit n ≠ pad := by
  intro hpad
  have hvalue := value?_digit h
  rw [hpad] at hvalue
  exact Option.some_ne_none n hvalue.symm

/-! ## Reading -/

theorem decode?_padded_twice {a b : Nat} (ha : a < 64) (hb : b < 64)
    (hzero : b % 16 = 0) :
    decode? [digit a, digit b, pad, pad] =
      some [UInt8.ofNat (a * 4 + b / 16)] := by
  rw [decode?, value?_digit ha, value?_digit hb]
  simp only [Option.bind_eq_bind, Option.bind_some, if_true]
  exact if_pos ⟨trivial, hzero⟩

theorem decode?_padded_once {a b c : Nat} (ha : a < 64) (hb : b < 64)
    (hc : c < 64) (hzero : c % 4 = 0) :
    decode? [digit a, digit b, digit c, pad] =
      some [UInt8.ofNat (a * 4 + b / 16), UInt8.ofNat (b * 16 + c / 4)] := by
  rw [decode?, value?_digit ha, value?_digit hb, value?_digit hc]
  simp only [Option.bind_eq_bind, Option.bind_some, if_neg (digit_ne_pad hc),
    if_true]
  exact if_pos hzero

/-- A group without padding, before others or at the end. -/
theorem decode?_group {a b c d : Nat} (ha : a < 64) (hb : b < 64) (hc : c < 64)
    (hd : d < 64) (rest : Bytes) :
    decode? (digit a :: digit b :: digit c :: digit d :: rest) =
      (decode? rest).map fun bytes => UInt8.ofNat (a * 4 + b / 16) ::
        UInt8.ofNat (b * 16 + c / 4) :: UInt8.ofNat (c * 64 + d) :: bytes := by
  cases rest with
  | nil =>
      rw [decode?, decode?, value?_digit ha, value?_digit hb, value?_digit hc,
        value?_digit hd]
      simp only [Option.bind_eq_bind, Option.bind_some,
        if_neg (digit_ne_pad hc), if_neg (digit_ne_pad hd)]
      rfl
  | cons e rest =>
      rw [decode?, value?_digit ha, value?_digit hb, value?_digit hc,
        value?_digit hd]
      · cases decode? (e :: rest) <;> rfl
      · exact List.cons_ne_nil e rest

/-- The high bits of a byte and its two low ones. -/
theorem ofNat_first (x : UInt8) {low : Nat} (h : low < 16) :
    UInt8.ofNat (x.toNat / 4 * 4 + (x.toNat % 4 * 16 + low) / 16) = x := by
  have hx := x.toNat_lt
  rw [← UInt8.toNat_inj, UInt8.toNat_ofNat']
  omega

/-- The four high bits of a byte and the low ones. -/
theorem ofNat_second (y : UInt8) (high : Nat) {low : Nat} (h : low < 4) :
    UInt8.ofNat
      ((high * 16 + y.toNat / 16) * 16 + (y.toNat % 16 * 4 + low) / 4) = y := by
  have hy := y.toNat_lt
  rw [← UInt8.toNat_inj, UInt8.toNat_ofNat']
  omega

/-- The two high bits of a byte and the low ones. -/
theorem ofNat_third (z : UInt8) (high : Nat) :
    UInt8.ofNat ((high * 4 + z.toNat / 64) * 64 + z.toNat % 64) = z := by
  have hz := z.toNat_lt
  rw [← UInt8.toNat_inj, UInt8.toNat_ofNat']
  omega

theorem decode?_encode (bytes : Bytes) :
    decode? (encode bytes) = some bytes := by
  fun_induction encode bytes with
  | case1 => rfl
  | case2 x =>
      have hx := x.toNat_lt
      have hfirst := ofNat_first x (show 0 < 16 by decide)
      rw [Nat.add_zero] at hfirst
      rw [decode?_padded_twice (by omega) (by omega) (Nat.mul_mod_left _ _),
        hfirst]
  | case3 x y =>
      have hx := x.toNat_lt
      have hy := y.toNat_lt
      have hsecond := ofNat_second y (x.toNat % 4) (show 0 < 4 by decide)
      rw [Nat.add_zero] at hsecond
      rw [decode?_padded_once (by omega) (by omega) (by omega)
        (Nat.mul_mod_left _ _), ofNat_first x (by omega), hsecond]
  | case4 x y z rest ih =>
      have hx := x.toNat_lt
      have hy := y.toNat_lt
      have hz := z.toNat_lt
      rw [decode?_group (by omega) (by omega) (by omega) (by omega), ih,
        ofNat_first x (by omega), ofNat_second y _ (by omega), ofNat_third]
      rfl

/-! ## Characters -/

/-- Whether a byte is one of the characters that are written. -/
def isCharacter (b : UInt8) : Bool := (value? b).isSome || b == pad

theorem isCharacter_digit {n : Nat} (h : n < 64) :
    isCharacter (digit n) = true := by
  unfold isCharacter
  rw [value?_digit h]
  rfl

theorem isCharacter_of_mem_encode {bytes : Bytes} {b : UInt8}
    (h : b ∈ encode bytes) :
    isCharacter b = true := by
  have hpad : isCharacter pad = true := by decide
  fun_induction encode bytes with
  | case1 => nomatch h
  | case2 x =>
      have hx := x.toNat_lt
      simp only [List.mem_cons, List.not_mem_nil, or_false] at h
      rcases h with rfl | rfl | rfl | rfl
      · exact isCharacter_digit (by omega)
      · exact isCharacter_digit (by omega)
      · exact hpad
      · exact hpad
  | case3 x y =>
      have hx := x.toNat_lt
      have hy := y.toNat_lt
      simp only [List.mem_cons, List.not_mem_nil, or_false] at h
      rcases h with rfl | rfl | rfl | rfl
      · exact isCharacter_digit (by omega)
      · exact isCharacter_digit (by omega)
      · exact isCharacter_digit (by omega)
      · exact hpad
  | case4 x y z rest ih =>
      have hx := x.toNat_lt
      have hy := y.toNat_lt
      have hz := z.toNat_lt
      simp only [List.mem_cons] at h
      rcases h with rfl | rfl | rfl | rfl | hrest
      · exact isCharacter_digit (by omega)
      · exact isCharacter_digit (by omega)
      · exact isCharacter_digit (by omega)
      · exact isCharacter_digit (by omega)
      · exact ih hrest

/-- A character is one of ASCII, ends no line, is no dash and is not blank. -/
theorem plain_of_isCharacter {b : UInt8} (h : isCharacter b = true) :
    b.toNat < 128 ∧ b ≠ 0x0A ∧ b ≠ 0x2D ∧
      Text.isBlank (Char.ofNat b.toNat) = false := by
  have hall : ∀ k < 256, isCharacter (UInt8.ofNat k) = true →
      (UInt8.ofNat k).toNat < 128 ∧ UInt8.ofNat k ≠ 0x0A ∧
        UInt8.ofNat k ≠ 0x2D ∧
        Text.isBlank (Char.ofNat (UInt8.ofNat k).toNat) = false := by
          decide +kernel
  have hb := hall b.toNat b.toNat_lt
  rw [UInt8.ofNat_toNat] at hb
  exact hb h

end Telemetry.Base64
