import Telemetry.Binary64.Basic
import Mathlib.Order.Monotone.Basic
import Mathlib.Tactic.Linarith
import Mathlib.Tactic.Ring

/-!
# Binary64 numbers in the order of their patterns

A number is its sign and its pattern.  The finite numbers of one sign lie in the
order of their patterns, and from one pattern to the next they lie one gap
apart; whole numbers of 53 bits are among them.
-/

namespace Telemetry.Binary64

/-! ## Signs and patterns -/

theorem toNat_ofPattern (negative : Bool) {p : Nat} (hp : p < signBit) :
    (ofPattern negative p).bits.toNat = p + if negative then signBit
      else 0 := by
  rw [ofPattern, UInt64.toNat_ofNat']
  apply Nat.mod_eq_of_lt
  unfold signBit at *
  split <;> omega

@[simp] theorem pattern_ofPattern (negative : Bool) {p : Nat}
    (hp : p < signBit) :
    (ofPattern negative p).pattern = p := by
  rw [pattern, toNat_ofPattern negative hp]
  unfold signBit at *
  split <;> omega

@[simp] theorem isNegative_ofPattern (negative : Bool) {p : Nat}
    (hp : p < signBit) :
    (ofPattern negative p).isNegative = negative := by
  rw [isNegative, toNat_ofPattern negative hp]
  unfold signBit at *
  cases negative
  · simpa using hp
  · simp

theorem isFinite_iff {x : Binary64} :
    x.isFinite = true ↔ x.pattern < infinityPattern := by
  rw [isFinite, decide_eq_true_iff]

theorem pattern_lt (x : Binary64) :
    x.pattern < signBit := Nat.mod_lt _ (by decide)

/-- A number is its sign and its pattern. -/
@[simp] theorem ofPattern_pattern (x : Binary64) :
    ofPattern x.isNegative x.pattern = x := by
  have hlt : x.bits.toNat < 2 * signBit := x.bits.toNat_lt
  have hbits :
      (ofPattern x.isNegative x.pattern).bits.toNat = x.bits.toNat := by
    rw [toNat_ofPattern _ x.pattern_lt, isNegative, pattern]
    unfold signBit at *
    simp only [decide_eq_true_eq]
    split <;> omega
  exact congrArg Binary64.mk (UInt64.toNat_inj.mp hbits)

theorem ofPattern_inj {x y : Binary64} (hsign : x.isNegative = y.isNegative)
    (hpattern : x.pattern = y.pattern) : x = y := by
  rw [← ofPattern_pattern x, ← ofPattern_pattern y, hsign, hpattern]

/-! ## The numbers by their patterns -/

/-- The exponent of the gap above a pattern. -/
def binade (p : Nat) : Nat := p / exponentUnit - 1

/-- The distance of the numbers of a pattern and the next one, in
units of `2 ^ -1074`. -/
def gap (p : Nat) : Nat := 2 ^ binade p

/-- The number of a pattern, in units of `2 ^ -1074`. -/
def unitsAt (p : Nat) : Nat := (p - binade p * exponentUnit) * gap p

theorem significand_eq (x : Binary64) :
    x.significand = x.pattern - binade x.pattern * exponentUnit := by
  have hmod := Nat.div_add_mod x.pattern exponentUnit
  have hlt := Nat.mod_lt x.pattern (by decide : 0 < exponentUnit)
  rw [significand, exponentField, binade]
  generalize x.pattern / exponentUnit = field at *
  unfold exponentUnit at *
  split <;> omega

theorem units_eq (x : Binary64) : x.units = unitsAt x.pattern := by
  rw [units, Nat.shiftLeft_eq, significand_eq]
  rfl

theorem unitsAt_add {b m : Nat} (hm : m < 2 * exponentUnit)
    (hb : 0 < b → exponentUnit ≤ m) :
    binade (b * exponentUnit + m) = b ∧
      unitsAt (b * exponentUnit + m) = m * 2 ^ b := by
  have hbinade : binade (b * exponentUnit + m) = b := by
    unfold binade exponentUnit at *
    omega
  constructor
  · exact hbinade
  · rw [unitsAt, gap, hbinade, Nat.add_sub_cancel_left]

/-- A significand that is rounded up to the next power of two runs
into the exponent. -/
theorem unitsAt_carry (b : Nat) :
    unitsAt (b * exponentUnit + 2 * exponentUnit) =
      2 * exponentUnit * 2 ^ b := by
  have hpattern : b * exponentUnit + 2 * exponentUnit =
      (b + 1) * exponentUnit + exponentUnit := by ring
  rw [hpattern, (unitsAt_add (by decide) fun _ => Nat.le_refl _).2]
  ring

theorem exists_significand (p : Nat) :
    ∃ m, p = binade p * exponentUnit + m ∧ m < 2 * exponentUnit ∧
      (0 < binade p → exponentUnit ≤ m) ∧ unitsAt p = m * gap p := by
  refine ⟨p - binade p * exponentUnit, ?_, ?_, ?_, rfl⟩ <;>
    unfold binade exponentUnit <;> omega

theorem unitsAt_succ (p : Nat) : unitsAt (p + 1) = unitsAt p + gap p := by
  obtain ⟨m, hp, hm, hb, hunits⟩ := exists_significand p
  have hnext : p + 1 = binade p * exponentUnit + (m + 1) := by omega
  rw [hunits, hnext]
  by_cases hcarry : m + 1 = 2 * exponentUnit
  · rw [hcarry, unitsAt_carry, ← hcarry, gap]
    ring
  · rw [(unitsAt_add (by omega) fun h => Nat.le_add_right_of_le (hb h)).2, gap]
    ring

theorem gap_pos (p : Nat) : 0 < gap p := Nat.two_pow_pos _

theorem gap_le_gap {p q : Nat} (h : p ≤ q) : gap p ≤ gap q :=
  Nat.pow_le_pow_right (by decide)
    (Nat.sub_le_sub_right (Nat.div_le_div_right h) 1)

theorem strictMono_unitsAt : StrictMono unitsAt :=
  strictMono_nat_of_lt_succ fun p => by
    rw [unitsAt_succ]
    exact Nat.lt_add_of_pos_right (gap_pos p)

/-- A number has at most `2 ^ 53 - 1` times its gap. -/
theorem unitsAt_add_gap_le (p : Nat) :
    unitsAt p + gap p ≤ 2 * exponentUnit * gap p := by
  obtain ⟨m, -, hm, -, hunits⟩ := exists_significand p
  rw [hunits]
  calc m * gap p + gap p = (m + 1) * gap p := by ring
    _ ≤ 2 * exponentUnit * gap p := Nat.mul_le_mul_right _ hm

/-! ## Midpoints -/

/-- Twice the midpoint between a pattern and the next one. -/
def midpoint (p : Nat) : Nat := unitsAt p + unitsAt (p + 1)

theorem strictMono_midpoint : StrictMono midpoint := by
  intro p q h
  exact Nat.add_lt_add (strictMono_unitsAt h)
    (strictMono_unitsAt (Nat.succ_lt_succ h))

theorem midpoint_pos (p : Nat) : 0 < midpoint p := by
  have := gap_pos p
  rw [midpoint, unitsAt_succ]
  omega

/-- One part in `2 ^ 53` does not reach from a midpoint to the next one. -/
theorem midpoint_lt (p : Nat) :
    midpoint p * (2 * exponentUnit + 1) < midpoint (p + 1) *
      (2 * exponentUnit) := by
  have hgap := gap_pos p
  have hsize := unitsAt_add_gap_le p
  have hnext := gap_le_gap (Nat.le_add_right p 1)
  simp only [midpoint, unitsAt_succ] at *
  unfold exponentUnit at *
  omega

/-! ## Whole numbers -/

theorem unitsPerOne_eq : unitsPerOne = 2 ^ 1074 := by
  rw [unitsPerOne]
  -- the power stays unevaluated
  generalize 1074 = bits
  exact Nat.one_shiftLeft bits

theorem unitsPerOne_pos : 0 < unitsPerOne := by
  rw [unitsPerOne_eq]
  generalize 1074 = bits
  exact Nat.two_pow_pos bits

/-- Whole numbers of 53 bits are exact, and so are their multiples
by a power of two. -/
theorem exists_unitsAt_eq {n j : Nat} (hpos : 0 < n)
    (hlt : n < 2 * exponentUnit) (hj : j ≤ 900) :
    ∃ p, p < infinityPattern ∧ unitsAt p = n * 2 ^ j * unitsPerOne := by
  have hlow : 2 ^ n.log2 ≤ n := Nat.log2_self_le hpos.ne'
  have hhigh : n < 2 ^ (n.log2 + 1) := Nat.lt_log2_self
  have hlog : n.log2 < 53 :=
    (Nat.log2_lt hpos.ne').mpr (hlt.trans_eq (by decide))
  -- the significand takes as many bits from the power as it lacks
  obtain ⟨shift, hshift⟩ : ∃ shift, n.log2 + shift = 52 :=
    ⟨52 - n.log2, by omega⟩
  have hunit : exponentUnit = 2 ^ n.log2 * 2 ^ shift := by
    rw [← Nat.pow_add, hshift]
    decide
  have hfull : exponentUnit ≤ n * 2 ^ shift := by
    rw [hunit]
    gcongr
  have hbounded : n * 2 ^ shift < 2 * exponentUnit := by
    calc n * 2 ^ shift < 2 ^ (n.log2 + 1) * 2 ^ shift :=
          Nat.mul_lt_mul_of_pos_right hhigh (Nat.two_pow_pos _)
      _ = 2 * exponentUnit := by rw [hunit]; ring
  refine ⟨(1074 + j - shift) * exponentUnit + n * 2 ^ shift, ?_, ?_⟩
  · unfold infinityPattern exponentUnit at *
    omega
  · rw [(unitsAt_add hbounded fun _ => hfull).2, unitsPerOne_eq, Nat.mul_assoc,
      Nat.mul_assoc, ← Nat.pow_add, ← Nat.pow_add]
    congr 2
    omega

end Telemetry.Binary64
