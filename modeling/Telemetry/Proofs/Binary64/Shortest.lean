import Telemetry.Proofs.Binary64.Arithmetic

/-!
# The shortest decimal of a number

The decimal that a finite number is written as lies among the reals that are
rounded to the number, so rounding the decimal once gives the number back.  It
has at most eighteen digits and no power of ten below the least one.
-/

namespace Telemetry

namespace Decimal

theorem trimZeros_spec (fuel : Nat) (d : Decimal) :
    (trimZeros fuel d).value = d.value ∧
      d.exponent ≤ (trimZeros fuel d).exponent := by
  induction fuel generalizing d with
  | zero => exact ⟨rfl, Int.le_refl _⟩
  | succ fuel ih =>
      rw [trimZeros]
      split
      · next hzero =>
          obtain ⟨hvalue, hexponent⟩ := ih ⟨d.coefficient / 10, d.exponent + 1⟩
          refine ⟨hvalue.trans ?_, (Int.lt_succ d.exponent).le.trans hexponent⟩
          have hten :
              (d.coefficient : ℚ) = (d.coefficient / 10 : Nat) * 10 := by
            exact_mod_cast
              (Nat.div_mul_cancel (Nat.dvd_of_mod_eq_zero hzero)).symm
          rw [value, value, hten, zpow_add_one₀ (by norm_num)]
          ring
      · exact ⟨rfl, Int.le_refl _⟩

/-- Trimming zeros keeps the value and never lowers the power of ten. -/
theorem normalize_spec {d : Decimal} (hpos : 0 < d.coefficient) :
    d.normalize.value = d.value ∧ d.exponent ≤ d.normalize.exponent := by
  rw [normalize, if_neg hpos.ne']
  exact trimZeros_spec _ d

end Decimal

namespace Binary64

/-! ## Powers of ten -/

theorem zpow_of_neg {k : Int} (h : k < 0) :
    (10 : ℚ) ^ k * powerOfTen k.natAbs = 1 := by
  obtain ⟨n, rfl⟩ : ∃ n : Nat, k = -n := ⟨k.natAbs, by omega⟩
  rw [Int.natAbs_neg, Int.natAbs_natCast, zpow_neg, zpow_natCast,
    powerOfTen_eq_pow]
  push_cast
  exact inv_mul_cancel₀ (by positivity)

theorem zpow_of_nonneg {k : Int} (h : 0 ≤ k) :
    (10 : ℚ) ^ k = powerOfTen k.natAbs := by
  obtain ⟨n, rfl⟩ := Int.eq_ofNat_of_zero_le h
  rw [Int.natAbs_natCast, zpow_natCast, powerOfTen_eq_pow]
  push_cast
  rfl

/-! ## The rounding interval -/

variable {x : Binary64}

/-- The gap below a power of two is half the one above it, unless it is
among the lowest. -/
theorem gap_pred_eq (q : Nat) :
    gap (q + 1) =
      if q + 1 - binade (q + 1) * exponentUnit = exponentUnit ∧
        0 < binade (q + 1) then 2 * gap q
      else gap q := by
  rw [gap, gap]
  split
  · next hpower =>
      have hbinade : binade (q + 1) = binade q + 1 := by
        unfold binade exponentUnit at *
        omega
      rw [hbinade]
      ring
  · next hinside =>
      congr 1
      unfold binade exponentUnit at *
      omega

/-- The ends of the interval are the midpoints on the sides of the number. -/
theorem roundingInterval_eq {q : Nat} (hq : x.pattern = q + 1) :
    x.roundingInterval =
      ⟨2 * midpoint q, 4 * unitsAt x.pattern, 2 * midpoint x.pattern,
        4 * unitsPerOne, x.pattern % 2 == 0⟩ := by
  have hunits : x.significand * gap x.pattern = unitsAt x.pattern := by
    rw [significand_eq, unitsAt]
  have hgap := gap_pred_eq q
  have hscale : x.scale = binade x.pattern := rfl
  have hparity : x.significand % 2 = x.pattern % 2 := by
    rw [significand_eq]
    unfold binade exponentUnit
    omega
  have hprev : unitsAt x.pattern = unitsAt q + gap q := by rw [hq, unitsAt_succ]
  have hnext : unitsAt (x.pattern + 1) = unitsAt x.pattern + gap x.pattern :=
    unitsAt_succ _
  have hwidth : 2 ^ binade x.pattern = gap x.pattern := rfl
  rw [roundingInterval]
  simp only [Nat.shiftLeft_eq, Nat.one_mul, hscale, hparity, hwidth,
    RoundingInterval.mk.injEq, Nat.sub_mul, Nat.add_mul, Nat.mul_assoc, hunits,
    midpoint, hnext]
  rw [← hq, ← significand_eq] at hgap
  refine ⟨?_, trivial, by omega, trivial, trivial⟩
  rw [← hq, hprev]
  split at hgap
  · next hpower =>
      rw [if_pos hpower]
      omega
  · next hinside =>
      rw [if_neg hinside]
      omega

theorem two_mul_quotientUnits_le_iff (num : Nat) {den : Nat} (hden : 0 < den)
    (n : Nat) :
    2 * quotientUnits num den ≤ n ↔ num * (4 * unitsPerOne) ≤ 2 * n * den := by
  have hpos : (0 : ℚ) < den := by exact_mod_cast hden
  rw [quotientUnits, ← mul_div_assoc, div_le_iff₀ hpos]
  have hcast : (num * (4 * unitsPerOne) ≤ 2 * n * den : Prop) ↔
      (2 * (2 * (num * unitsPerOne)) : ℚ) ≤ 2 * (n * den) := by
    rw [← Nat.cast_le (α := ℚ)]
    push_cast
    constructor <;> intro h <;> linarith
  rw [hcast, mul_le_mul_iff_right₀ (by norm_num)]

theorem le_two_mul_quotientUnits_iff (num : Nat) {den : Nat} (hden : 0 < den)
    (n : Nat) :
    n ≤ 2 * quotientUnits num den ↔ 2 * n * den ≤ num * (4 * unitsPerOne) := by
  have hpos : (0 : ℚ) < den := by exact_mod_cast hden
  rw [quotientUnits, ← mul_div_assoc, le_div_iff₀ hpos]
  have hcast : (2 * n * den ≤ num * (4 * unitsPerOne) : Prop) ↔
      (2 * (n * den) : ℚ) ≤ 2 * (2 * (num * unitsPerOne)) := by
    rw [← Nat.cast_le (α := ℚ)]
    push_cast
    constructor <;> intro h <;> linarith
  rw [hcast, mul_le_mul_iff_right₀ (by norm_num)]

/-- The interval holds the reals that the number is nearest to. -/
theorem contains_iff (hx : x.pattern ≠ 0) {num den : Nat} (hden : 0 < den) :
    x.roundingInterval.contains num den = true ↔
      IsNearest x.pattern (quotientUnits num den) := by
  obtain ⟨q, hq⟩ := Nat.exists_eq_add_one_of_ne_zero hx
  have hbelow := le_two_mul_quotientUnits_iff num hden (midpoint q)
  have habove := two_mul_quotientUnits_le_iff num hden (midpoint x.pattern)
  have hbelow' := two_mul_quotientUnits_le_iff num hden (midpoint q)
  have habove' := le_two_mul_quotientUnits_iff num hden (midpoint x.pattern)
  rw [RoundingInterval.contains, roundingInterval_eq hq]
  by_cases heven : x.pattern % 2 = 0
  · have heven' : Even x.pattern := Nat.even_iff.mpr heven
    simp only [heven, BEq.rfl, if_true, Bool.and_eq_true, decide_eq_true_eq,
      ← hbelow, ← habove]
    constructor
    · rintro ⟨hlow, hhigh⟩
      refine ⟨hhigh, fun r hr => ?_, fun _ => heven'⟩
      obtain rfl : r = q := by omega
      exact hlow
    · intro h
      exact ⟨h.below q hq.symm, h.above⟩
  · have hodd : ¬ Even x.pattern := fun h => heven (Nat.even_iff.mp h)
    have hclosed : (x.pattern % 2 == 0) = false := by simpa using heven
    simp only [hclosed, Bool.false_eq_true, if_false, Bool.and_eq_true,
      decide_eq_true_eq, ← Nat.not_le, ← hbelow', ← habove', not_le]
    constructor
    · rintro ⟨hlow, hhigh⟩
      refine isNearest_of_between hhigh fun r hr => ?_
      obtain rfl : r = q := by omega
      exact hlow
    · intro h
      constructor
      · exact lt_of_le_of_ne (h.below q hq.symm) fun heq =>
          hodd (h.even (Or.inr ⟨q, hq.symm, heq⟩))
      · exact lt_of_le_of_ne h.above fun heq => hodd (h.even (Or.inl heq))

/-! ## The order of magnitude -/

/-- The order of magnitude that is estimated from a number of `n` bits
over another of 1077. -/
def estimate (n : Nat) : Int := Int.fdiv (((n : Int) - 1076) * 30103) 100000 + 1

/-- The estimate is at most one too small and at most two too large; the powers
of ten are shifted to be whole numbers. -/
theorem estimate_bounds_nat : ∀ n : Nat, n < 2100 →
    0 ≤ estimate n + 328 ∧
      10 ^ (estimate n - 2 + 330).toNat * 2 ^ 1076 ≤ 2 ^ n * 10 ^ 330 ∧
      2 ^ (n + 1) * 10 ^ 330 ≤ 10 ^ (estimate n + 1 + 330).toNat *
      2 ^ 1076 := by
  decide +kernel

theorem zpow_shift {k : Int} (hk : 0 ≤ k + 330) :
    (10 : ℚ) ^ k * (10 ^ 330 : Nat) = (10 ^ (k + 330).toNat : Nat) := by
  rw [Nat.cast_pow, Nat.cast_pow, ← zpow_natCast, ← zpow_natCast,
    Nat.cast_ofNat, ← zpow_add₀ (by norm_num)]
  congr 1
  omega

theorem estimate_bounds {n : Nat} (hn : n < 2100) :
    (10 : ℚ) ^ (estimate n - 2) * (4 * unitsPerOne : Nat) ≤ (2 ^ n : Nat) ∧
      ((2 ^ (n + 1) : Nat) : ℚ) ≤ (10 : ℚ) ^ (estimate n + 1) *
        (4 * unitsPerOne : Nat) := by
  obtain ⟨hnonneg, hleast, hgreatest⟩ := estimate_bounds_nat n hn
  have hunit : 2 ^ 1076 = 4 * unitsPerOne := by decide +kernel
  have hlow := zpow_shift (k := estimate n - 2) (by omega)
  have hhigh := zpow_shift (k := estimate n + 1) (by omega)
  have hpos : 0 < 10 ^ 330 := by positivity
  rw [hunit] at hleast hgreatest
  generalize 10 ^ 330 = shift at *
  generalize 4 * unitsPerOne = unit at *
  have hpos : (0 : ℚ) < shift := by exact_mod_cast hpos
  constructor
  · rw [← mul_le_mul_iff_left₀ hpos, mul_right_comm, hlow]
    exact_mod_cast hleast
  · rw [← mul_le_mul_iff_left₀ hpos, mul_right_comm, hhigh]
    exact_mod_cast hgreatest

theorem unitsAt_pos {p : Nat} (hp : p ≠ 0) : 0 < unitsAt p := by
  have hzero : unitsAt 0 = 0 := by decide
  exact hzero ▸ strictMono_unitsAt (Nat.pos_of_ne_zero hp)

theorem log2_unitsAt_lt {p : Nat} (hp : p < infinityPattern) (hpos : p ≠ 0) :
    (4 * unitsAt p).log2 < 2100 := by
  have hgreatest : 4 * unitsAt (infinityPattern - 1) < 2 ^ 2100 := by
    decide +kernel
  have hle : unitsAt p ≤ unitsAt (infinityPattern - 1) :=
    strictMono_unitsAt.monotone (by omega)
  have hunits := unitsAt_pos hpos
  generalize 2100 = bits at *
  exact (Nat.log2_lt (by omega)).mpr
    ((Nat.mul_le_mul_left 4 hle).trans_lt hgreatest)

/-- Whether a power of ten is at most the magnitude of a number. -/
def reaches (x : Binary64) (k : Int) : Bool :=
  if k < 0 then 4 * unitsPerOne ≤ 4 * unitsAt x.pattern * powerOfTen k.natAbs
  else 4 * unitsPerOne * powerOfTen k.natAbs ≤ 4 * unitsAt x.pattern

theorem reaches_iff {k : Int} :
    x.reaches k = true ↔ (10 : ℚ) ^ k ≤ x.magnitude := by
  have hunit := cast_unitsPerOne_pos
  rw [reaches, magnitude, units_eq, le_div_iff₀ hunit]
  split
  · next hneg =>
      have hpower := zpow_of_neg hneg
      have hten : (0 : ℚ) < powerOfTen k.natAbs := by
        exact_mod_cast powerOfTen_pos _
      have hcancel :
          (10 : ℚ) ^ k * unitsPerOne * powerOfTen k.natAbs = unitsPerOne := by
        rw [mul_right_comm, hpower, one_mul]
      rw [decide_eq_true_eq, ← mul_le_mul_iff_left₀ hten, hcancel,
        ← Nat.cast_le (α := ℚ)]
      push_cast
      constructor <;> intro h <;> linarith
  · next hnonneg =>
      rw [decide_eq_true_eq, zpow_of_nonneg (by omega), ← Nat.cast_le (α := ℚ)]
      push_cast
      constructor <;> intro h <;> linarith

/-- The estimate from the binary length of a magnitude. -/
theorem magnitude_bounds (hfinite : x.pattern < infinityPattern)
    (hx : x.pattern ≠ 0) :
    (10 : ℚ) ^ (estimate (4 * unitsAt x.pattern).log2 - 2) ≤ x.magnitude ∧
      x.magnitude < (10 : ℚ) ^ (estimate (4 * unitsAt x.pattern).log2 + 1) := by
  have hpos := unitsAt_pos hx
  have hlow : 2 ^ (4 * unitsAt x.pattern).log2 ≤ 4 * unitsAt x.pattern :=
    Nat.log2_self_le (by omega)
  have hhigh : 4 * unitsAt x.pattern < 2 ^ ((4 * unitsAt x.pattern).log2 + 1) :=
    Nat.lt_log2_self
  have hmagnitude : x.magnitude * (4 * unitsPerOne : Nat) =
      (4 * unitsAt x.pattern : Nat) := by
    push_cast
    rw [mul_left_comm, magnitude_mul_unitsPerOne]
  obtain ⟨hleast, hgreatest⟩ := estimate_bounds (log2_unitsAt_lt hfinite hx)
  have hunitpos : (0 : ℚ) < (4 * unitsPerOne : Nat) := by
    exact_mod_cast Nat.mul_pos (by decide) unitsPerOne_pos
  constructor
  · rw [← mul_le_mul_iff_left₀ hunitpos, hmagnitude]
    exact hleast.trans (by exact_mod_cast hlow)
  · rw [← mul_lt_mul_iff_left₀ hunitpos, hmagnitude]
    exact (by exact_mod_cast hhigh : _ < _).trans_le hgreatest

/-- The order is the first of the estimate and the two powers below
it that is reached. -/
theorem order_eq (hx : x.pattern ≠ 0) :
    x.roundingInterval.order =
      let k := estimate (4 * unitsAt x.pattern).log2
      if x.reaches k then k else if x.reaches (k - 1) then k - 1
        else k - 2 := by
  obtain ⟨q, hq⟩ := Nat.exists_eq_add_one_of_ne_zero hx
  have hden : (4 * unitsPerOne).log2 = 1076 := by decide +kernel
  rw [roundingInterval_eq hq, RoundingInterval.order]
  simp only [hden]
  rfl

theorem order_spec (hfinite : x.pattern < infinityPattern)
    (hx : x.pattern ≠ 0) :
    (10 : ℚ) ^ x.roundingInterval.order ≤ x.magnitude ∧
      x.magnitude < (10 : ℚ) ^ (x.roundingInterval.order + 1) := by
  obtain ⟨hleast, hgreatest⟩ := magnitude_bounds hfinite hx
  rw [order_eq hx]
  generalize estimate (4 * unitsAt x.pattern).log2 = k at *
  have hunreached {k : Int} (h : ¬ x.reaches k = true) :
      x.magnitude < (10 : ℚ) ^ k :=
    lt_of_not_ge fun hle => h (reaches_iff.mpr hle)
  dsimp only
  split
  · next h => exact ⟨reaches_iff.mp h, hgreatest⟩
  · next h =>
      split
      · next h' => exact ⟨reaches_iff.mp h', by simpa using hunreached h⟩
      · next h' =>
          have hexponent : k - 2 + 1 = k - 1 := by ring
          exact ⟨hleast, hexponent ▸ hunreached h'⟩

/-! ## The search -/

/-- Whether a number is nearest to a multiple of a power of ten. -/
def holds (x : Binary64) (k : Int) (c : Nat) : Bool :=
  if k < 0 then x.roundingInterval.contains c (powerOfTen k.natAbs)
  else x.roundingInterval.contains (c * powerOfTen k.natAbs) 1

theorem holds_iff (hx : x.pattern ≠ 0) {k : Int} {c : Nat} :
    x.holds k c = true ↔
      IsNearest x.pattern (Decimal.value ⟨c, k⟩ * unitsPerOne) := by
  rw [holds, Decimal.value]
  dsimp only
  split
  · next hneg =>
      have hpower := zpow_of_neg hneg
      have hten := powerOfTen_pos k.natAbs
      rw [contains_iff hx hten, quotientUnits_eq,
        eq_inv_of_mul_eq_one_left hpower, ← div_eq_mul_inv]
  · next hnonneg =>
      rw [contains_iff hx Nat.one_pos, quotientUnits_eq,
        zpow_of_nonneg (by omega)]
      push_cast
      rw [div_one]

/-- A magnitude in a power of ten is this many quarters of the least
number over that many. -/
def gridNum (x : Binary64) (k : Int) : Nat :=
  if k < 0 then 4 * unitsAt x.pattern * powerOfTen k.natAbs
    else 4 * unitsAt x.pattern

def gridDen (k : Int) : Nat :=
  if k < 0 then 4 * unitsPerOne else 4 * unitsPerOne * powerOfTen k.natAbs

theorem gridDen_pos (k : Int) : 0 < gridDen k := by
  have hunit := unitsPerOne_pos
  have hten := powerOfTen_pos k.natAbs
  unfold gridDen
  split
  · omega
  · exact Nat.mul_pos (by omega) hten

theorem gridNum_eq (x : Binary64) (k : Int) :
    (x.gridNum k : ℚ) * (10 : ℚ) ^ k = x.magnitude * gridDen k := by
  have hmagnitude := magnitude_mul_unitsPerOne x
  unfold gridNum gridDen
  split
  · next hneg =>
      have hpower := zpow_of_neg hneg
      push_cast
      linear_combination 4 * unitsAt x.pattern * hpower - 4 * hmagnitude
  · next hnonneg =>
      rw [zpow_of_nonneg (by omega)]
      push_cast
      linear_combination -4 * powerOfTen k.natAbs * hmagnitude

/-- The greatest multiple of a power of ten that is at most the magnitude. -/
def floorAt (x : Binary64) (k : Int) : Nat := x.gridNum k / gridDen k

theorem floorAt_spec (x : Binary64) (k : Int) :
    Decimal.value ⟨x.floorAt k, k⟩ ≤ x.magnitude ∧
      x.magnitude < Decimal.value ⟨x.floorAt k, k⟩ + (10 : ℚ) ^ k := by
  have hten : (0 : ℚ) < (10 : ℚ) ^ k := by positivity
  have hden : (0 : ℚ) < gridDen k := by exact_mod_cast gridDen_pos k
  have hgrid := gridNum_eq x k
  have hle : (x.floorAt k : ℚ) * gridDen k ≤ x.gridNum k := by
    exact_mod_cast Nat.div_mul_le_self _ _
  have hlt : (x.gridNum k : ℚ) < x.floorAt k * gridDen k + gridDen k := by
    exact_mod_cast Nat.lt_div_mul_add (gridDen_pos k)
  unfold Decimal.value
  dsimp only
  constructor
  · rw [← mul_le_mul_iff_left₀ hden, ← hgrid, mul_right_comm]
    gcongr
  · rw [← mul_lt_mul_iff_left₀ hden, ← hgrid]
    calc x.gridNum k * (10 : ℚ) ^ k
        < (x.floorAt k * gridDen k + gridDen k) * (10 : ℚ) ^ k := by gcongr
      _ = (x.floorAt k * (10 : ℚ) ^ k + (10 : ℚ) ^ k) * gridDen k := by ring

theorem nearestOnGrid_eq (tie : Tie) (hx : x.pattern ≠ 0) (k : Int) :
    x.roundingInterval.nearestOnGrid tie k =
      match x.holds k (x.floorAt k), x.holds k (x.floorAt k + 1) with
      | true, true =>
        some (if tie.choosesUpper (x.floorAt k) (x.gridNum k % gridDen k)
          (gridDen k)
          then x.floorAt k + 1 else x.floorAt k)
      | true, false => some (x.floorAt k)
      | false, true => some (x.floorAt k + 1)
      | false, false => none := by
  obtain ⟨q, hq⟩ := Nat.exists_eq_add_one_of_ne_zero hx
  have hvalue : x.roundingInterval.value = 4 * unitsAt x.pattern := by
    rw [roundingInterval_eq hq]
  have hden : x.roundingInterval.denominator = 4 * unitsPerOne := by
    rw [roundingInterval_eq hq]
  rw [RoundingInterval.nearestOnGrid, hvalue, hden]
  rfl

/-- What is found on a grid is held. -/
theorem holds_of_nearestOnGrid {tie : Tie} (hx : x.pattern ≠ 0) {k : Int}
    {c : Nat} (h : x.roundingInterval.nearestOnGrid tie k = some c) :
    x.holds k c = true := by
  rw [nearestOnGrid_eq tie hx] at h
  split at h
  · next hlower hupper =>
      obtain rfl := Option.some.inj h
      split
      · exact hupper
      · exact hlower
  · next hlower _ => exact Option.some.inj h ▸ hlower
  · next _ hupper => exact Option.some.inj h ▸ hupper
  · cases h

/-- A grid half as wide as the gap below the number has a
multiple that is held. -/
theorem nearestOnGrid_ne_none (tie : Tie) {q : Nat} (hq : x.pattern = q + 1)
    {k : Int} (hk : 2 * ((10 : ℚ) ^ k * unitsPerOne) ≤ gap q) :
    x.roundingInterval.nearestOnGrid tie k ≠ none := by
  have hx : x.pattern ≠ 0 := by omega
  have hlower : x.holds k (x.floorAt k) = true := by
    have hunit := cast_unitsPerOne_pos
    obtain ⟨hle, hlt⟩ := x.floorAt_spec k
    have hmagnitude := magnitude_mul_unitsPerOne x
    rw [holds_iff hx]
    generalize Decimal.value ⟨x.floorAt k, k⟩ = v at *
    have hle' : v * unitsPerOne ≤ unitsAt x.pattern := by
      rw [← hmagnitude]
      exact mul_le_mul_of_nonneg_right hle hunit.le
    have hlt' :
        unitsAt x.pattern < v * unitsPerOne + (10 : ℚ) ^ k * unitsPerOne := by
      rw [← hmagnitude, ← add_mul]
      exact mul_lt_mul_of_pos_right hlt hunit
    have habove : 2 * (v * unitsPerOne) < midpoint x.pattern := by
      have hgap : (0 : ℚ) < gap x.pattern := by exact_mod_cast gap_pos _
      rw [midpoint, unitsAt_succ]
      push_cast
      linarith
    have hbelow : midpoint q < 2 * (v * unitsPerOne) := by
      have hnext : (unitsAt x.pattern : ℚ) = unitsAt q + gap q := by
        rw [hq, unitsAt_succ]
        push_cast
        rfl
      rw [midpoint, ← hq]
      push_cast
      linarith
    refine isNearest_of_between habove fun r hr => ?_
    obtain rfl : r = q := by omega
    exact hbelow
  rw [nearestOnGrid_eq tie hx, hlower]
  cases x.holds k (x.floorAt k + 1) <;> simp

/-- The search stops at a grid at which there is something to be found. -/
theorem coarsest_spec (tie : Tie) (i : RoundingInterval) (fuel : Nat)
    {k k' : Int} (hle : k' ≤ k) (hfuel : k < k' + fuel)
    (hfound : i.nearestOnGrid tie k' ≠ none) :
    k' ≤ (i.coarsest tie fuel k).exponent ∧
      i.nearestOnGrid tie (i.coarsest tie fuel k).exponent =
        some (i.coarsest tie fuel k).coefficient := by
  induction fuel generalizing k with
  | zero => omega
  | succ fuel ih =>
      rw [RoundingInterval.coarsest]
      cases hhere : i.nearestOnGrid tie k with
      | some c => exact ⟨hle, hhere⟩
      | none =>
          have hne : k' ≠ k := by
            rintro rfl
            exact hfound hhere
          exact ih (by omega) (by omega)

/-! ## The decimal of a number -/

/-- A decimal that may stand for the magnitude of a number: the number is the
one nearest to it, and it is short enough for a word. -/
structure Prints (x : Binary64) (d : Decimal) : Prop where
  nearest : IsNearest x.pattern (d.value * unitsPerOne)
  coefficient_pos : 0 < d.coefficient
  coefficient_lt : d.coefficient < 10 ^ 19
  le_exponent : -324 ≤ d.exponent

theorem gap_le_two_mul (q : Nat) : gap (q + 1) ≤ 2 * gap q := by
  rw [gap_pred_eq]
  split
  · exact Nat.le_refl _
  · omega

theorem zpow_least_le : 2 * ((10 : ℚ) ^ (-324 : Int) * unitsPerOne) ≤ 1 := by
  have hle : 2 * unitsPerOne ≤ powerOfTen 324 := by decide +kernel
  have hle : (2 * unitsPerOne : ℚ) ≤ powerOfTen 324 := by exact_mod_cast hle
  have hpower : (10 : ℚ) ^ (-324 : Int) * powerOfTen 324 = 1 :=
    zpow_of_neg (by decide)
  have hpos : (0 : ℚ) < (10 : ℚ) ^ (-324 : Int) := zpow_pos (by norm_num) _
  calc 2 * ((10 : ℚ) ^ (-324 : Int) * unitsPerOne)
      = (10 : ℚ) ^ (-324 : Int) * (2 * unitsPerOne) := by ring
    _ ≤ (10 : ℚ) ^ (-324 : Int) * powerOfTen 324 :=
      mul_le_mul_of_nonneg_left hle hpos.le
    _ = 1 := hpower

/-- Seventeen places below the order of magnitude the grid is fine enough. -/
theorem grid_le_gap {q : Nat} (hq : x.pattern = q + 1) {k : Int}
    (hk : (10 : ℚ) ^ k ≤ x.magnitude) :
    2 * ((10 : ℚ) ^ (k - 17) * unitsPerOne) ≤ gap q := by
  have hunit := cast_unitsPerOne_pos
  have hmagnitude := magnitude_mul_unitsPerOne x
  rw [hq] at hmagnitude
  have hscaled := mul_le_mul_of_nonneg_right hk hunit.le
  have hexponent : k = k - 17 + 17 := by ring
  rw [hmagnitude, hexponent, zpow_add₀ (by norm_num)] at hscaled
  have hsize : unitsAt (q + 1) ≤ 4 * exponentUnit * gap q := by
    have hsize := unitsAt_add_gap_le (q + 1)
    have hgap := Nat.mul_le_mul_left (2 * exponentUnit) (gap_le_two_mul q)
    have hpos := gap_pos (q + 1)
    linarith
  have hsize : (unitsAt (q + 1) : ℚ) ≤ 4 * exponentUnit * gap q := by
    exact_mod_cast hsize
  have hgap : (0 : ℚ) < gap q := by exact_mod_cast gap_pos q
  generalize (10 : ℚ) ^ (k - 17) = e at *
  generalize (unitsPerOne : ℚ) = unit at *
  unfold exponentUnit at *
  norm_num at *
  linarith

theorem neg_le_order (hfinite : x.pattern < infinityPattern)
    (hx : x.pattern ≠ 0) :
    -324 ≤ x.roundingInterval.order := by
  have hunit := cast_unitsPerOne_pos
  have hmagnitude := magnitude_mul_unitsPerOne x
  have hleast : (1 : ℚ) ≤ unitsAt x.pattern := by exact_mod_cast unitsAt_pos hx
  have hzpow := zpow_least_le
  have hlt :
      (10 : ℚ) ^ (-324 : Int) < (10 : ℚ) ^ (x.roundingInterval.order + 1) := by
    refine lt_trans ?_ (order_spec hfinite hx).2
    rw [← mul_lt_mul_iff_left₀ hunit, hmagnitude]
    generalize (10 : ℚ) ^ (-324 : Int) * unitsPerOne = e at *
    linarith
  have := (zpow_lt_zpow_iff_right₀ (by norm_num)).mp hlt
  omega

/-- A decimal near a number other than zero is not zero. -/
theorem coefficient_pos {d : Decimal} {q : Nat} (hq : x.pattern = q + 1)
    (hnearest : IsNearest x.pattern (d.value * unitsPerOne)) :
    0 < d.coefficient := by
  by_contra hzero
  have hzero : d.coefficient = 0 := Nat.eq_zero_of_not_pos hzero
  have hbelow : (midpoint q : ℚ) ≤ 0 := by
    simpa [Decimal.value, hzero] using hnearest.below q hq.symm
  have hbelow : midpoint q ≤ 0 := by exact_mod_cast hbelow
  exact absurd (midpoint_pos q) (Nat.not_lt.mpr hbelow)

/-- The digits of a decimal near a number are as many as its grid lies below the
order of magnitude. -/
theorem coefficient_lt {d : Decimal} (hx : x.pattern ≠ 0)
    (hnearest : IsNearest x.pattern (d.value * unitsPerOne)) {k : Int}
    (hk : x.magnitude < (10 : ℚ) ^ (k + 1)) (hle : k - 17 ≤ d.exponent) :
    d.coefficient < 10 ^ 19 := by
  have hunit := cast_unitsPerOne_pos
  have hmagnitude := magnitude_mul_unitsPerOne x
  have hmid : midpoint x.pattern ≤ 4 * unitsAt x.pattern := by
    obtain ⟨m, -, -, -, hunits⟩ := exists_significand x.pattern
    have hpos := unitsAt_pos hx
    have hgap : 1 * gap x.pattern ≤ m * gap x.pattern :=
      Nat.mul_le_mul_right _ (Nat.pos_of_mul_pos_right (hunits ▸ hpos))
    rw [midpoint, unitsAt_succ]
    omega
  have hvalue : d.value ≤ 2 * x.magnitude := by
    have habove := hnearest.above
    have hmid : (midpoint x.pattern : ℚ) ≤ 4 * unitsAt x.pattern := by
      exact_mod_cast hmid
    rw [← mul_le_mul_iff_left₀ hunit, mul_assoc, hmagnitude]
    linarith
  have hpos : (0 : ℚ) < (10 : ℚ) ^ (k - 17) := zpow_pos (by norm_num) _
  have hgrid : (10 : ℚ) ^ (k - 17) ≤ (10 : ℚ) ^ d.exponent :=
    zpow_le_zpow_right₀ (by norm_num) hle
  have hexponent : k + 1 = 18 + (k - 17) := by ring
  have hlt : (d.coefficient : ℚ) * (10 : ℚ) ^ (k - 17) <
      10 ^ 19 * (10 : ℚ) ^ (k - 17) := by
    calc (d.coefficient : ℚ) * (10 : ℚ) ^ (k - 17) ≤ d.value := by
          exact mul_le_mul_of_nonneg_left hgrid (Nat.cast_nonneg _)
      _ ≤ 2 * x.magnitude := hvalue
      _ < 2 * (10 : ℚ) ^ (k + 1) := mul_lt_mul_of_pos_left hk two_pos
      _ = 2 * 10 ^ 18 * (10 : ℚ) ^ (k - 17) := by
          rw [hexponent, zpow_add₀ (by norm_num)]
          norm_num
          ring
      _ ≤ 10 ^ 19 * (10 : ℚ) ^ (k - 17) :=
          mul_le_mul_of_nonneg_right (by norm_num) hpos.le
  exact_mod_cast lt_of_mul_lt_mul_right hlt hpos.le

theorem prints_shortest (tie : Tie) (hfinite : x.pattern < infinityPattern)
    (hx : x.pattern ≠ 0) : Prints x (x.shortest tie) := by
  obtain ⟨q, hq⟩ := Nat.exists_eq_add_one_of_ne_zero hx
  obtain ⟨hleast, hgreatest⟩ := order_spec hfinite hx
  have horder := neg_le_order hfinite hx
  have hsignificand : x.significand ≠ 0 := by
    have hunits := unitsAt_pos hx
    rw [unitsAt, ← significand_eq] at hunits
    exact (Nat.pos_of_mul_pos_right hunits).ne'
  rw [shortest, if_neg hsignificand]
  dsimp only
  generalize x.roundingInterval.order = k at *
  -- the grid at which something is found for certain
  have hfound :
      x.roundingInterval.nearestOnGrid tie (max (k - 17) (-324)) ≠ none := by
    apply nearestOnGrid_ne_none tie hq
    rcases max_choice (k - 17) (-324) with hmax | hmax
    · rw [hmax]
      exact grid_le_gap hq hleast
    · rw [hmax]
      exact zpow_least_le.trans (by exact_mod_cast gap_pos q)
  obtain ⟨hexponent, hgrid⟩ := coarsest_spec tie x.roundingInterval 18
    (by omega : max (k - 17) (-324) ≤ k) (by omega) hfound
  generalize x.roundingInterval.coarsest tie 18 k = d at *
  have hnearest : IsNearest x.pattern (d.value * unitsPerOne) :=
    (holds_iff hx).mp (holds_of_nearestOnGrid hx hgrid)
  have hpos := coefficient_pos hq hnearest
  obtain ⟨hvalue, hup⟩ := Decimal.normalize_spec hpos
  rw [← hvalue] at hnearest
  have hbound : k - 17 ≤ d.normalize.exponent := by omega
  exact ⟨hnearest, coefficient_pos hq hnearest,
    coefficient_lt hx hnearest hgreatest hbound,
    by omega⟩

end Binary64

end Telemetry
