import Telemetry.Binary64.Decimal
import Telemetry.Proofs.Binary64.Rounding
import Mathlib.Algebra.Order.Field.Power

/-!
# Products, quotients and powers of ten

The magnitude of a number is a rational number.  Products and quotients round
the rational ones once, and a decimal is rounded to the number that is nearest
to its value.
-/

namespace Telemetry

/-- The value of a decimal. -/
def Decimal.value (d : Decimal) : ℚ := d.coefficient * (10 : ℚ) ^ d.exponent

namespace Binary64

def magnitude (x : Binary64) : ℚ := x.units / unitsPerOne

theorem magnitude_mul_unitsPerOne (x : Binary64) :
    x.magnitude * unitsPerOne = unitsAt x.pattern := by
  have hpos := cast_unitsPerOne_pos.ne'
  rw [magnitude, units_eq, div_mul_cancel₀ _ hpos]

@[simp] theorem pattern_ofRatio (negative : Bool) (num den : Nat) :
    (ofRatio negative num den).pattern = nearestPattern num den :=
  pattern_ofPattern negative (nearestPattern_lt num den)

@[simp] theorem isNegative_ofRatio (negative : Bool) (num den : Nat) :
    (ofRatio negative num den).isNegative = negative :=
  isNegative_ofPattern negative (nearestPattern_lt num den)

/-! ## The greatest number -/

theorem nearestPattern_lt_infinity {num den : Nat} (hden : 0 < den)
    (h : quotientUnits num den ≤ unitsAt (infinityPattern - 1)) :
    nearestPattern num den < infinityPattern := by
  have hmid : 2 * (unitsAt (infinityPattern - 1) : ℚ) < midpoint
      (infinityPattern - 1) := by
    have hlt := strictMono_unitsAt (Nat.lt_add_one (infinityPattern - 1))
    exact_mod_cast (by unfold midpoint; omega :
      2 * unitsAt (infinityPattern - 1) < midpoint (infinityPattern - 1))
  have hle := nearestPattern_le (p := infinityPattern - 1) hden (by linarith)
    fun heq => by linarith
  unfold infinityPattern exponentUnit at *
  omega

theorem powerOfTen_eq_pow (n : Nat) : powerOfTen n = 10 ^ n := Nat.pow_eq

theorem powerOfTen_le_powerOfTen {m n : Nat} (h : m ≤ n) :
    powerOfTen m ≤ powerOfTen n :=
  Nat.pow_le_pow_right (by decide) h

theorem powerOfTen_pos (n : Nat) : 0 < powerOfTen n := Nat.pow_pos (by decide)

/-- The greatest power of ten is not too great, and the next one is. -/
theorem powerOfTen_bounds :
    powerOfTen 308 * unitsPerOne ≤ unitsAt (infinityPattern - 1) ∧
    unitsAt infinityPattern ≤ powerOfTen 309 * unitsPerOne := by
  decide +kernel

/-! ## Ratios -/

theorem quotientUnits_eq (num den : Nat) :
    quotientUnits num den = (num / den : ℚ) * unitsPerOne := by
  rw [quotientUnits, div_mul_eq_mul_div]

theorem magnitude_ofRatio_mul (negative : Bool) (num den : Nat) :
    (ofRatio negative num den).magnitude * unitsPerOne =
      unitsAt (nearestPattern num den) := by
  rw [magnitude_mul_unitsPerOne, pattern_ofRatio]

/-- A ratio in the normal range is rounded once. -/
theorem within_ofRatio (negative : Bool) {num den : Nat} (hnum : 0 < num)
    (hden : 0 < den) (hnormal : exponentUnit ≤ quotientUnits num den)
    (hfinite : nearestPattern num den < infinityPattern) :
    Within 1 (ofRatio negative num den).magnitude (num / den) := by
  have hunit := cast_unitsPerOne_pos
  rw [← Within.scale_iff hunit, magnitude_ofRatio_mul, ← quotientUnits_eq]
  exact within_nearestPattern hnum hden hnormal hfinite

/-- A ratio that is a number is not rounded. -/
theorem magnitude_ofRatio (negative : Bool) {num den p : Nat} (hden : 0 < den)
    (hfinite : p < infinityPattern)
    (hexact : quotientUnits num den = unitsAt p) :
    (ofRatio negative num den).magnitude = num / den := by
  have hpattern : nearestPattern num den = p := by
    apply IsNearest.nearestPattern_eq _ hden hfinite
    rw [hexact]
    exact isNearest_unitsAt p
  have hunit := cast_unitsPerOne_pos.ne'
  rw [← mul_left_inj' hunit, magnitude_ofRatio_mul, ← quotientUnits_eq,
    hpattern, hexact]

/-! ## Whole numbers -/

theorem within_ofNat {n : Nat} (hpos : 0 < n) (hle : n ≤ powerOfTen 308) :
    Within 1 (ofNat n).magnitude n := by
  have hquotient : quotientUnits n 1 = (n * unitsPerOne : Nat) := by
    simp [quotientUnits]
  have hfinite : nearestPattern n 1 < infinityPattern := by
    apply nearestPattern_lt_infinity Nat.one_pos
    rw [hquotient]
    exact_mod_cast (Nat.mul_le_mul_right _ hle).trans powerOfTen_bounds.1
  have hnormal : exponentUnit ≤ quotientUnits n 1 := by
    have hunit : exponentUnit ≤ unitsPerOne := by decide +kernel
    rw [hquotient]
    exact_mod_cast hunit.trans (Nat.le_mul_of_pos_left _ hpos)
  simpa [ofNat] using within_ofRatio false hpos Nat.one_pos hnormal hfinite

/-- Whole numbers of 53 bits and their multiples by a power of
two are not rounded. -/
theorem magnitude_ofNat {n j : Nat} (hlt : n < 2 * exponentUnit)
    (hj : j ≤ 900) :
    (ofNat (n * 2 ^ j)).magnitude = n * 2 ^ j := by
  have hquotient :
      quotientUnits (n * 2 ^ j) 1 = (n * 2 ^ j * unitsPerOne : Nat) := by
    simp [quotientUnits]
  obtain ⟨p, hfinite, hunits⟩ : ∃ p, p < infinityPattern ∧
      unitsAt p = n * 2 ^ j * unitsPerOne := by
    rcases Nat.eq_zero_or_pos n with rfl | hpos
    · exact ⟨0, by decide, by simp [unitsAt]⟩
    · exact exists_unitsAt_eq hpos hlt hj
  rw [← hunits] at hquotient
  simpa [ofNat] using magnitude_ofRatio false Nat.one_pos hfinite hquotient

/-! ## Products and quotients -/

variable {x y : Binary64}

theorem units_pos (h : 0 < x.magnitude) : 0 < x.units := by
  rw [magnitude] at h
  by_contra hzero
  simp [Nat.eq_zero_of_not_pos hzero] at h

theorem product_eq (x y : Binary64) :
    ((x.units * y.units : Nat) / (unitsPerOne * unitsPerOne : Nat) : ℚ) =
      x.magnitude * y.magnitude := by
  rw [magnitude, magnitude]
  push_cast
  rw [div_mul_div_comm]

theorem quotient_eq (x y : Binary64) :
    (x.units / y.units : ℚ) = x.magnitude / y.magnitude := by
  have hunit := cast_unitsPerOne_pos.ne'
  rw [magnitude, magnitude, div_div_div_cancel_right₀ hunit]

theorem pattern_mul_eq {p : Nat}
    (hp : IsNearest p (x.magnitude * y.magnitude * unitsPerOne))
    (hfinite : p < infinityPattern) : (x.mul y).pattern = p := by
  rw [mul, pattern_ofRatio]
  refine IsNearest.nearestPattern_eq ?_
    (Nat.mul_pos unitsPerOne_pos unitsPerOne_pos) hfinite
  rwa [quotientUnits_eq, product_eq]

theorem pattern_div_eq {p : Nat} (hy : 0 < y.magnitude)
    (hp : IsNearest p (x.magnitude / y.magnitude * unitsPerOne))
    (hfinite : p < infinityPattern) :
    (x.div y).pattern = p := by
  rw [div, pattern_ofRatio]
  refine IsNearest.nearestPattern_eq ?_ (units_pos hy) hfinite
  rwa [quotientUnits_eq, quotient_eq]

/-- A product of numbers near two factors lies near the number nearest
to their product. -/
theorem mul_near {s t : ℚ} {k l p : Nat} (hx : Within k x.magnitude s)
    (hy : Within l y.magnitude t) (hkl : 0 < k + l) (hs : 0 < s) (ht : 0 < t)
    (hp : IsNearest p (s * t * unitsPerOne))
    (hfinite : p + (k + l) < infinityPattern) :
    (x.mul y).pattern ≤ p + (k + l) ∧ p ≤ (x.mul y).pattern + (k + l) := by
  have hunit := cast_unitsPerOne_pos
  rw [mul, pattern_ofRatio]
  refine hp.nearestPattern_near ?_ hkl
    (Nat.mul_pos unitsPerOne_pos unitsPerOne_pos) hfinite
  rw [quotientUnits_eq, product_eq, Within.scale_iff hunit]
  exact hx.mul hy hs ht

/-- A quotient of numbers near two others lies near the number nearest
to their quotient. -/
theorem div_near {s t : ℚ} {k l p : Nat} (hx : Within k x.magnitude s)
    (hy : Within l y.magnitude t) (hkl : 0 < k + l) (hs : 0 < s) (ht : 0 < t)
    (hp : IsNearest p (s / t * unitsPerOne))
    (hfinite : p + (k + l) < infinityPattern) :
    (x.div y).pattern ≤ p + (k + l) ∧ p ≤ (x.div y).pattern + (k + l) := by
  have hunit := cast_unitsPerOne_pos
  rw [div, pattern_ofRatio]
  refine hp.nearestPattern_near ?_ hkl (units_pos (hy.pos ht)) hfinite
  rw [quotientUnits_eq, quotient_eq, Within.scale_iff hunit]
  exact hx.div hy hs ht

end Binary64

end Telemetry
