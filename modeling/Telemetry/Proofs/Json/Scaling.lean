import Telemetry.Json.Number
import Telemetry.Proofs.Binary64.Shortest

/-!
# How well the digits of a document are read

The word of the digits is rounded, and so is the power of ten, before their
product or quotient is rounded a last time; below the least power of ten there
is one more rounding.  What is read lies at most three patterns from the nearest
number, and it is the nearest number when both the word and the power are exact.
-/

namespace Telemetry.Json

open Binary64

/-! ## Powers of ten -/

theorem powerOfTen_eq {k : Nat} (hk : k ≤ greatestPower) :
    powerOfTen k = .ofNat (10 ^ k) := by
  have hlength : (Decimal.digits 1).length = 1 := by decide
  have horder : ¬ (1 + (k : Int) > overflowOrder) := by
    unfold overflowOrder greatestPower at *
    omega
  have horder' : ¬ (1 + (k : Int) < underflowOrder) := by
    unfold underflowOrder
    omega
  have hnonneg : ¬ (k : Int) < 0 := by omega
  rw [powerOfTen, ofDecimal]
  simp only [hlength, Nat.cast_one, one_ne_zero, if_false, if_neg horder,
    if_neg horder', if_neg hnonneg, Int.natAbs_natCast, Nat.one_mul]
  rfl

theorem within_powerOfTen {k : Nat} (hk : k ≤ greatestPower) :
    Within 1 (powerOfTen k).magnitude (10 ^ k) := by
  rw [powerOfTen_eq hk]
  rw [← powerOfTen_eq_pow]
  have hwithin := within_ofNat (powerOfTen_pos k) (powerOfTen_le_powerOfTen hk)
  rwa [powerOfTen_eq_pow, Nat.cast_pow] at hwithin

/-- Powers of ten of 53 bits but for factors of two are exact. -/
theorem magnitude_powerOfTen {k : Nat} (hk : k ≤ 22) :
    (powerOfTen k).magnitude = 10 ^ k := by
  have hlt : 5 ^ k < 2 * exponentUnit :=
    (Nat.pow_le_pow_right (by decide) hk).trans_lt (by decide)
  have hten : 10 ^ k = 5 ^ k * 2 ^ k := by rw [← Nat.mul_pow]
  have hexact := magnitude_ofNat hlt (by omega : k ≤ 900)
  rw [powerOfTen_eq (by unfold greatestPower; omega), hten, hexact,
    Nat.cast_pow, ← mul_pow]
  norm_num

theorem isNegative_ofNat (n : Nat) : (Binary64.ofNat n).isNegative = false :=
  isNegative_ofRatio false n 1

theorem isNegative_powerOfTen {k : Nat} (hk : k ≤ greatestPower) :
    (powerOfTen k).isNegative = false := by
  rw [powerOfTen_eq hk]
  exact isNegative_ofNat _

/-! ## Words and powers -/

variable {c p : Nat} {e : Int}

theorem within_word (hpos : 0 < c) (hlt : c < 10 ^ 19) :
    Within 1 (Binary64.ofNat c).magnitude c :=
  within_ofNat hpos
    (hlt.le.trans (powerOfTen_le_powerOfTen (by decide : 19 ≤ 308)))

/-- The value of a decimal as a product, or as one or two quotients. -/
theorem value_of_nonneg (h : 0 ≤ e) :
    Decimal.value ⟨c, e⟩ = c * 10 ^ e.natAbs := by
  obtain ⟨k, rfl⟩ := Int.eq_ofNat_of_zero_le h
  rw [Decimal.value, Int.natAbs_natCast, zpow_natCast]

theorem value_of_neg (h : e < 0) :
    Decimal.value ⟨c, e⟩ = c / 10 ^ e.natAbs := by
  obtain ⟨k, rfl⟩ : ∃ k : Nat, e = -k := ⟨e.natAbs, by omega⟩
  rw [Decimal.value, Int.natAbs_neg, Int.natAbs_natCast, zpow_neg, zpow_natCast,
    div_eq_mul_inv]

/-- A decimal that is nearest to a finite number has no greater power of ten. -/
theorem exponent_le (hpos : 0 < c) (hp : p < infinityPattern)
    (hnear : IsNearest p (Decimal.value ⟨c, e⟩ * unitsPerOne)) :
    e ≤ greatestPower := by
  by_contra hgreat
  have hunit := cast_unitsPerOne_pos
  have hmid : Binary64.midpoint p < 2 * unitsAt infinityPattern := by
    have hlt := strictMono_unitsAt (Nat.lt_add_one p)
    have hle : unitsAt (p + 1) ≤ unitsAt infinityPattern :=
      strictMono_unitsAt.monotone hp
    rw [Binary64.midpoint]
    omega
  have hmid : (Binary64.midpoint p : ℚ) < 2 * unitsAt infinityPattern := by
    exact_mod_cast hmid
  have hbound :
      (unitsAt infinityPattern : ℚ) ≤ (Binary64.powerOfTen 309 : Nat) *
      unitsPerOne := by
    exact_mod_cast powerOfTen_bounds.2
  have hpower :
      ((Binary64.powerOfTen 309 : Nat) : ℚ) ≤ Decimal.value ⟨c, e⟩ := by
    have hone : (1 : ℚ) ≤ c := by exact_mod_cast hpos
    have hle : Binary64.powerOfTen 309 ≤ Binary64.powerOfTen e.natAbs :=
      powerOfTen_le_powerOfTen (by unfold greatestPower at hgreat; omega)
    have hle : ((Binary64.powerOfTen 309 : Nat) : ℚ) ≤
        (Binary64.powerOfTen e.natAbs : Nat) := by
      exact_mod_cast hle
    rw [value_of_nonneg (by omega), ← Nat.cast_ofNat (R := ℚ), ← Nat.cast_pow,
      ← powerOfTen_eq_pow]
    exact hle.trans (le_mul_of_one_le_left (Nat.cast_nonneg _) hone)
  have hscaled := mul_le_mul_of_nonneg_right hpower hunit.le
  have habove := hnear.above
  linarith

/-- The greatest power of ten beside a word, the least normal number and
the greatest one. -/
theorem greatestPower_bounds : (2 * 10 ^ 19 : ℚ) ≤ 10 ^ greatestPower ∧
    5 * exponentUnit * (10 : ℚ) ^ greatestPower ≤ 12 * unitsPerOne ∧
    (10 : ℚ) ^ greatestPower * unitsPerOne ≤ unitsAt (infinityPattern - 1) := by
  have hpower : (10 : ℚ) ^ greatestPower = (Binary64.powerOfTen 308 : Nat) := by
    rw [powerOfTen_eq_pow, Nat.cast_pow]
    rfl
  have hgreat : 2 * 10 ^ 19 ≤ Binary64.powerOfTen 308 := by decide +kernel
  have hleast : 5 * exponentUnit * Binary64.powerOfTen 308 ≤
      12 * unitsPerOne := by decide +kernel
  rw [hpower]
  refine ⟨?_, ?_, ?_⟩
  · exact_mod_cast hgreat
  · exact_mod_cast hleast
  · exact_mod_cast powerOfTen_bounds.1

/-- The first quotient is neither below the normal range nor
above the finite one. -/
theorem first_quotient_bounds (hthree : 3 ≤ c) (hlt : c < 10 ^ 19) {r : ℚ}
    (hr : Within 2 r (c / 10 ^ greatestPower)) :
    exponentUnit ≤ r * unitsPerOne ∧
      r * unitsPerOne ≤ unitsAt (infinityPattern - 1) := by
  have hpos : 0 < r :=
    hr.pos (div_pos (by exact_mod_cast (by omega : 0 < c)) (by positivity))
  have hsmall : growth ^ 2 ≤ 5 / 4 := by
    unfold growth exponentUnit
    norm_num
  have hunit := cast_unitsPerOne_pos
  have hthree : (3 : ℚ) ≤ c := by exact_mod_cast hthree
  have hlt : (c : ℚ) < 10 ^ 19 := by exact_mod_cast hlt
  obtain ⟨hgreat, hleast, hgreatest⟩ := greatestPower_bounds
  obtain ⟨hle, hge⟩ := hr
  generalize (10 : ℚ) ^ greatestPower = t at *
  generalize (unitsPerOne : ℚ) = unit at *
  generalize growth ^ 2 = g at *
  have ht : 0 < t := by linarith
  have hunits : (0 : ℚ) < exponentUnit := by
    unfold exponentUnit
    norm_num
  have hlow : 12 ≤ 5 * (r * t) := by
    have hc : (c : ℚ) ≤ r * g * t := (div_le_iff₀ ht).mp hge
    have hg : r * g * t ≤ r * (5 / 4) * t := by gcongr
    linarith
  have hhigh : r * t ≤ t := by
    have hc : r * t ≤ c * g := by
      calc r * t ≤ c / t * g * t := by gcongr
        _ = c * g := by field_simp
    have hg : c * g ≤ c * (5 / 4) := by gcongr
    linarith
  constructor
  · have hstep := mul_le_mul_of_nonneg_left hleast hpos.le
    have hstep' := mul_le_mul_of_nonneg_left hlow hunits.le
    linarith
  · have hone : r ≤ 1 := by
      by_contra hlarge
      have := mul_lt_mul_of_pos_right (lt_of_not_ge hlarge) ht
      linarith
    calc r * unit ≤ t * unit := by
          gcongr
          linarith
      _ ≤ unitsAt (infinityPattern - 1) := hgreatest

/-- A decimal below the least power of ten, but not among the smallest, is read
by two quotients of which the first is in the normal range. -/
theorem within_first_quotient (hthree : 3 ≤ c) (hlt : c < 10 ^ 19) :
    Within 3 ((Binary64.ofNat c).div (powerOfTen greatestPower)).magnitude
      (c / 10 ^ greatestPower) := by
  have hten : (0 : ℚ) < 10 ^ greatestPower := by positivity
  have hcpos : (0 : ℚ) < c := by exact_mod_cast (by omega : 0 < c)
  have hword := within_word (by omega : 0 < c) hlt
  have hpower := within_powerOfTen (Nat.le_refl greatestPower)
  have hratio := hword.div hpower hcpos hten
  rw [← quotient_eq] at hratio
  have hbounds := first_quotient_bounds hthree hlt hratio
  rw [← quotientUnits_eq] at hbounds
  exact (within_ofRatio _ (units_pos (hword.pos hcpos))
    (units_pos (hpower.pos hten)) hbounds.1
    (nearestPattern_lt_infinity (units_pos (hpower.pos hten)) hbounds.2)).trans
    hratio

/-- The smallest decimals are read as well as the others, although their first
quotient is below the normal range. -/
theorem scaled_smallest : ∀ c ∈ [1, 2], ∀ j < 16,
    (scaled? c (-(309 + j : Nat))).any fun y =>
      !y.isNegative &&
        y.pattern ≤ nearestPattern c (Binary64.powerOfTen (309 + j)) + 3 &&
        nearestPattern c (Binary64.powerOfTen (309 + j)) ≤ y.pattern + 3 := by
  decide +kernel

theorem isNegative_mul_powerOfTen (c : Nat) {k : Nat} (hk : k ≤ greatestPower) :
    ((Binary64.ofNat c).mul (powerOfTen k)).isNegative = false := by
  rw [mul, isNegative_ofRatio, isNegative_ofNat, isNegative_powerOfTen hk]
  rfl

theorem isNegative_div_powerOfTen {x : Binary64} (hx : x.isNegative = false)
    {k : Nat} (hk : k ≤ greatestPower) :
    (x.div (powerOfTen k)).isNegative = false := by
  rw [div, isNegative_ofRatio, hx, isNegative_powerOfTen hk]
  rfl

theorem scaled_of_small (hpos : 0 < c) {j : Nat} (hj : j < 16) :
    scaled? c (-(309 + j : Nat)) =
      some (((Binary64.ofNat c).div (powerOfTen greatestPower)).div
        (powerOfTen (1 + j))) := by
  have hfar : ¬ (-(309 + j : Nat) : Int).natAbs ≤ greatestPower := by
    unfold greatestPower
    omega
  have hneg : ¬ 0 ≤ (-(309 + j : Nat) : Int) := by omega
  have hrest :
      (-(309 + j : Nat) + (greatestPower : Nat) : Int).natAbs = 1 + j := by
    unfold greatestPower
    omega
  have hrange : 1 + j ≤ greatestPower := by
    unfold greatestPower
    omega
  simp only [scaled?, hfar, hneg, hrest, hrange, hpos.ne', decide_false,
    decide_true, if_false, if_true, Bool.false_eq_true]

theorem scaled_near_of_small (hpos : 0 < c) (hlt : c < 10 ^ 19) {j : Nat}
    (hj : j < 16)
    (hnear : IsNearest p (Decimal.value ⟨c, -(309 + j : Nat)⟩ * unitsPerOne))
    (hp : p + 3 < infinityPattern) :
    ∃ y, scaled? c (-(309 + j : Nat)) = some y ∧ y.isNegative = false ∧
      y.pattern ≤ p + 3 ∧
      p ≤ y.pattern + 3 := by
  have hrange : 1 + j ≤ greatestPower := by
    unfold greatestPower
    omega
  have habs : (-(309 + j : Nat) : Int).natAbs = greatestPower + (1 + j) := by
    unfold greatestPower
    omega
  rw [value_of_neg (by omega), habs] at hnear
  by_cases hthree : 3 ≤ c
  · have hexact : Within 0 (powerOfTen (1 + j)).magnitude (10 ^ (1 + j)) := by
      rw [magnitude_powerOfTen (by omega)]
      exact Within.refl _
    have hcpos : (0 : ℚ) < c / 10 ^ greatestPower :=
      div_pos (by exact_mod_cast hpos) (by positivity)
    rw [pow_add, ← div_div] at hnear
    obtain ⟨habove, hbelow⟩ := div_near (within_first_quotient hthree hlt)
      hexact (by decide) hcpos (by positivity) hnear (by omega)
    refine ⟨_, scaled_of_small hpos hj, ?_, by omega, by omega⟩
    exact isNegative_div_powerOfTen
      (isNegative_div_powerOfTen (isNegative_ofNat c) (Nat.le_refl _)) hrange
  · have hmem : c ∈ [1, 2] := by
      simp only [List.mem_cons, List.not_mem_nil, or_false]
      omega
    have hquotient : quotientUnits c (Binary64.powerOfTen (309 + j)) =
        c / 10 ^ (greatestPower + (1 + j)) * unitsPerOne := by
      have hpower : 309 + j = greatestPower + (1 + j) := by
        unfold greatestPower
        omega
      rw [quotientUnits_eq, powerOfTen_eq_pow, hpower, Nat.cast_pow,
        Nat.cast_ofNat]
    rw [← hquotient] at hnear
    have hpattern := hnear.nearestPattern_eq (powerOfTen_pos _) (by omega)
    have hsmall := scaled_smallest c hmem j hj
    rw [hpattern, scaled_of_small hpos hj] at hsmall
    simp only [Option.any_some, Bool.and_eq_true, Bool.not_eq_true',
      decide_eq_true_eq] at hsmall
    exact ⟨_, scaled_of_small hpos hj, hsmall.1.1, hsmall.1.2, hsmall.2⟩

/-- What is read of a decimal lies at most three patterns from
the nearest number. -/
theorem scaled_near (hpos : 0 < c) (hlt : c < 10 ^ 19) (hle : -324 ≤ e)
    (hnear : IsNearest p (Decimal.value ⟨c, e⟩ * unitsPerOne))
    (hp : p + 3 < infinityPattern) :
    ∃ y, scaled? c e = some y ∧ y.isNegative = false ∧ y.pattern ≤ p + 3 ∧
      p ≤ y.pattern + 3 := by
  have hgreatest := exponent_le hpos (by omega) hnear
  have hword := within_word hpos hlt
  have hwordpos : (0 : ℚ) < c := by exact_mod_cast hpos
  have hten (k : Nat) : (0 : ℚ) < 10 ^ k := by positivity
  by_cases hrange : e.natAbs ≤ greatestPower
  · have hpower := within_powerOfTen hrange
    by_cases hnonneg : 0 ≤ e
    · rw [value_of_nonneg hnonneg] at hnear
      obtain ⟨habove, hbelow⟩ :=
        mul_near hword hpower (by decide) hwordpos (hten _) hnear (by omega)
      have hfinite :
          ((Binary64.ofNat c).mul (powerOfTen e.natAbs)).isFinite = true :=
        isFinite_iff.mpr (by omega)
      refine ⟨_, ?_, isNegative_mul_powerOfTen c hrange, by omega, by omega⟩
      simp [scaled?, hrange, hnonneg, hfinite]
    · rw [value_of_neg (by omega)] at hnear
      obtain ⟨habove, hbelow⟩ :=
        div_near hword hpower (by decide) hwordpos (hten _) hnear (by omega)
      refine ⟨_, ?_, isNegative_div_powerOfTen (isNegative_ofNat c) hrange, by
        omega, by omega⟩
      simp [scaled?, hrange, hnonneg]
  · obtain ⟨j, hj, rfl⟩ : ∃ j : Nat, j < 16 ∧ e = -(309 + j : Nat) := by
      unfold greatestPower at *
      exact ⟨(-e - 309).toNat, by omega, by omega⟩
    exact scaled_near_of_small hpos hlt hj hnear hp

/-- A word of 53 bits and a power of ten that is exact are read as
the nearest number. -/
theorem scaled_eq (hlt : c < 2 * exponentUnit) (he : e.natAbs ≤ 22)
    (hnear : IsNearest p (Decimal.value ⟨c, e⟩ * unitsPerOne))
    (hp : p < infinityPattern) :
    scaled? c e = some (ofPattern false p) := by
  have hrange : e.natAbs ≤ greatestPower := by
    unfold greatestPower
    omega
  have hword : (Binary64.ofNat c).magnitude = c := by
    have := magnitude_ofNat hlt (Nat.zero_le 900)
    simpa using this
  have hpower := magnitude_powerOfTen he
  have hbits : p < signBit := hp.trans (by decide)
  by_cases hnonneg : 0 ≤ e
  · have hpattern :
        ((Binary64.ofNat c).mul (powerOfTen e.natAbs)).pattern = p := by
      apply pattern_mul_eq _ hp
      rwa [hword, hpower, ← value_of_nonneg hnonneg]
    have hfinite :
        ((Binary64.ofNat c).mul (powerOfTen e.natAbs)).isFinite = true :=
      isFinite_iff.mpr (hpattern ▸ hp)
    have hproduct :
        (Binary64.ofNat c).mul (powerOfTen e.natAbs) = ofPattern false p :=
      ofPattern_inj
        ((isNegative_mul_powerOfTen c hrange).trans
          (isNegative_ofPattern _ hbits).symm)
        (hpattern.trans (pattern_ofPattern _ hbits).symm)
    rw [hproduct] at hfinite
    simp [scaled?, hrange, hnonneg, hproduct, hfinite]
  · have hpattern :
        ((Binary64.ofNat c).div (powerOfTen e.natAbs)).pattern = p := by
      apply pattern_div_eq (hpower ▸ by positivity) _ hp
      rwa [hword, hpower, ← value_of_neg (by omega)]
    have hquotient :
        (Binary64.ofNat c).div (powerOfTen e.natAbs) = ofPattern false p :=
      ofPattern_inj
        (by rw [isNegative_div_powerOfTen (isNegative_ofNat c) hrange,
          isNegative_ofPattern _ hbits])
        (by rw [hpattern, pattern_ofPattern _ hbits])
    simp [scaled?, hrange, hnonneg, hquotient]

end Telemetry.Json
