import Telemetry.Proofs.Binary64.Pattern
import Mathlib.Algebra.Order.Field.Rat
import Mathlib.Tactic.FieldSimp
import Mathlib.Tactic.LinearCombination
import Mathlib.Tactic.NormNum
import Mathlib.Tactic.Positivity

/-!
# Rounding to the nearest binary64 number

What a quotient is rounded to is decided by the midpoints between neighbours, a
midpoint itself going to the even pattern.  A quotient in the normal range keeps
its size up to one part in `2 ^ 53`, and that is less than the way from one
midpoint to the next, so what a few roundings change is a few patterns.
-/

namespace Telemetry.Binary64

theorem cast_unitsPerOne_pos :
    (0 : ℚ) < unitsPerOne := by exact_mod_cast unitsPerOne_pos

theorem nearestPattern_lt (num den : Nat) :
    nearestPattern num den < signBit := by
  have hle : nearestPattern num den ≤ infinityPattern := by
    unfold nearestPattern
    dsimp only
    split
    · exact Nat.zero_le _
    · exact Nat.min_le_left _ _
  exact Nat.lt_of_le_of_lt hle (by decide)

/-! ## Rounding a quotient -/

theorem roundDiv_spec (num : Nat) {den : Nat} (hden : 0 < den) :
    2 * num ≤ (2 * roundDiv num den + 1) * den ∧
      2 * roundDiv num den * den ≤ 2 * num + den ∧
      (2 * num = (2 * roundDiv num den + 1) * den ∨
        2 * roundDiv num den * den = 2 * num + den →
          roundDiv num den % 2 = 0) := by
  have hnum := Nat.div_add_mod' num den
  have hrest := Nat.mod_lt num hden
  unfold roundDiv
  dsimp only
  generalize num / den = q at *
  generalize num % den = r at *
  subst hnum
  simp only [Bool.or_eq_true, decide_eq_true_eq, Bool.and_eq_true, beq_iff_eq]
  have hlow : 2 * q * den = 2 * (q * den) := by ring
  have hhalf : (2 * q + 1) * den = 2 * (q * den) + den := by ring
  have hup : 2 * (q + 1) * den = 2 * (q * den) + 2 * den := by ring
  have htop : (2 * (q + 1) + 1) * den = 2 * (q * den) + 3 * den := by ring
  split <;> simp only [hlow, hhalf, hup, htop] <;> omega

/-- The quotient of two numbers has as many bits as their lengths
differ, or one more. -/
theorem quotient_bounds {num den : Nat} (hnum : 0 < num) (hden : 0 < den)
    (lift : Nat) :
    (num.log2 + 1074 ≤ den.log2 + 53 + lift →
      num * unitsPerOne < 4 * exponentUnit * (den * 2 ^ lift)) ∧
    (den.log2 + 53 + lift ≤ num.log2 + 1074 →
      exponentUnit * (den * 2 ^ lift) ≤ num * unitsPerOne) := by
  have hunit : exponentUnit = 2 ^ 52 := by decide
  have hnumLow : 2 ^ num.log2 ≤ num := Nat.log2_self_le hnum.ne'
  have hnumHigh : num < 2 ^ (num.log2 + 1) := Nat.lt_log2_self
  have hdenLow : 2 ^ den.log2 ≤ den := Nat.log2_self_le hden.ne'
  have hdenHigh : den < 2 ^ (den.log2 + 1) := Nat.lt_log2_self
  rw [unitsPerOne_eq, hunit]
  generalize 1074 = bits
  constructor
  · intro h
    calc
      num * 2 ^ bits < 2 ^ (num.log2 + 1) * 2 ^ bits :=
        Nat.mul_lt_mul_of_pos_right hnumHigh (Nat.two_pow_pos _)
      _ = 2 ^ (num.log2 + 1 + bits) := by rw [← Nat.pow_add]
      _ ≤ 2 ^ (54 + (den.log2 + lift)) :=
        Nat.pow_le_pow_right (by decide) (by omega)
      _ = 4 * 2 ^ 52 * (2 ^ den.log2 * 2 ^ lift) := by
          rw [Nat.pow_add, Nat.pow_add 2 den.log2]
          norm_num
      _ ≤ 4 * 2 ^ 52 * (den * 2 ^ lift) := by gcongr
  · intro h
    calc
      2 ^ 52 * (den * 2 ^ lift) ≤ 2 ^ 52 * (2 ^ (den.log2 + 1) * 2 ^ lift) := by
        gcongr
      _ = 2 ^ (52 + (den.log2 + 1 + lift)) := by
        rw [← Nat.pow_add, ← Nat.pow_add]
      _ ≤ 2 ^ (num.log2 + bits) := Nat.pow_le_pow_right (by decide) (by omega)
      _ = 2 ^ num.log2 * 2 ^ bits := by rw [← Nat.pow_add]
      _ ≤ num * 2 ^ bits := by gcongr

/-- A quotient is rounded at a binade in which its integer part has 53 bits, or
at the lowest one. -/
theorem exists_lift {num den : Nat} (hnum : 0 < num) (hden : 0 < den) :
    ∃ b, nearestPattern num den = min infinityPattern
        (b * exponentUnit + roundDiv (num * unitsPerOne) (den * 2 ^ b)) ∧
      num * unitsPerOne < 2 * exponentUnit * (den * 2 ^ b) ∧
      (0 < b → exponentUnit * (den * 2 ^ b) ≤ num * unitsPerOne) := by
  have hnonzero : ¬ (num = 0 ∨ den = 0) := by omega
  simp only [nearestPattern, if_neg hnonzero, Nat.shiftLeft_eq]
  -- the first guess is right or one too small
  generalize hlift : num.log2 + 1074 - (den.log2 + 53) = lift
  obtain ⟨hhigh, hlow⟩ := quotient_bounds hnum hden lift
  have hhigh := hhigh (by omega)
  have hpos : 0 < den * 2 ^ lift := Nat.mul_pos hden (Nat.two_pow_pos _)
  by_cases hlong : 2 * exponentUnit ≤ num * unitsPerOne / (den * 2 ^ lift)
  · have hsucc : den * 2 ^ (lift + 1) = 2 * (den * 2 ^ lift) := by ring
    have hreach := (Nat.le_div_iff_mul_le hpos).mp hlong
    refine ⟨lift + 1, by rw [if_pos hlong], ?_, fun _ => ?_⟩
    · rw [hsucc]
      linarith
    · rw [hsucc]
      linarith
  · have hshort := (Nat.div_lt_iff_lt_mul hpos).mp (Nat.lt_of_not_le hlong)
    exact ⟨lift, by rw [if_neg hlong], hshort, fun hb => hlow (by omega)⟩

def quotientUnits (num den : Nat) : ℚ := num * unitsPerOne / den

/-- Among the multiples of `2 ^ b` the one by `m` is nearest to `t`, and at `t`
the numbers lie `2 ^ b` apart. -/
structure Rounds (t : ℚ) (b m : Nat) : Prop where
  full : 0 < b → exponentUnit ≤ m ∧ exponentUnit * 2 ^ b ≤ t
  bounded : m ≤ 2 * exponentUnit
  below : 2 * (m * 2 ^ b) ≤ 2 * t + 2 ^ b
  above : 2 * t ≤ 2 * (m * 2 ^ b) + 2 ^ b
  even : 2 * (m * 2 ^ b) = 2 * t + 2 ^ b ∨ 2 * t = 2 * (m * 2 ^ b) + 2 ^ b →
    Even m

theorem exists_rounds {num den : Nat} (hnum : 0 < num) (hden : 0 < den) :
    ∃ b m, nearestPattern num den = min infinityPattern (b * exponentUnit + m) ∧
      Rounds (quotientUnits num den) b m := by
  obtain ⟨b, hpattern, hshort, hfull⟩ := exists_lift hnum hden
  have hpos : 0 < den * 2 ^ b := Nat.mul_pos hden (Nat.two_pow_pos _)
  obtain ⟨habove, hbelow, heven⟩ := roundDiv_spec (num * unitsPerOne) hpos
  generalize roundDiv (num * unitsPerOne) (den * 2 ^ b) = m at *
  have hscale : quotientUnits num den * den = (num * unitsPerOne : Nat) := by
    rw [quotientUnits]
    push_cast
    field_simp
  generalize num * unitsPerOne = top at *
  generalize quotientUnits num den = t at *
  have hdenpos : (0 : ℚ) < den := by exact_mod_cast hden
  have hcancel {x y : ℚ} (h : x * den ≤ y * den) : x ≤ y :=
    le_of_mul_le_mul_right h hdenpos
  refine ⟨b, m, hpattern, fun hb => ⟨?_, hcancel ?_⟩, ?_, hcancel ?_,
    hcancel ?_, ?_⟩
  · have hreach := hfull hb
    by_contra hlt
    have : (2 * m + 1) * (den * 2 ^ b) < 2 * exponentUnit * (den * 2 ^ b) :=
      Nat.mul_lt_mul_of_pos_right (by omega) hpos
    linarith
  · have hreach : (exponentUnit * (den * 2 ^ b) : ℚ) ≤ top := by
      exact_mod_cast hfull hb
    linarith
  · by_contra hlt
    have : (4 * exponentUnit + 1) * (den * 2 ^ b) < 2 * m * (den * 2 ^ b) :=
      Nat.mul_lt_mul_of_pos_right (by omega) hpos
    linarith
  · have hbelow : (2 * m * (den * 2 ^ b) : ℚ) ≤ 2 * top + den * 2 ^ b := by
      exact_mod_cast hbelow
    linarith
  · have habove : (2 * top : ℚ) ≤ (2 * m + 1) * (den * 2 ^ b) := by
      exact_mod_cast habove
    linarith
  · intro htie
    refine Nat.even_iff.mpr (heven (htie.symm.imp (fun h => ?_) fun h => ?_))
    · have htie : (2 * top : ℚ) = (2 * m + 1) * (den * 2 ^ b) := by
        linear_combination den * h - 2 * hscale
      exact_mod_cast htie
    · have htie : (2 * m * (den * 2 ^ b) : ℚ) = 2 * top + den * 2 ^ b := by
        linear_combination den * h + 2 * hscale
      exact_mod_cast htie

namespace Rounds

variable {t : ℚ} {b m : Nat}

theorem unitsAt_eq (h : Rounds t b m) :
    unitsAt (b * exponentUnit + m) = m * 2 ^ b := by
  rcases Nat.lt_or_eq_of_le h.bounded with hlt | rfl
  · exact (unitsAt_add hlt fun hb => (h.full hb).1).2
  · exact unitsAt_carry b

theorem even_pattern (hm : Even m) : Even (b * exponentUnit + m) :=
  (Even.mul_left (by decide) b).add hm

theorem le_gap (h : Rounds t b m) : 2 ^ b ≤ gap (b * exponentUnit + m) := by
  rcases Nat.lt_or_eq_of_le h.bounded with hlt | rfl
  · rw [gap, (unitsAt_add hlt fun hb => (h.full hb).1).1]
  · refine Nat.pow_le_pow_right (by decide) ?_
    unfold binade exponentUnit
    omega

/-- The gap below the rounded quotient is as wide as the one above, unless the
quotient is not below it. -/
theorem gap_pred (h : Rounds t b m) {k : Nat}
    (hk : b * exponentUnit + m = k + 1) :
    gap k = 2 ^ b ∨ unitsAt (k + 1) ≤ t := by
  by_cases hlow : 0 < b ∧ m = exponentUnit
  · right
    rw [← hk, h.unitsAt_eq, hlow.2]
    push_cast
    exact (h.full hlow.1).2
  · left
    have hbounded := h.bounded
    have hfull (hb : 0 < b) : exponentUnit ≤ m - 1 := by
      have := (h.full hb).1
      omega
    have hpos : 0 < m := by
      by_contra hzero
      have hb : 0 < b := by
        by_contra hb
        simp_all
      have := (h.full hb).1
      unfold exponentUnit at this
      omega
    obtain rfl : k = b * exponentUnit + (m - 1) := by omega
    rw [gap, (unitsAt_add (by omega) hfull).1]

/-- A quotient is not rounded beyond a pattern when it is at most the
midpoint above it. -/
theorem pattern_le (h : Rounds t b m) {p : Nat} (hp : 2 * t ≤ midpoint p)
    (htie : 2 * t = midpoint p → Even p) : b * exponentUnit + m ≤ p := by
  by_contra hlt
  obtain ⟨k, hk⟩ : ∃ k, b * exponentUnit + m = k + 1 :=
    Nat.exists_eq_add_one_of_ne_zero (by omega)
  have hunits : (unitsAt (k + 1) : ℚ) = m * 2 ^ b := by
    rw [← hk, h.unitsAt_eq]
    push_cast
    rfl
  have hmid : (midpoint k : ℚ) = 2 * unitsAt (k + 1) - gap k := by
    rw [midpoint, unitsAt_succ]
    push_cast
    ring
  have hmono : (midpoint p : ℚ) ≤ midpoint k := by
    exact_mod_cast strictMono_midpoint.monotone (by omega : p ≤ k)
  have hbelow := h.below
  rcases h.gap_pred hk with hgap | hreach
  · have hgap : (gap k : ℚ) = 2 ^ b := by exact_mod_cast hgap
    -- all of these are equal, so the pattern and the one below the rounded
    -- quotient are
    have heq : 2 * t = midpoint p := by linarith
    have hsame : p = k := strictMono_midpoint.injective (by
      exact_mod_cast (by linarith : (midpoint p : ℚ) = midpoint k))
    have hm : Even m := h.even (Or.inl (by linarith))
    have hodd := even_pattern (b := b) hm
    rw [hk, ← hsame] at hodd
    exact (Nat.even_add_one.mp hodd) (htie heq)
  · have hgap : (0 : ℚ) < gap k := by exact_mod_cast gap_pos k
    linarith

/-- A quotient is rounded beyond a pattern when it is at least the
midpoint above it. -/
theorem lt_pattern (h : Rounds t b m) {p : Nat} (hp : midpoint p ≤ 2 * t)
    (htie : midpoint p = 2 * t → Even (p + 1)) : p < b * exponentUnit + m := by
  by_contra hle
  have hunits : (unitsAt (b * exponentUnit + m) : ℚ) = m * 2 ^ b := by
    rw [h.unitsAt_eq]
    push_cast
    rfl
  have hmid : (midpoint (b * exponentUnit + m) : ℚ) =
      2 * unitsAt (b * exponentUnit + m) + gap (b * exponentUnit + m) := by
    rw [midpoint, unitsAt_succ]
    push_cast
    ring
  have hgap : (2 ^ b : ℚ) ≤ gap (b * exponentUnit + m) := by
    exact_mod_cast h.le_gap
  have hmono : (midpoint (b * exponentUnit + m) : ℚ) ≤ midpoint p := by
    exact_mod_cast strictMono_midpoint.monotone (Nat.le_of_not_lt hle)
  have habove := h.above
  have heq : (midpoint p : ℚ) = 2 * t := by linarith
  have hsame : b * exponentUnit + m = p := strictMono_midpoint.injective (by
    exact_mod_cast
      (by linarith : (midpoint (b * exponentUnit + m) : ℚ) = midpoint p))
  have hm : Even m := h.even (Or.inr (by linarith))
  have heven := even_pattern (b := b) hm
  rw [hsame] at heven
  exact (Nat.even_add_one.mp (htie heq)) heven

end Rounds

section Nearest

variable {num den p : Nat}

theorem nearestPattern_le (hden : 0 < den)
    (hp : 2 * quotientUnits num den ≤ midpoint p)
    (htie : 2 * quotientUnits num den = midpoint p → Even p) :
    nearestPattern num den ≤ p := by
  rcases Nat.eq_zero_or_pos num with rfl | hnum
  · simp [nearestPattern]
  · obtain ⟨b, m, hpattern, hrounds⟩ := exists_rounds hnum hden
    rw [hpattern]
    exact (Nat.min_le_right _ _).trans (hrounds.pattern_le hp htie)

theorem lt_nearestPattern (hden : 0 < den) (hfinite : p < infinityPattern)
    (hp : midpoint p ≤ 2 * quotientUnits num den)
    (htie : midpoint p = 2 * quotientUnits num den → Even (p + 1)) :
    p < nearestPattern num den := by
  rcases Nat.eq_zero_or_pos num with rfl | hnum
  · simp [quotientUnits] at hp
    exact absurd hp (midpoint_pos p).ne'
  · obtain ⟨b, m, hpattern, hrounds⟩ := exists_rounds hnum hden
    rw [hpattern]
    exact Nat.lt_min.mpr ⟨hfinite, hrounds.lt_pattern hp htie⟩

/-- The reals for which a pattern is the nearest one: those between the
midpoints on its sides, which themselves go to an even pattern. -/
structure IsNearest (p : Nat) (t : ℚ) : Prop where
  above : 2 * t ≤ midpoint p
  below : ∀ q, q + 1 = p → midpoint q ≤ 2 * t
  even : 2 * t = midpoint p ∨ (∃ q, q + 1 = p ∧ midpoint q = 2 * t) → Even p

theorem IsNearest.nearestPattern_eq (h : IsNearest p (quotientUnits num den))
    (hden : 0 < den) (hfinite : p < infinityPattern) :
    nearestPattern num den = p := by
  apply Nat.le_antisymm
  · exact nearestPattern_le hden h.above fun htie => h.even (Or.inl htie)
  · cases p with
    | zero => exact Nat.zero_le _
    | succ q =>
        exact lt_nearestPattern hden (Nat.lt_of_succ_lt hfinite) (h.below q rfl)
          fun htie => h.even (Or.inr ⟨q, rfl, htie⟩)

/-- A pattern is nearest to what lies between the midpoints on its sides. -/
theorem isNearest_of_between {t : ℚ} (habove : 2 * t < midpoint p)
    (hbelow : ∀ q, q + 1 = p → midpoint q < 2 * t) : IsNearest p t := by
  refine ⟨habove.le, fun q hq => (hbelow q hq).le, ?_⟩
  rintro (heq | ⟨q, hq, heq⟩)
  · exact absurd heq habove.ne
  · exact absurd heq (hbelow q hq).ne

/-- A number is nearest to itself. -/
theorem isNearest_unitsAt (p : Nat) : IsNearest p (unitsAt p) := by
  apply isNearest_of_between
  · have := strictMono_unitsAt (Nat.lt_add_one p)
    exact_mod_cast (by unfold midpoint; omega : 2 * unitsAt p < midpoint p)
  · rintro q rfl
    have := strictMono_unitsAt (Nat.lt_add_one q)
    exact_mod_cast
      (by unfold midpoint; omega : midpoint q < 2 * unitsAt (q + 1))

end Nearest

/-! ## Sizes up to roundings -/

/-- By how much a rounding in the normal range may change a size. -/
def growth : ℚ := 1 + 1 / (2 * exponentUnit)

theorem growth_pos : 0 < growth := by
  unfold growth exponentUnit
  norm_num

/-- Neither of two sizes exceeds the other by more than `n` roundings do. -/
structure Within (n : Nat) (s t : ℚ) : Prop where
  le : s ≤ t * growth ^ n
  ge : t ≤ s * growth ^ n

namespace Within

variable {n k : Nat} {s t u v : ℚ}

theorem refl (t : ℚ) : Within 0 t t := ⟨by simp, by simp⟩

theorem trans (hst : Within n s t) (htu : Within k t u) :
    Within (n + k) s u := by
  have hpos := growth_pos
  constructor
  · calc s ≤ t * growth ^ n := hst.le
      _ ≤ u * growth ^ k * growth ^ n := by gcongr; exact htu.le
      _ = u * growth ^ (n + k) := by ring
  · calc u ≤ t * growth ^ k := htu.ge
      _ ≤ s * growth ^ n * growth ^ k := by gcongr; exact hst.ge
      _ = s * growth ^ (n + k) := by ring

theorem pos (h : Within n s t) (ht : 0 < t) : 0 < s := by
  have hpos := pow_pos growth_pos n
  exact pos_of_mul_pos_left (ht.trans_le h.ge) hpos.le

theorem mul (hst : Within n s t) (huv : Within k u v) (ht : 0 < t)
    (hv : 0 < v) :
    Within (n + k) (s * u) (t * v) := by
  have hpos := growth_pos
  have hs := hst.pos ht
  have hu := huv.pos hv
  constructor
  · calc s * u ≤ (t * growth ^ n) * (v * growth ^ k) := by
          gcongr
          · exact hst.le
          · exact huv.le
      _ = t * v * growth ^ (n + k) := by ring
  · calc t * v ≤ (s * growth ^ n) * (u * growth ^ k) := by
          gcongr
          · exact hst.ge
          · exact huv.ge
      _ = s * u * growth ^ (n + k) := by ring

/-- Sizes are compared in any unit. -/
theorem scale_iff (ht : 0 < t) : Within n (s * t) (u * t) ↔ Within n s u := by
  have hright (a b : ℚ) : a * t ≤ b * t * growth ^ n ↔ a ≤ b * growth ^ n := by
    rw [mul_right_comm, mul_le_mul_iff_left₀ ht]
  constructor
  · rintro ⟨hle, hge⟩
    exact ⟨(hright s u).mp hle, (hright u s).mp hge⟩
  · rintro ⟨hle, hge⟩
    exact ⟨(hright s u).mpr hle, (hright u s).mpr hge⟩

theorem inv (huv : Within k u v) (hv : 0 < v) : Within k u⁻¹ v⁻¹ := by
  have hu := huv.pos hv
  constructor
  · rw [inv_le_iff_one_le_mul₀ hu]
    calc (1 : ℚ) = v⁻¹ * v := (inv_mul_cancel₀ hv.ne').symm
      _ ≤ v⁻¹ * (u * growth ^ k) := by gcongr; exact huv.ge
      _ = v⁻¹ * growth ^ k * u := by ring
  · rw [inv_le_iff_one_le_mul₀ hv]
    calc (1 : ℚ) = u⁻¹ * u := (inv_mul_cancel₀ hu.ne').symm
      _ ≤ u⁻¹ * (v * growth ^ k) := by gcongr; exact huv.le
      _ = u⁻¹ * growth ^ k * v := by ring

theorem div (hst : Within n s t) (huv : Within k u v) (ht : 0 < t)
    (hv : 0 < v) :
    Within (n + k) (s / u) (t / v) := by
  rw [div_eq_mul_inv, div_eq_mul_inv]
  exact hst.mul (huv.inv hv) ht (inv_pos.mpr hv)

end Within

/-- A quotient in the normal range keeps its size up to one rounding. -/
theorem within_nearestPattern {num den : Nat} (hnum : 0 < num) (hden : 0 < den)
    (hnormal : exponentUnit ≤ quotientUnits num den)
    (hfinite : nearestPattern num den < infinityPattern) :
    Within 1 (unitsAt (nearestPattern num den)) (quotientUnits num den) := by
  obtain ⟨b, m, hpattern, hrounds⟩ := exists_rounds hnum hden
  rw [hpattern] at hfinite ⊢
  rw [Nat.min_eq_right (by omega), hrounds.unitsAt_eq]
  generalize quotientUnits num den = t at *
  have habove := hrounds.above
  have hbelow := hrounds.below
  have hquotient : (exponentUnit * 2 ^ b : ℚ) ≤ t := by
    rcases Nat.eq_zero_or_pos b with rfl | hb
    · simpa using hnormal
    · exact (hrounds.full hb).2
  have hfull : exponentUnit ≤ m := by
    rcases Nat.eq_zero_or_pos b with rfl | hb
    · have hlt : ((2 * exponentUnit : Nat) : ℚ) < (2 * m + 2 : Nat) := by
        push_cast
        linarith
      have hlt : 2 * exponentUnit < 2 * m + 2 := by exact_mod_cast hlt
      omega
    · exact (hrounds.full hb).1
  have hrounded : (exponentUnit * 2 ^ b : ℚ) ≤ m * 2 ^ b := by
    have hfull : (exponentUnit : ℚ) ≤ m := by exact_mod_cast hfull
    gcongr
  unfold exponentUnit at *
  push_cast at *
  constructor
  · rw [pow_one, growth, exponentUnit]
    push_cast
    linarith
  · rw [pow_one, growth, exponentUnit]
    push_cast
    linarith

/-- A size between a midpoint and the next one stays below the midpoint that
lies as many patterns higher as it is rounded. -/
theorem midpoint_mul_growth_lt (p : Nat) {n : Nat} (hn : 0 < n) :
    midpoint p * growth ^ n < midpoint (p + n) := by
  have hpos := growth_pos
  have hstep (q : Nat) : (midpoint q : ℚ) * growth < midpoint (q + 1) := by
    have hlt : (midpoint q * (2 * exponentUnit + 1) : ℚ) <
        midpoint (q + 1) * (2 * exponentUnit) := by
      exact_mod_cast midpoint_lt q
    unfold growth
    unfold exponentUnit at *
    push_cast at *
    linarith
  induction n, hn using Nat.le_induction with
  | base => simpa using hstep p
  | succ n _ ih =>
      calc
        (midpoint p : ℚ) * growth ^ (n + 1) =
            midpoint p * growth ^ n * growth := by ring
        _ < midpoint (p + n) * growth := by gcongr
        _ < midpoint (p + n + 1) := hstep _

/-- What is computed from a real with a few roundings and rounded once more is
at most as many patterns away from the nearest one. -/
theorem IsNearest.nearestPattern_near {num den p n : Nat} {t : ℚ}
    (h : IsNearest p t) (hwithin : Within n (quotientUnits num den) t)
    (hn : 0 < n) (hden : 0 < den) (hfinite : p + n < infinityPattern) :
    nearestPattern num den ≤ p + n ∧ p ≤ nearestPattern num den + n := by
  have hpos := growth_pos
  constructor
  · have hlt : 2 * quotientUnits num den < midpoint (p + n) := by
      calc
        2 * quotientUnits num den ≤ 2 * (t * growth ^ n) := by
          gcongr
          exact hwithin.le
        _ = 2 * t * growth ^ n := by ring
        _ ≤ midpoint p * growth ^ n := by
          gcongr
          exact h.above
        _ < midpoint (p + n) := midpoint_mul_growth_lt p hn
    exact nearestPattern_le hden hlt.le fun heq => absurd heq hlt.ne
  · by_contra hfar
    obtain ⟨q, rfl⟩ : ∃ q, p = q + n + 1 := ⟨p - n - 1, by omega⟩
    have hlt : midpoint q < 2 * quotientUnits num den := by
      refine lt_of_mul_lt_mul_right ?_ (pow_pos hpos n).le
      calc
        midpoint q * growth ^ n < midpoint (q + n) :=
          midpoint_mul_growth_lt q hn
        _ ≤ 2 * t := h.below _ rfl
        _ ≤ 2 * (quotientUnits num den * growth ^ n) := by
          gcongr
          exact hwithin.ge
        _ = 2 * quotientUnits num den * growth ^ n := by ring
    have := lt_nearestPattern hden (by omega : q < infinityPattern) hlt.le
      fun heq => absurd heq hlt.ne
    omega

end Telemetry.Binary64
