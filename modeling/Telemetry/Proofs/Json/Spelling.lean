import Telemetry.Proofs.Json.Number
import Telemetry.Proofs.Json.Scaling

/-!
# The spelling of a number is read as its decimal

A finite number is spelled by its shortest decimal, positionally or with an
exponent.  The reader takes the digits as one word and the places and the
exponent as one power of ten, and so finds the decimal again; only a whole
number has one more digit, the zero after its point.
-/

namespace Telemetry.Json

/-! ## The parts of a number -/

theorem noDigit_cons {b : UInt8} (h : isDigit b = false) (rest : Bytes) :
    NoDigit (b :: rest) := by
  intro b' hb'
  obtain rfl : b = b' := by simpa using hb'
  exact h

theorem digitsFrom_append (n : Nat) (xs ys : Bytes) :
    digitsFrom n (xs ++ ys) = digitsFrom (digitsFrom n xs) ys :=
      List.foldl_append

theorem finishInteger_point {n : Nat} {ds rest : Bytes} (hds : Digits ds)
    (hne : ds ≠ []) (hlt : digitsFrom n ds < wordBound) (hrest : NoDigit rest)
    (negative : Bool) (p : Position) :
    ∃ q, Cursor.finishInteger ⟨0x2E :: ds ++ rest, p⟩ negative n 0 =
      Cursor.finishDigits ⟨rest, q⟩ negative (digitsFrom n ds)
        (-ds.length) := by
  refine ⟨(p.after 0x2E).afterAll ds, ?_⟩
  have hread := digits_append hds hrest (p.after 0x2E)
  simp [Cursor.finishInteger, Cursor.peek, Cursor.readPlaces, Cursor.advance,
    hread, hne, absorb_eq hlt]

theorem finishReal_eq {c : Nat} {e : Int} {y : Binary64}
    (hy : scaled? c e = some y) (negative : Bool) (cursor : Cursor) :
    cursor.finishReal negative c e = .ok (.real (withSign negative y),
      cursor) := by
  rw [Cursor.finishReal, hy]

theorem finishDigits_delimited {c : Nat} {e : Int} {y : Binary64}
    (hy : scaled? c e = some y) {rest : Bytes} (hrest : Delimited rest)
    (negative : Bool) (p : Position) :
    Cursor.finishDigits ⟨rest, p⟩ negative c e =
      .ok (.real (withSign negative y), ⟨rest, p⟩) := by
  have hmark :=
    peek_delimited hrest (by decide : (0x65 : UInt8) ≠ 0x2C ∧ _ ∧ _) p
  have hmark' :=
    peek_delimited hrest (by decide : (0x45 : UInt8) ≠ 0x2C ∧ _ ∧ _) p
  simp only [Cursor.finishDigits, hmark, hmark', or_self, if_false]
  exact finishReal_eq hy negative _

/-- The spelling of a power of ten after its digits. -/
def exponentTail (power : Int) : Bytes :=
  0x65 :: (if power < 0 then 0x2D else 0x2B) :: decimal power.natAbs

theorem readExponent_tail {c : Nat} {e power : Int} {y : Binary64}
    (he : e.natAbs < 1000) (hpower : power.natAbs < 1000)
    (hy : scaled? c (e + power) = some y) {rest : Bytes}
    (hrest : Delimited rest) (negative : Bool) (p : Position) :
    ∃ q, Cursor.readExponent ⟨exponentTail power ++ rest, p⟩ negative c e =
      .ok (.real (withSign negative y), ⟨rest, q⟩) := by
  obtain ⟨b, bs, heq, -⟩ := exists_decimal_eq_cons power.natAbs
  have hfirst : isDigit b = true :=
    isDigit_decimal power.natAbs b (by simp [heq])
  have habsorb :
      absorb exponentBound 0 (decimal power.natAbs) = (power.natAbs, []) := by
    rw [absorb_eq, digitsFrom_decimal]
    rw [digitsFrom_decimal]
    unfold exponentBound
    omega
  have hclip : clipExponent (e + power) = e + power := by
    unfold clipExponent exponentBound
    omega
  have hread (sign : UInt8) := digits_append
    (isDigit_decimal power.natAbs) hrest.noDigit ((p.after 0x65).after sign)
  rw [heq] at habsorb
  simp only [heq, List.cons_append] at hread
  by_cases hdown : power < 0
  · have hexponent : e - |power| = e + power := by
      rw [abs_of_neg hdown, sub_neg_eq_add]
    refine ⟨((p.after 0x65).after 0x2D).afterAll (b :: bs), ?_⟩
    simp [exponentTail, hdown, heq, Cursor.readExponent, Cursor.advance,
      Cursor.peek, hfirst, hread, habsorb, hexponent, hclip, finishReal_eq hy]
  · have hexponent : e + |power| = e + power := by
      rw [abs_of_nonneg (not_lt.mp hdown)]
    refine ⟨((p.after 0x65).after 0x2B).afterAll (b :: bs), ?_⟩
    simp [exponentTail, hdown, heq, Cursor.readExponent, Cursor.advance,
      Cursor.peek, hfirst, hread, habsorb, hexponent, hclip, finishReal_eq hy]

/-- Digits with a point among them are read as their value and their places. -/
theorem readNumber_point {ds places rest : Bytes} (hds : IsWhole ds)
    (hplaces : Digits places) (hne : places ≠ []) {c : Nat}
    (hc : digitsFrom 0 (ds ++ places) = c) (hlt : c < wordBound)
    (hrest : NoDigit rest) (negative : Bool) (p : Position) :
    ∃ q, Cursor.readNumber ⟨ds ++ 0x2E :: places ++ rest, p⟩ negative =
      Cursor.finishDigits ⟨rest, q⟩ negative c (-places.length) := by
  rw [digitsFrom_append] at hc
  have hle := le_digitsFrom (digitsFrom 0 ds) places
  have htail : NoDigit (0x2E :: places ++ rest) := noDigit_cons rfl _
  obtain ⟨q, hwhole⟩ := readNumber_whole hds (by omega) htail negative p
  obtain ⟨q', hpoint⟩ := finishInteger_point (n := digitsFrom 0 ds) hplaces hne
    (by omega) hrest negative q
  refine ⟨q', ?_⟩
  rw [List.append_assoc, hwhole, hpoint, hc]

/-! ## Digits and zeros -/

def bytesOf (cs : List Char) : Bytes := cs.map fun c => UInt8.ofNat c.toNat

theorem bytesOf_digits (n : Nat) : bytesOf (Decimal.digits n) = decimal n := rfl

theorem bytesOf_append (cs cs' : List Char) :
    bytesOf (cs ++ cs') = bytesOf cs ++ bytesOf cs' :=
  List.map_append

theorem bytesOf_zeros (n : Nat) :
    bytesOf (List.replicate n '0') = List.replicate n 0x30 :=
  List.map_replicate

theorem decimal_mul_powerOfTen {n : Nat} (hn : 0 < n) (k : Nat) :
    decimal (n * 10 ^ k) = decimal n ++ List.replicate k 0x30 := by
  induction k with
  | zero => simp
  | succ k ih =>
      have hten : 10 ≤ n * 10 ^ (k + 1) := by
        have := Nat.mul_pos hn (Nat.pow_pos (n := k) (by decide : 0 < 10))
        rw [Nat.pow_succ, ← Nat.mul_assoc]
        omega
      have hdiv : n * 10 ^ (k + 1) / 10 = n * 10 ^ k := by
        rw [Nat.pow_succ, ← Nat.mul_assoc, Nat.mul_div_cancel _ (by decide)]
      have hmod : n * 10 ^ (k + 1) % 10 = 0 := by
        rw [Nat.pow_succ, ← Nat.mul_assoc, Nat.mul_mod_left]
      rw [decimal_of_le hten, hdiv, hmod, ih, List.append_assoc,
        List.replicate_succ']
      rfl

theorem digits_zeros (n : Nat) : Digits (List.replicate n 0x30) := by
  intro d hd
  rw [List.eq_of_mem_replicate hd]
  rfl

theorem digitsFrom_zeros (n : Nat) :
    digitsFrom 0 (List.replicate n 0x30) = 0 := by
  induction n with
  | zero => rfl
  | succ n ih => exact ih

theorem coefficient_bounds {c : Nat} (hc : 0 < c) :
    10 ^ ((Decimal.digits c).length - 1) ≤ c ∧
      c < 10 ^ (Decimal.digits c).length := by
  have hpos : 0 < (Decimal.digits c).length := Nat.length_toDigits_pos
  constructor
  · by_contra hlt
    have hone : 0 < (Decimal.digits c).length - 1 := by
      by_contra hzero
      have : (Decimal.digits c).length - 1 = 0 := by omega
      rw [this] at hlt
      omega
    have := (Nat.length_toDigits_le_iff (by decide : 1 < 10) hone).mpr
      (Nat.lt_of_not_le hlt)
    unfold Decimal.digits at *
    omega
  · exact (Nat.length_toDigits_le_iff (by decide : 1 < 10) hpos).mp
      (Nat.le_refl _)

/-! ## The decimal that is spelled -/

/-- The decimal that the spelling of another is read as: a whole number is
spelled with one more zero after a point. -/
def pointed (d : Decimal) : Decimal :=
  if 0 ≤ d.exponent ∧ d.order < Binary64.leastScientificOrder then
    ⟨d.coefficient * 10 ^ (d.exponent.natAbs + 1), -1⟩
  else d

section Spelling

variable {d : Decimal} {y : Binary64} {rest : Bytes}

/-- A whole number that is spelled positionally has at most sixteen digits. -/
theorem whole_lt (hwhole : 0 ≤ d.exponent)
    (horder : d.order < Binary64.leastScientificOrder) :
    d.coefficient * 10 ^ (d.exponent.natAbs + 1) < 10 ^ 17 := by
  rcases Nat.eq_zero_or_pos d.coefficient with hc | hc
  · rw [hc, Nat.zero_mul]
    decide
  · have hdigits := (coefficient_bounds hc).2
    have hlength : (Decimal.digits d.coefficient).length +
        (d.exponent.natAbs + 1) ≤ 17 := by
      unfold Decimal.order Binary64.leastScientificOrder at horder
      omega
    calc d.coefficient * 10 ^ (d.exponent.natAbs + 1)
        < 10 ^ (Decimal.digits d.coefficient).length *
        10 ^ (d.exponent.natAbs + 1) :=
          Nat.mul_lt_mul_of_pos_right hdigits (by positivity)
      _ =
        10 ^ ((Decimal.digits d.coefficient).length +
          (d.exponent.natAbs + 1)) := by
          rw [← Nat.pow_add]
      _ ≤ 10 ^ 17 := Nat.pow_le_pow_right (by decide) hlength

/-- A whole number with the zero after its point. -/
theorem readNumber_whole_positional (hzero : d.coefficient = 0 → d.exponent = 0)
    (hwhole : 0 ≤ d.exponent) (horder : d.order < Binary64.leastScientificOrder)
    (hy : scaled? (pointed d).coefficient (pointed d).exponent = some y)
    (hrest : Delimited rest) (negative : Bool) (p : Position) :
    ∃ q, Cursor.readNumber ⟨bytesOf (d.positional ['.', '0']) ++ rest,
      p⟩ negative = .ok (.real (withSign negative y), ⟨rest, q⟩) := by
  rw [pointed, if_pos ⟨hwhole, horder⟩] at hy
  have hdecimal :
      decimal d.coefficient ++ List.replicate d.exponent.natAbs 0x30 =
      decimal (d.coefficient * 10 ^ d.exponent.natAbs) := by
    rcases Nat.eq_zero_or_pos d.coefficient with hc | hc
    · simp [hzero hc, hc]
    · exact (decimal_mul_powerOfTen hc _).symm
  have hbytes : bytesOf (d.positional ['.', '0']) =
      decimal (d.coefficient * 10 ^ d.exponent.natAbs) ++ 0x2E :: [0x30] := by
    rw [Decimal.positional, if_pos hwhole, bytesOf_append, bytesOf_append,
      bytesOf_digits, bytesOf_zeros, hdecimal]
    rfl
  have hvalue :
      digitsFrom 0 (decimal (d.coefficient * 10 ^ d.exponent.natAbs) ++
        [0x30]) = d.coefficient * 10 ^ (d.exponent.natAbs + 1) := by
    rw [digitsFrom_append, digitsFrom_decimal, Nat.pow_succ, ← Nat.mul_assoc]
    rfl
  have hlt : d.coefficient * 10 ^ (d.exponent.natAbs + 1) < wordBound :=
    (whole_lt hwhole horder).trans (by decide)
  have hplaces : Digits [0x30] := digits_zeros 1
  obtain ⟨q, hq⟩ := readNumber_point (isWhole_decimal _) hplaces
    (by decide) hvalue hlt hrest.noDigit negative p
  refine ⟨q, ?_⟩
  rw [hbytes, hq]
  exact finishDigits_delimited hy hrest negative q

/-- Some of the digits of a number other than zero, from the first one on. -/
theorem isWhole_take {c k : Nat} (hc : 0 < c) (hk : 0 < k) :
    IsWhole ((decimal c).take k) := by
  obtain ⟨b, bs, heq, hzero⟩ := exists_decimal_eq_cons c
  obtain ⟨j, rfl⟩ := Nat.exists_eq_add_one_of_ne_zero hk.ne'
  have hb : b ≠ 0x30 := fun hb => hc.ne' (hzero hb).1
  right
  constructor
  · intro d hd
    exact isDigit_decimal c d (List.mem_of_mem_take hd)
  · exact ⟨b, bs.take j, by rw [heq, List.take_succ_cons], hb⟩

/-- A number with a point among its digits or before them. -/
theorem readNumber_fraction (hlt : d.coefficient < 10 ^ 19)
    (hpos : 0 < d.coefficient) (hneg : d.exponent < 0)
    (hy : scaled? d.coefficient d.exponent = some y) (hrest : Delimited rest)
    (negative : Bool) (p : Position) :
    ∃ q, Cursor.readNumber ⟨bytesOf (d.positional ['.', '0']) ++ rest,
      p⟩ negative = .ok (.real (withSign negative y), ⟨rest, q⟩) := by
  have hword : 10 ^ 19 < wordBound := by decide
  have hlength : (Decimal.digits d.coefficient).length =
      (decimal d.coefficient).length := by
    simp [← bytesOf_digits, bytesOf]
  -- the digits before the point and those after it
  obtain ⟨ds, places, hbytes, hds, hplaces, hvalue, hcount⟩ : ∃ ds places,
      bytesOf (d.positional ['.', '0']) = ds ++ 0x2E :: places ∧ IsWhole ds ∧
        Digits places ∧
        digitsFrom 0 (ds ++ places) = d.coefficient ∧
        places.length = d.exponent.natAbs := by
    rw [Decimal.positional, if_neg (by omega)]
    dsimp only
    split
    · next hinside =>
        obtain ⟨k, hk⟩ : ∃ k,
            k = (Decimal.digits d.coefficient).length - d.exponent.natAbs :=
          ⟨_, rfl⟩
        rw [← hk]
        refine ⟨(decimal d.coefficient).take k, (decimal d.coefficient).drop k,
          ?_, isWhole_take hpos (by omega),
          fun b hb => isDigit_decimal _ b (List.mem_of_mem_drop hb), ?_, ?_⟩
        · simp only [bytesOf, List.map_append, List.map_cons, List.map_take,
            List.map_drop]
          rfl
        · rw [List.take_append_drop, digitsFrom_decimal]
        · rw [List.length_drop]
          omega
    · next hbefore =>
        refine ⟨[0x30],
          List.replicate
            (d.exponent.natAbs - (Decimal.digits d.coefficient).length) 0x30 ++
            decimal d.coefficient, ?_, Or.inl rfl, ?_, ?_, ?_⟩
        · rw [← bytesOf_zeros, ← bytesOf_digits, ← bytesOf_append]
          rfl
        · intro b hb
          rcases List.mem_append.mp hb with hb | hb
          · exact digits_zeros _ b hb
          · exact isDigit_decimal _ b hb
        · have hlead : digitsFrom 0 [0x30] = 0 := rfl
          rw [digitsFrom_append, digitsFrom_append, hlead, digitsFrom_zeros,
            digitsFrom_decimal]
        · rw [List.length_append, List.length_replicate]
          omega
  have hne : places ≠ [] := by
    rintro rfl
    simp at hcount
    omega
  obtain ⟨q, hq⟩ :=
    readNumber_point hds hplaces hne hvalue (by omega) hrest.noDigit negative p
  have hexponent : -(places.length : Int) = d.exponent := by omega
  refine ⟨q, ?_⟩
  rw [hbytes, hq, hexponent]
  exact finishDigits_delimited hy hrest negative q

theorem bytesOf_tail (power : Int) :
    bytesOf ((if power < 0 then ['e', '-'] else ['e', '+']) ++
      Decimal.digits power.natAbs) = exponentTail power := by
  rw [bytesOf_append, bytesOf_digits, exponentTail]
  split <;> rfl

/-- A number with an exponent, and a point if it has more than one digit. -/
theorem readNumber_scientific (hlt : d.coefficient < 10 ^ 19)
    (hpos : 0 < d.coefficient) (hlow : -324 ≤ d.exponent)
    (hhigh : d.exponent ≤ 308) (hy : scaled? d.coefficient d.exponent = some y)
    (hrest : Delimited rest) (negative : Bool) (p : Position) :
    ∃ q, Cursor.readNumber ⟨bytesOf d.scientific ++ rest, p⟩ negative =
      .ok (.real (withSign negative y), ⟨rest, q⟩) := by
  have hword : 10 ^ 19 < wordBound := by decide
  have hlength : (Decimal.digits d.coefficient).length ≤ 19 :=
    (Nat.length_toDigits_le_iff (by decide : 1 < 10) (by decide)).mpr hlt
  have hdigits :
      bytesOf (Decimal.digits d.coefficient) = decimal d.coefficient := rfl
  have htail : NoDigit (exponentTail d.order ++ rest) := noDigit_cons rfl _
  have hmark (q : Position) :
      Cursor.peek ⟨exponentTail d.order ++ rest, q⟩ = some 0x65 := rfl
  rw [Decimal.scientific]
  split
  · next hnil => exact absurd hnil (digits_ne_nil _)
  · next first hfirst =>
      rw [hfirst] at hdigits
      have horder : d.order = d.exponent := by simp [Decimal.order, hfirst]
      obtain ⟨q, hq⟩ := readNumber_whole (isWhole_decimal d.coefficient)
        (by rw [digitsFrom_decimal]; omega) htail negative p
      obtain ⟨q', hq'⟩ := readExponent_tail (e := 0) (by decide)
        (by omega : d.order.natAbs < 1000) (by rwa [horder, zero_add]) hrest
        negative q
      refine ⟨q', ?_⟩
      have hbytes :
          bytesOf (first :: ((if d.order < 0 then ['e', '-'] else ['e', '+']) ++
              Decimal.digits d.order.natAbs)) =
            decimal d.coefficient ++ exponentTail d.order := by
        rw [← hdigits, ← bytesOf_tail, ← bytesOf_append]
        rfl
      rw [hbytes, List.append_assoc, hq, digitsFrom_decimal]
      simpa [Cursor.finishInteger, hmark] using hq'
  · next first more hmore hfirst =>
      rw [hfirst] at hdigits
      have hne : bytesOf more ≠ [] := by
        intro hnil
        exact hmore (List.map_eq_nil_iff.mp hnil)
      have horder : -((bytesOf more).length : Int) + d.order = d.exponent := by
        simp [Decimal.order, hfirst, bytesOf]
      have hsplit :
          decimal d.coefficient = bytesOf [first] ++ bytesOf more := by
        rw [← hdigits, ← bytesOf_append]
        rfl
      have hfirstWhole : IsWhole (bytesOf [first]) := by
        have hwhole := isWhole_take hpos (k := 1) (by decide)
        rwa [hsplit] at hwhole
      have hmoreDigits : Digits (bytesOf more) := by
        intro b hb
        exact isDigit_decimal d.coefficient b
          (hsplit ▸ List.mem_append_right _ hb)
      have hvalue :
          digitsFrom 0 (bytesOf [first] ++ bytesOf more) = d.coefficient := by
        rw [← hsplit, digitsFrom_decimal]
      have hcount : (bytesOf more).length < 19 := by
        rw [hfirst, List.length_cons] at hlength
        rw [bytesOf, List.length_map]
        omega
      obtain ⟨q, hq⟩ := readNumber_point hfirstWhole hmoreDigits hne hvalue
        (by omega) htail negative p
      obtain ⟨q', hq'⟩ :=
        readExponent_tail (e := -((bytesOf more).length : Int)) (by omega)
          (by omega : d.order.natAbs < 1000) (by rwa [horder]) hrest negative q
      refine ⟨q', ?_⟩
      have hbytes : bytesOf (first :: '.' :: more ++
          ((if d.order < 0 then ['e', '-'] else ['e', '+']) ++
            Decimal.digits d.order.natAbs)) =
          bytesOf [first] ++ 0x2E :: bytesOf more ++ exponentTail d.order := by
        rw [← bytesOf_tail, bytesOf_append]
        rfl
      rw [hbytes, List.append_assoc, hq]
      simpa [Cursor.finishDigits, hmark] using hq'

end Spelling

/-! ## Reading a number back -/

/-- The spelling of a decimal: positional in the middle of the
range, else scientific. -/
def spelling (d : Decimal) : List Char :=
  if Binary64.leastPositionalOrder ≤ d.order ∧
      d.order < Binary64.leastScientificOrder then
    d.positional ['.', '0']
  else d.scientific

/-- The decimal that the digits of a number are read as. -/
def spelled (x : Binary64) : Decimal := pointed (x.shortest .even)

/-- What the reader makes of the digits of a number. -/
def reread (x : Binary64) : Binary64 :=
  withSign x.isNegative
    ((scaled? (spelled x).coefficient (spelled x).exponent).getD .zero)

theorem shortest_of_zero {x : Binary64} (hzero : x.pattern = 0)
    (tie : Binary64.Tie) :
    x.shortest tie = ⟨0, 0⟩ := by
  have hsignificand : x.significand = 0 := by
    rw [Binary64.significand_eq, hzero]
    decide
  rw [Binary64.shortest, if_pos hsignificand]

theorem scaled_zero {x : Binary64} (hzero : x.pattern = 0) :
    scaled? (spelled x).coefficient (spelled x).exponent = some .zero := by
  rw [spelled, shortest_of_zero hzero]
  decide +kernel

theorem pointed_value (d : Decimal) : (pointed d).value = d.value := by
  rw [pointed]
  split
  · next hwhole =>
      rw [Decimal.value, Decimal.value, Binary64.zpow_of_nonneg hwhole.1,
        Binary64.powerOfTen_eq_pow, pow_succ]
      push_cast
      rw [zpow_neg_one]
      ring
  · rfl

/-- The decimal that is read stands for the number as the shortest one does. -/
theorem prints_spelled {x : Binary64}
    (hfinite : x.pattern < Binary64.infinityPattern) (hzero : x.pattern ≠ 0) :
    Binary64.Prints x (spelled x) := by
  obtain ⟨hnearest, hpos, hlt, hle⟩ :=
    Binary64.prints_shortest .even hfinite hzero
  rw [← pointed_value] at hnearest
  refine ⟨hnearest, ?_, ?_, ?_⟩ <;> rw [spelled, pointed] <;> split
  · exact Nat.mul_pos hpos (by positivity)
  · exact hpos
  · next hwhole => exact (whole_lt hwhole.1 hwhole.2).trans (by decide)
  · exact hlt
  · exact (by decide : (-324 : Int) ≤ -1)
  · exact hle

/-- The three greatest numbers are not read as infinite ones. -/
theorem scaled_greatest : ∀ negative : Bool, ∀ j < 3,
    let x := Binary64.ofPattern negative (Binary64.infinityPattern - 3 + j)
    (scaled? (spelled x).coefficient (spelled x).exponent).any fun y =>
      !y.isNegative && y.isFinite && y.pattern ≤ x.pattern + 3 &&
        x.pattern ≤ y.pattern + 3 := by
  decide +kernel

/-- The digits of a finite number are read as a finite number at most
three patterns away. -/
theorem exists_scaled {x : Binary64} (hfinite : x.isFinite = true) :
    ∃ y, scaled? (spelled x).coefficient (spelled x).exponent = some y ∧
      y.isFinite = true ∧
      y.isNegative = false ∧ y.pattern ≤ x.pattern + 3 ∧
      x.pattern ≤ y.pattern + 3 := by
  have hpattern := Binary64.isFinite_iff.mp hfinite
  by_cases hzero : x.pattern = 0
  · exact ⟨.zero,
      scaled_zero hzero, by decide, by decide, Nat.zero_le _, by omega⟩
  · by_cases hgreat : x.pattern + 3 < Binary64.infinityPattern
    · obtain ⟨hnearest, hpos, hlt, hle⟩ := prints_spelled hpattern hzero
      obtain ⟨y, hy, hsign, habove, hbelow⟩ :=
        scaled_near hpos hlt hle hnearest hgreat
      exact ⟨y, hy, Binary64.isFinite_iff.mpr (by omega), hsign, habove, hbelow⟩
    · obtain ⟨j, hj, hlast⟩ : ∃ j < 3,
          Binary64.infinityPattern - 3 + j = x.pattern := by
        refine ⟨x.pattern + 3 - Binary64.infinityPattern, by omega, ?_⟩
        unfold Binary64.infinityPattern Binary64.exponentUnit at *
        omega
      have hread := scaled_greatest x.isNegative j hj
      simp only [hlast, Binary64.ofPattern_pattern] at hread
      obtain ⟨y, hy, hnear⟩ := (Option.any_eq_true _ _).mp hread
      simp only [Bool.and_eq_true, Bool.not_eq_true', decide_eq_true_eq]
        at hnear
      exact ⟨y, hy, hnear.1.1.2, hnear.1.1.1, hnear.1.2, hnear.2⟩

section Reread

variable {x y : Binary64}

theorem reread_eq
    (hy : scaled? (spelled x).coefficient (spelled x).exponent = some y) :
    reread x = withSign x.isNegative y := by
  rw [reread, hy, Option.getD_some]

/-- The digits of the magnitude of a number are read as one number. -/
theorem readNumber_spelling (hfinite : x.isFinite = true)
    (hy : scaled? (spelled x).coefficient (spelled x).exponent = some y)
    {rest : Bytes} (hrest : Delimited rest) (negative : Bool) (p : Position) :
    ∃ q, Cursor.readNumber ⟨bytesOf (spelling (x.shortest .even)) ++ rest,
      p⟩ negative = .ok (.real (withSign negative y), ⟨rest, q⟩) := by
  have hpattern := Binary64.isFinite_iff.mp hfinite
  unfold spelled at hy
  by_cases hzero : x.pattern = 0
  · rw [shortest_of_zero hzero] at hy ⊢
    exact readNumber_whole_positional (fun _ => rfl) (Int.le_refl 0)
      (by decide) hy hrest negative p
  · obtain ⟨hnearest, hpos, hlt, hle⟩ :=
      Binary64.prints_shortest .even hpattern hzero
    generalize x.shortest .even = d at *
    have hgreatest := exponent_le hpos hpattern hnearest
    have hlength : 0 < (Decimal.digits d.coefficient).length :=
      Nat.length_toDigits_pos
    rw [spelling]
    split
    · next horder =>
        by_cases hwhole : 0 ≤ d.exponent
        · exact readNumber_whole_positional
            (fun hc => absurd hc hpos.ne') hwhole horder.2 hy hrest negative p
        · rw [pointed, if_neg (fun h => hwhole h.1)] at hy
          exact readNumber_fraction hlt hpos (by omega) hy hrest negative p
    · next horder =>
        have hscientific :
            ¬ (0 ≤ d.exponent ∧ d.order < Binary64.leastScientificOrder) := by
          rintro ⟨hwhole, hshort⟩
          refine horder ⟨?_, hshort⟩
          unfold Decimal.order Binary64.leastPositionalOrder
          omega
        rw [pointed, if_neg hscientific] at hy
        exact readNumber_scientific hlt hpos hle hgreatest hy hrest negative p

theorem isDigit_of_readNumber {b : UInt8} {bytes : Bytes} {p : Position}
    {negative : Bool} {r : Number × Cursor}
    (h : Cursor.readNumber ⟨b :: bytes, p⟩ negative = .ok r) :
    isDigit b = true := by
  by_contra hdigit
  have hzero : b ≠ 0x30 := by
    rintro rfl
    exact hdigit rfl
  simp [Cursor.readNumber, hzero, hdigit, Cursor.fail] at h

/-- The digits of a finite number are read as the same number
wherever they stand. -/
theorem reads_writeReal (hfinite : x.isFinite = true) :
    Reads Cursor.real (writeReal x) (reread x) := by
  obtain ⟨y, hy, -⟩ := exists_scaled hfinite
  intro rest p hrest
  have hwrite :
      writeReal x = bytesOf (x.signed (spelling (x.shortest .even))) :=
    if_pos hfinite
  rw [reread_eq hy]
  cases hsign : x.isNegative with
  | false =>
      obtain ⟨q, hq⟩ := readNumber_spelling hfinite hy hrest false p
      refine ⟨q, ?_⟩
      rw [Binary64.signed, hsign, if_neg Bool.false_ne_true] at hwrite
      obtain ⟨b, bs, hbytes⟩ :=
        List.exists_cons_of_ne_nil (writeReal_ne_nil hfinite)
      rw [← hwrite, hbytes, List.cons_append] at hq
      rw [hbytes, List.cons_append]
      have hdigit := isDigit_of_readNumber hq
      have hminus : b ≠ 0x2D := by
        rintro rfl
        exact absurd hdigit (by decide)
      simp [real_eq, Cursor.number, token_cons (isSpace_of_isDigit hdigit),
        bind, Except.bind, Cursor.sees, Cursor.peek, hminus, Cursor.seesDigit,
        hdigit, hq, Except.map, Number.toReal]
  | true =>
      obtain ⟨q, hq⟩ := readNumber_spelling hfinite hy hrest true (p.after 0x2D)
      refine ⟨q, ?_⟩
      rw [Binary64.signed, hsign, if_pos rfl] at hwrite
      rw [hwrite]
      change Cursor.real
        ⟨0x2D :: (bytesOf (spelling (x.shortest .even)) ++ rest), p⟩ = _
      simp [real_eq, Cursor.number,
        token_cons (by decide : Cursor.isSpace 0x2D = false), bind, Except.bind,
        Cursor.sees, Cursor.peek, Cursor.advance, hq, Except.map, Number.toReal]

/-- A number is read back when the reader makes the number of its digits. -/
theorem readable_iff_reread (hfinite : x.isFinite = true) :
    Readable x ↔ reread x = x := by
  rw [Readable, (reads_writeReal hfinite).document]
  exact ⟨fun h => Except.ok.inj h, fun h => congrArg Except.ok h⟩

/-- A number that reads back on its own does so inside a document. -/
theorem Readable.reads (h : Readable x) (hfinite : x.isFinite = true) :
    Reads Cursor.real (writeReal x) x := by
  have hreads := reads_writeReal hfinite
  rwa [(readable_iff_reread hfinite).mp h] at hreads

theorem withSign_eq (hy : y.isNegative = false) (negative : Bool) :
    withSign negative y = .ofPattern negative y.pattern := by
  cases negative with
  | false =>
      rw [← hy, Binary64.ofPattern_pattern, withSign, if_neg (by simp [hy])]
  | true =>
      rw [withSign, if_pos rfl, Binary64.negate, hy]
      rfl

/-- The second number is finite, of the sign of the first, and at most
three patterns away. -/
structure Resembles (x y : Binary64) : Prop where
  isFinite : y.isFinite = true
  isNegative : y.isNegative = x.isNegative
  above : y.pattern ≤ x.pattern + 3
  below : x.pattern ≤ y.pattern + 3

theorem resembles_reread (hfinite : x.isFinite = true) :
    Resembles x (reread x) := by
  obtain ⟨y, hy, hyfinite, hsign, habove, hbelow⟩ := exists_scaled hfinite
  have hread : reread x = .ofPattern x.isNegative y.pattern := by
    rw [reread_eq hy, withSign_eq hsign]
  have hpattern : (reread x).pattern = y.pattern := by
    rw [hread, Binary64.pattern_ofPattern _ y.pattern_lt]
  refine ⟨?_, ?_, ?_, ?_⟩
  · rwa [Binary64.isFinite, hpattern]
  · rw [hread, Binary64.isNegative_ofPattern _ y.pattern_lt]
  · rwa [hpattern]
  · rwa [hpattern]

/-- The digits of the number make up an integer of 53 bits with at most
22 places or zeros. -/
def IsShort (x : Binary64) : Prop :=
  (spelled x).coefficient < 2 * Binary64.exponentUnit ∧
    (spelled x).exponent.natAbs ≤ 22

instance (x : Binary64) : Decidable (IsShort x) :=
  inferInstanceAs (Decidable (_ ∧ _))

theorem reread_of_isShort (h : IsShort x) (hfinite : x.isFinite = true) :
    reread x = x := by
  have hpattern := Binary64.isFinite_iff.mp hfinite
  have hread : scaled? (spelled x).coefficient (spelled x).exponent =
      some (.ofPattern false x.pattern) := by
    by_cases hzero : x.pattern = 0
    · rw [scaled_zero hzero, hzero]
      rfl
    · exact scaled_eq h.1 h.2 (prints_spelled hpattern hzero).nearest hpattern
  rw [reread_eq hread,
    withSign_eq (Binary64.isNegative_ofPattern _ x.pattern_lt),
    Binary64.pattern_ofPattern _ x.pattern_lt, Binary64.ofPattern_pattern]

end Reread

end Telemetry.Json
