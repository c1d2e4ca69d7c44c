import Telemetry.Proofs.Json.Text
import Telemetry.Proofs.Text
import Mathlib.Tactic.SplitIfs

/-!
# Numbers that are written are read back

Every integer of 64 bits reads back where a comma or the end of a container
stands after it.  A number with a point or an exponent is read by rounding
twice, so not every one of them reads back.
-/

namespace Telemetry.Json

/-! ## Integers -/

def decimal (n : Nat) : Bytes :=
  (Nat.toDigits 10 n).map fun c => UInt8.ofNat c.toNat

/-- The value of digits that follow a number. -/
def digitsFrom (n : Nat) (ds : Bytes) : Nat :=
  ds.foldl (fun n d => n * 10 + digitValue d) n

theorem digitByte {d : Nat} (h : d < 10) :
    isDigit (UInt8.ofNat (Nat.digitChar d).toNat) = true ∧
      digitValue (UInt8.ofNat (Nat.digitChar d).toNat) = d ∧
      (UInt8.ofNat (Nat.digitChar d).toNat = 0x30 → d = 0) := by
  have hall : ∀ d < 10, isDigit (UInt8.ofNat (Nat.digitChar d).toNat) = true ∧
      digitValue (UInt8.ofNat (Nat.digitChar d).toNat) = d ∧
      (UInt8.ofNat (Nat.digitChar d).toNat = 0x30 → d = 0) := by decide
  exact hall d h

theorem decimal_of_lt {n : Nat} (h : n < 10) :
    decimal n = [UInt8.ofNat (Nat.digitChar n).toNat] := by
  simp [decimal, Nat.toDigits_of_lt_base h]

theorem decimal_of_le {n : Nat} (h : 10 ≤ n) :
    decimal n = decimal (n / 10) ++
      [UInt8.ofNat (Nat.digitChar (n % 10)).toNat] := by
  rw [decimal, Nat.toDigits_eq_if (by decide), if_neg (by omega)]
  simp [decimal]

theorem isDigit_decimal (n : Nat) : ∀ b ∈ decimal n, isDigit b = true := by
  induction n using Nat.strongRecOn with
  | ind n ih =>
      by_cases h : n < 10
      · rw [decimal_of_lt h]
        simpa using (digitByte h).1
      · rw [decimal_of_le (by omega)]
        intro b hb
        rcases List.mem_append.mp hb with hb | hb
        · exact ih (n / 10) (by omega) b hb
        · obtain rfl := List.mem_singleton.mp hb
          exact (digitByte (Nat.mod_lt n (by decide))).1

theorem digitsFrom_decimal (n : Nat) : digitsFrom 0 (decimal n) = n := by
  induction n using Nat.strongRecOn with
  | ind n ih =>
      by_cases h : n < 10
      · rw [decimal_of_lt h]
        simp [digitsFrom, (digitByte h).2.1]
      · have hprefix := ih (n / 10) (by omega)
        rw [digitsFrom] at hprefix
        rw [decimal_of_le (by omega), digitsFrom, List.foldl_append, hprefix]
        simp only [List.foldl_cons, List.foldl_nil,
          (digitByte (Nat.mod_lt n (by decide : 0 < 10))).2.1]
        omega

/-- The first digit of a number is zero only if the number is. -/
theorem exists_decimal_eq_cons (n : Nat) :
    ∃ b bs, decimal n = b :: bs ∧ (b = 0x30 → n = 0 ∧ bs = []) := by
  induction n using Nat.strongRecOn with
  | ind n ih =>
      by_cases h : n < 10
      · exact ⟨_, [], decimal_of_lt h, fun hb => ⟨(digitByte h).2.2 hb, rfl⟩⟩
      · obtain ⟨b, bs, heq, hzero⟩ := ih (n / 10) (by omega)
        refine ⟨b, bs ++ [UInt8.ofNat (Nat.digitChar (n % 10)).toNat], ?_,
          fun hb => ?_⟩
        · rw [decimal_of_le (by omega), heq, List.cons_append]
        · have := (hzero hb).1
          omega

theorem le_digitsFrom (n : Nat) (ds : Bytes) : n ≤ digitsFrom n ds := by
  induction ds generalizing n with
  | nil => exact Nat.le_refl n
  | cons d ds ih =>
      have := ih (n * 10 + digitValue d)
      simp only [digitsFrom, List.foldl_cons] at this ⊢
      omega

/-- Digits fit whole when their value does. -/
theorem absorb_eq {bound : Nat} {ds : Bytes} {n : Nat}
    (h : digitsFrom n ds < bound) :
    absorb bound n ds = (digitsFrom n ds, []) := by
  induction ds generalizing n with
  | nil => rfl
  | cons d ds ih =>
      have hnext : digitsFrom (n * 10 + digitValue d) ds < bound := h
      have hle := le_digitsFrom (n * 10 + digitValue d) ds
      rw [absorb, if_pos (by omega), ih hnext]
      rfl

theorem peek_delimited {rest : Bytes} (hrest : Delimited rest) {b : UInt8}
    (hb : b ≠ 0x2C ∧ b ≠ 0x5D ∧ b ≠ 0x7D) (p : Position) :
    Cursor.peek ⟨rest, p⟩ ≠ some b := by
  intro hpeek
  rcases hrest b hpeek with heq | heq | heq
  · exact hb.1 heq
  · exact hb.2.1 heq
  · exact hb.2.2 heq

def NoDigit (rest : Bytes) : Prop :=
  ∀ b, rest.head? = some b → isDigit b = false

theorem Delimited.noDigit {rest : Bytes} (h : Delimited rest) :
    NoDigit rest := by
  intro b hb
  rcases h b hb with rfl | rfl | rfl <;> rfl

def Digits (ds : Bytes) : Prop := ∀ d ∈ ds, isDigit d = true

theorem digits_append {ds rest : Bytes} (hds : Digits ds) (hrest : NoDigit rest)
    (p : Position) :
    Cursor.digits ⟨ds ++ rest, p⟩ = (ds, ⟨rest, p.afterAll ds⟩) := by
  have hnone : rest.takeWhile isDigit = [] := by
    cases rest with
    | nil => rfl
    | cons b bs => simp [hrest b rfl]
  have htake : (ds ++ rest).takeWhile isDigit = ds := by
    rw [List.takeWhile_append_of_pos hds, hnone, List.append_nil]
  have hdrop := List.takeWhile_append_dropWhile (p := isDigit) (l := ds ++ rest)
  rw [htake] at hdrop
  have hdrop := List.append_cancel_left hdrop
  simp only [Cursor.digits, htake, hdrop]

/-- Digits before a point: a zero alone, or digits that do
not begin with one. -/
def IsWhole (ds : Bytes) : Prop :=
  ds = [0x30] ∨ Digits ds ∧ ∃ b bs, ds = b :: bs ∧ b ≠ 0x30

theorem isWhole_decimal (n : Nat) : IsWhole (decimal n) := by
  obtain ⟨b, bs, heq, hzero⟩ := exists_decimal_eq_cons n
  by_cases hb : b = 0x30
  · left
    rw [heq, hb, (hzero hb).2]
  · right
    exact ⟨isDigit_decimal n, b, bs, heq, hb⟩

theorem readNumber_whole {ds rest : Bytes} (hds : IsWhole ds)
    (hlt : digitsFrom 0 ds < wordBound) (hrest : NoDigit rest) (negative : Bool)
    (p : Position) :
    ∃ q, Cursor.readNumber ⟨ds ++ rest, p⟩ negative =
      Cursor.finishInteger ⟨rest, q⟩ negative (digitsFrom 0 ds) 0 := by
  rcases hds with rfl | ⟨hdigits, b, bs, rfl, hb⟩
  · refine ⟨p.after 0x30, ?_⟩
    have hnext : (rest.head?.map isDigit).getD false = false := by
      cases rest with
      | nil => rfl
      | cons r rs => exact hrest r rfl
    simp [Cursor.readNumber, hnext, Cursor.advance, digitsFrom, digitValue]
  · refine ⟨p.afterAll (b :: bs), ?_⟩
    have hread := digits_append hdigits hrest p
    have hfirst : isDigit b = true := hdigits b List.mem_cons_self
    rw [List.cons_append] at hread ⊢
    simp [Cursor.readNumber, hb, hfirst, hread, absorb_eq hlt]

/-- The digits of a number below the bound are read as an integer. -/
theorem readNumber_decimal {n : Nat} (hn : n < wordBound) {rest : Bytes}
    (hrest : Delimited rest) (negative : Bool) (p : Position) :
    ∃ q, Cursor.readNumber ⟨decimal n ++ rest, p⟩ negative =
      Cursor.finishInteger ⟨rest, q⟩ negative n 0 := by
  have hwhole := readNumber_whole (isWhole_decimal n)
    (by rwa [digitsFrom_decimal]) hrest.noDigit negative p
  rwa [digitsFrom_decimal] at hwhole

theorem finishInteger_delimited {rest : Bytes} (hrest : Delimited rest)
    (negative : Bool) (n : Nat) (p : Position) :
    Cursor.finishInteger ⟨rest, p⟩ negative n 0 =
      if !negative then .ok (.natural n, ⟨rest, p⟩)
      else if 0 < n ∧ n ≤ signedBound then .ok (.negative (-n), ⟨rest, p⟩)
      else .ok (.real (Binary64.ofNat n).negate, ⟨rest, p⟩) := by
  have hpoint :=
    peek_delimited hrest (by decide : (0x2E : UInt8) ≠ 0x2C ∧ _ ∧ _) p
  have he := peek_delimited hrest (by decide : (0x65 : UInt8) ≠ 0x2C ∧ _ ∧ _) p
  have hE := peek_delimited hrest (by decide : (0x45 : UInt8) ≠ 0x2C ∧ _ ∧ _) p
  simp [Cursor.finishInteger, hpoint, he, hE]

theorem toNat_lt_of_isDigit {c : Char} (h : c.isDigit = true) :
    c.toNat < 128 := by
  simp only [Char.isDigit, Bool.and_eq_true, decide_eq_true_eq] at h
  have := UInt32.le_iff_toNat_le.mp h.2
  exact Nat.lt_of_le_of_lt this (by decide)

theorem encode_repr (n : Nat) : Utf8.encode (Nat.repr n) = decimal n :=
  Utf8.encode_ofList fun _ hc =>
    toNat_lt_of_isDigit (Nat.isDigit_of_mem_toDigits (by decide) (by decide) hc)

/-- An integer is written as its digits, with a sign when it is negative. -/
theorem writeInt64_eq (i : Int64) :
    writeInt64 i = (if i.toInt < 0 then [0x2D] else []) ++
      decimal i.toInt.natAbs := by
  change Utf8.encode (Int.repr i.toInt) = _
  cases i.toInt with
  | ofNat n =>
      rw [if_neg (by simp)]
      exact encode_repr n
  | negSucc n =>
      rw [if_pos (Int.negSucc_lt_zero n), Int.natAbs_negSucc, ← encode_repr]
      simp only [Int.repr, Utf8.encode, String.toByteArray_append]
      simp
      rfl

theorem isSpace_of_isDigit {b : UInt8} (h : isDigit b = true) :
    Cursor.isSpace b = false := by
  simp only [isDigit, Bool.and_eq_true, decide_eq_true_eq] at h
  simp only [Cursor.isSpace, Bool.or_eq_false_iff, beq_eq_false_iff_ne]
  refine ⟨⟨⟨?_, ?_⟩, ?_⟩, ?_⟩ <;> rintro rfl <;> exact absurd h.1 (by decide)

theorem number_decimal {n : Nat} (hn : n < wordBound) {rest : Bytes}
    (hrest : Delimited rest) (expected : String) (p : Position) :
    ∃ q, Cursor.number expected ⟨decimal n ++ rest, p⟩ =
      .ok (.natural n, ⟨rest, q⟩) := by
  obtain ⟨q, hq⟩ := readNumber_decimal hn hrest false p
  obtain ⟨b, bs, heq, -⟩ := exists_decimal_eq_cons n
  have hb : isDigit b = true := isDigit_decimal n b (by simp [heq])
  have hspace := isSpace_of_isDigit hb
  have hminus : b ≠ 0x2D := by
    rintro rfl
    exact absurd hb (by decide)
  refine ⟨q, ?_⟩
  rw [finishInteger_delimited hrest] at hq
  rw [heq, List.cons_append] at hq ⊢
  simp [Cursor.number, token_cons hspace, bind, Except.bind, Cursor.sees,
    Cursor.peek, hminus, Cursor.seesDigit, hb, hq]

theorem number_negative {n : Nat} (hpos : 0 < n) (hn : n ≤ signedBound)
    {rest : Bytes} (hrest : Delimited rest) (expected : String) (p : Position) :
    ∃ q, Cursor.number expected ⟨0x2D :: decimal n ++ rest, p⟩ =
      .ok (.negative (-n), ⟨rest, q⟩) := by
  have hbound : n < wordBound := by
    have : signedBound < wordBound := by decide
    omega
  obtain ⟨q, hq⟩ := readNumber_decimal hbound hrest true (p.after 0x2D)
  refine ⟨q, ?_⟩
  rw [finishInteger_delimited hrest] at hq
  simp only [hpos, hn, and_self, if_true, Bool.not_true, Bool.false_eq_true,
    if_false] at hq
  simp [Cursor.number, token_cons (by decide : Cursor.isSpace 0x2D = false),
    bind, Except.bind, Cursor.sees, Cursor.peek, Cursor.advance, hq]

theorem reads_int64 (i : Int64) : Reads Cursor.int64 (writeInt64 i) i := by
  intro rest p hrest
  rw [writeInt64_eq]
  have hlower := i.le_toInt
  have hupper := i.toInt_lt
  split
  · next hneg =>
      have hbound : i.toInt.natAbs ≤ signedBound := by
        have : signedBound = 2 ^ 63 := rfl
        omega
      obtain ⟨q, hq⟩ := number_negative (by omega) hbound hrest "i64" p
      refine ⟨q, ?_⟩
      have habs : -(i.toInt.natAbs : Int) = i.toInt := by omega
      rw [habs] at hq
      simp only [List.cons_append, List.nil_append] at hq ⊢
      simp [Cursor.int64, hq, bind, Except.bind, pure, Except.pure]
  · next hpos =>
      have hbound : i.toInt.natAbs < wordBound := by
        have : wordBound = 2 ^ 64 := rfl
        omega
      obtain ⟨q, hq⟩ := number_decimal hbound hrest "i64" p
      refine ⟨q, ?_⟩
      have hsigned : i.toInt.natAbs < signedBound := by
        have : signedBound = 2 ^ 63 := rfl
        omega
      have hback : Int64.ofNat i.toInt.natAbs = i := by
        rw [← Int64.ofInt_eq_ofNat, Int.natAbs_of_nonneg (by omega),
          Int64.ofInt_toInt]
      simp [Cursor.int64, hq, bind, Except.bind, pure, Except.pure,
        hsigned, hback]

/-! ## Numbers that read back -/

/-- The number is read back from what is printed. -/
def Readable (x : Binary64) : Prop := document Cursor.real (writeReal x) = .ok x

theorem readable_iff {x : Binary64} :
    Readable x ↔ (document Cursor.real (writeReal x)).toOption = some x := by
  unfold Readable
  cases document Cursor.real (writeReal x) <;> simp [Except.toOption]

instance (x : Binary64) : Decidable (Readable x) :=
  decidable_of_iff _ readable_iff.symm

/-- Nothing that is not finite reads back, because it is written as null. -/
theorem Readable.isFinite {x : Binary64} (h : Readable x) :
    x.isFinite = true := by
  by_contra hinfinite
  have hnull : writeReal x = [0x6E, 0x75, 0x6C, 0x6C] := if_neg hinfinite
  have hrefused : (document Cursor.real [0x6E, 0x75, 0x6C, 0x6C]).toOption =
      none := by decide
  rw [readable_iff, hnull, hrefused] at h
  nomatch h

/-! ## The spelling of a number -/

def isNumberChar (c : Char) : Bool :=
  c.isDigit || c == '.' || c == '-' || c == '+' || c == 'e'

theorem isNumberChar_digits (n : Nat) :
    (Decimal.digits n).all isNumberChar = true := by
  rw [List.all_eq_true]
  intro c hc
  have := Nat.isDigit_of_mem_toDigits (by decide) (by decide) hc
  simp [isNumberChar, this]

theorem isNumberChar_positional (d : Decimal) :
    (d.positional ['.', '0']).all isNumberChar = true := by
  have hdigits := List.all_eq_true.mp (isNumberChar_digits d.coefficient)
  have hzeros (n : Nat) : (List.replicate n '0').all isNumberChar = true := by
    simp [isNumberChar]
  have htake (n : Nat) :
      ((Decimal.digits d.coefficient).take n).all isNumberChar = true :=
    List.all_eq_true.mpr fun c hc => hdigits c (List.mem_of_mem_take hc)
  have hdrop (n : Nat) :
      ((Decimal.digits d.coefficient).drop n).all isNumberChar = true :=
    List.all_eq_true.mpr fun c hc => hdigits c (List.mem_of_mem_drop hc)
  unfold Decimal.positional
  dsimp only
  split_ifs
  · simp only [List.all_append, isNumberChar_digits, hzeros]
    decide
  · simp only [List.all_append, List.all_cons, htake, hdrop]
    decide
  · simp only [List.all_append, List.all_cons, isNumberChar_digits, hzeros]
    decide

theorem isNumberChar_scientific (d : Decimal) :
    d.scientific.all isNumberChar = true := by
  have htail : ((if d.order < 0 then ['e', '-'] else ['e', '+']) ++
      Decimal.digits d.order.natAbs).all isNumberChar = true := by
    rw [List.all_append, isNumberChar_digits]
    split <;> decide
  have hdigits := isNumberChar_digits d.coefficient
  unfold Decimal.scientific
  dsimp only
  split
  · exact htail
  · next first heq =>
      rw [heq, List.all_cons] at hdigits
      rw [List.all_cons, htail]
      simpa using hdigits
  · next first more _ heq =>
      rw [heq, List.all_cons, Bool.and_eq_true] at hdigits
      rw [List.all_append, htail, List.all_cons, List.all_cons, hdigits.1,
        hdigits.2]
      decide

theorem isNumberChar_toNumberChars (x : Binary64) :
    x.toNumberChars.all isNumberChar = true := by
  have hpositional := isNumberChar_positional (x.shortest .even)
  have hscientific := isNumberChar_scientific (x.shortest .even)
  unfold Binary64.toNumberChars Binary64.signed
  dsimp only
  split_ifs
  · simpa [isNumberChar] using hpositional
  · simpa [isNumberChar] using hscientific
  · exact hpositional
  · exact hscientific

theorem isDigit_ofNat_toNat {c : Char} (h : c.isDigit = true) :
    isDigit (UInt8.ofNat c.toNat) = true := by
  simp only [Char.isDigit, Bool.and_eq_true, decide_eq_true_eq] at h
  have hlower : 48 ≤ c.toNat := UInt32.le_iff_toNat_le.mp h.1
  have hupper : c.toNat ≤ 57 := UInt32.le_iff_toNat_le.mp h.2
  have hbyte : (UInt8.ofNat c.toNat).toNat = c.toNat := by
    rw [UInt8.toNat_ofNat']
    omega
  simp only [isDigit, Bool.and_eq_true, decide_eq_true_eq,
    UInt8.le_iff_toNat_le, hbyte]
  exact ⟨hlower, hupper⟩

/-- A number is spelled neither with white space nor with the first
letter of `null`. -/
theorem byte_of_mem_writeReal {x : Binary64} (h : x.isFinite = true) {b : UInt8}
    (hb : b ∈ writeReal x) : Cursor.isSpace b = false ∧ b ≠ 0x6E := by
  rw [writeReal, if_pos h] at hb
  obtain ⟨c, hc, rfl⟩ := List.mem_map.mp hb
  have hchar := List.all_eq_true.mp (isNumberChar_toNumberChars x) c hc
  by_cases hdigit : c.isDigit = true
  · have hbyte := isDigit_ofNat_toNat hdigit
    refine ⟨isSpace_of_isDigit hbyte, fun heq => ?_⟩
    rw [heq] at hbyte
    exact absurd hbyte (by decide)
  · simp only [isNumberChar, hdigit, Bool.false_or, Bool.or_eq_true, beq_iff_eq]
      at hchar
    rcases hchar with ((rfl | rfl) | rfl) | rfl <;> decide

theorem digits_ne_nil (n : Nat) : Decimal.digits n ≠ [] := by
  intro h
  have := exists_decimal_eq_cons n
  simp only [decimal] at this
  rw [Decimal.digits] at h
  simp [h] at this

theorem writeReal_ne_nil {x : Binary64} (h : x.isFinite = true) :
    writeReal x ≠ [] := by
  have hpositional (d : Decimal) : d.positional ['.', '0'] ≠ [] := by
    unfold Decimal.positional
    dsimp only
    split_ifs <;> simp
  have hscientific (d : Decimal) : d.scientific ≠ [] := by
    unfold Decimal.scientific
    dsimp only
    split
    · next heq => exact absurd heq (digits_ne_nil _)
    · simp
    · simp
  rw [writeReal, if_pos h]
  unfold Binary64.toNumberChars Binary64.signed
  dsimp only
  split_ifs <;> simp [hpositional, hscientific]

/-- The binary64 number that a number is read as. -/
def Number.toReal : Number → Binary64
  | .natural value => .ofNat value
  | .negative value => .ofInt value
  | .real value => value

theorem real_eq (c : Cursor) :
    c.real = (c.number "f64").map fun r => (r.1.toReal, r.2) := by
  unfold Cursor.real
  cases c.number "f64" with
  | error e => rfl
  | ok r =>
      obtain ⟨n, c'⟩ := r
      cases n <;> rfl

end Telemetry.Json
