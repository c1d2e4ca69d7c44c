import Telemetry.Text.Hex
import Telemetry.Text.Blank
import Mathlib.Data.List.TakeWhile

/-!
# ASCII text

The bytes of an ASCII text are its characters, and a text whose bytes are all
ASCII is one.  A text without blanks is not changed by trimming.  Bytes are read
back from their hexadecimal digits, in either case and from nothing else.
-/

namespace Telemetry

namespace Utf8

/-- The bytes of an ASCII text are its characters. -/
theorem encode_ofList {cs : List Char} (h : ∀ c ∈ cs, c.toNat < 128) :
    encode (String.ofList cs) = cs.map fun c => UInt8.ofNat c.toNat := by
  unfold encode
  rw [String.toByteArray_ofList]
  induction cs with
  | nil => simp
  | cons c cs ih =>
      have hc := h c List.mem_cons_self
      have hsize : c.utf8Size = 1 := Char.utf8Size_eq_one_iff.mpr (by
        rw [UInt32.le_iff_toNat_le]
        exact Nat.le_of_lt_succ hc)
      rw [List.utf8Encode_cons, List.utf8Encode_singleton,
        String.utf8EncodeChar_eq_singleton hsize]
      simp [ih fun d hd => h d (List.mem_cons_of_mem _ hd)]
      rfl

theorem toNat_ofNat_of_lt {n : Nat} (h : n < 128) :
    (Char.ofNat n).toNat = n := by
  have hall : ∀ k < 128, (Char.ofNat k).toNat = k := by decide
  exact hall n h

def asciiText (bytes : Bytes) : String :=
  String.ofList (bytes.map fun b => Char.ofNat b.toNat)

theorem encode_asciiText {bytes : Bytes} (h : ∀ b ∈ bytes, b.toNat < 128) :
    encode (asciiText bytes) = bytes := by
  unfold asciiText
  rw [encode_ofList, List.map_map]
  · refine (List.map_congr_left fun b hb => ?_).trans (List.map_id bytes)
    rw [Function.comp_apply, toNat_ofNat_of_lt (h b hb), UInt8.ofNat_toNat, id]
  · intro c hc
    obtain ⟨b, hb, rfl⟩ := List.mem_map.mp hc
    rw [toNat_ofNat_of_lt (h b hb)]
    exact h b hb

/-- A text whose bytes are all ASCII has them as its characters. -/
theorem toList_of_forall_lt {s : String} (h : ∀ b ∈ encode s, b.toNat < 128) :
    s.toList = (encode s).map fun b => Char.ofNat b.toNat := by
  have hlist := congrArg String.toList (encode_injective (encode_asciiText h))
  rwa [asciiText, String.toList_ofList, eq_comm] at hlist

end Utf8

namespace Text

theorem trimEndChars_eq_self {cs : List Char}
    (h : ∀ c ∈ cs, isBlank c = false) :
    trimEndChars cs = cs := by
  have hreverse : cs.reverse.dropWhile isBlank = cs.reverse := by
    rw [List.dropWhile_eq_self_iff]
    intro hlength
    rw [Bool.not_eq_true]
    exact h _ (List.mem_reverse.mp (List.getElem_mem hlength))
  unfold trimEndChars
  rw [hreverse, List.reverse_reverse]

theorem trim_ofList {cs : List Char} (h : ∀ c ∈ cs, isBlank c = false) :
    trim (String.ofList cs) = String.ofList cs := by
  have hdrop : cs.dropWhile isBlank = cs := by
    rw [List.dropWhile_eq_self_iff]
    intro hlength
    rw [Bool.not_eq_true]
    exact h _ (List.getElem_mem hlength)
  unfold trim trimChars
  rw [String.toList_ofList, hdrop, trimEndChars_eq_self h]

/-- Trimming leaves nothing exactly of the texts that hold
nothing but blanks. -/
theorem trim_eq_empty_iff {s : String} :
    trim s = "" ↔ isBlankText s = true := by
  unfold trim trimChars trimEndChars isBlankText
  rw [String.ofList_eq_empty_iff, List.reverse_eq_nil_iff,
    List.dropWhile_eq_nil_iff, List.all_eq_true]
  simp only [List.mem_reverse]
  constructor
  · intro h c hc
    rw [← List.takeWhile_append_dropWhile (p := isBlank) (l := s.toList)] at hc
    rcases List.mem_append.mp hc with hc | hc
    · exact List.mem_takeWhile_imp hc
    · exact h c hc
  · intro h c hc
    exact h c ((List.dropWhile_suffix isBlank).subset hc)

end Text

namespace Hex

/-! ## Hexadecimal digits -/

/-- The digits that are written. -/
def digits : List Char := "0123456789abcdef".toList

theorem digit_mem {n : UInt8} (h : n < 16) : digit n ∈ digits := by
  have hall : ∀ k < 16, digit (UInt8.ofNat k) ∈ digits := by decide
  have hn := hall n.toNat (UInt8.lt_iff_toNat_lt.mp h)
  rwa [UInt8.ofNat_toNat] at hn

theorem value?_digit {n : UInt8} (h : n < 16) :
    value? (UInt8.ofNat (digit n).toNat) = some n := by
  have hall : ∀ k < 16,
      value? (UInt8.ofNat (digit (UInt8.ofNat k)).toNat) =
        some (UInt8.ofNat k) := by decide
  have hn := hall n.toNat (UInt8.lt_iff_toNat_lt.mp h)
  rwa [UInt8.ofNat_toNat] at hn

theorem high_lt (b : UInt8) : b / 16 < 16 := by
  have hb := b.toNat_lt
  rw [UInt8.lt_iff_toNat_lt, UInt8.toNat_div]
  exact Nat.div_lt_of_lt_mul hb

theorem low_lt (b : UInt8) : b % 16 < 16 := by
  rw [UInt8.lt_iff_toNat_lt, UInt8.toNat_mod]
  exact Nat.mod_lt _ (by decide)

theorem high_mul_add_low (b : UInt8) : b / 16 * 16 + b % 16 = b := by
  have hb := b.toNat_lt
  apply UInt8.toNat_inj.mp
  simp only [UInt8.toNat_add, UInt8.toNat_mul, UInt8.toNat_div, UInt8.toNat_mod]
  have h16 : (16 : UInt8).toNat = 16 := rfl
  rw [h16]
  omega

theorem encodeChars_cons (b : UInt8) (bytes : Bytes) :
    encodeChars (b :: bytes) = digit (b / 16) :: digit (b % 16) ::
      encodeChars bytes := rfl

theorem mem_digits_of_mem_encodeChars {bytes : Bytes} {c : Char}
    (h : c ∈ encodeChars bytes) :
    c ∈ digits := by
  unfold encodeChars at h
  obtain ⟨b, -, hc⟩ := List.mem_flatMap.mp h
  rw [List.mem_cons, List.mem_singleton] at hc
  rcases hc with rfl | rfl
  · exact digit_mem (high_lt b)
  · exact digit_mem (low_lt b)

theorem of_mem_encodeChars {p : Char → Bool} (hp : digits.all p = true)
    {bytes : Bytes} {c : Char} (h : c ∈ encodeChars bytes) : p c = true :=
  List.all_eq_true.mp hp c (mem_digits_of_mem_encodeChars h)

theorem isBlank_of_mem_encodeChars {bytes : Bytes} {c : Char}
    (h : c ∈ encodeChars bytes) :
    Text.isBlank c = false := by
  have hblank : (!Text.isBlank c) = true :=
    of_mem_encodeChars (p := fun c => !Text.isBlank c) (by decide) h
  simpa using hblank

theorem decodePairs_encodeChars (position : Nat) (bytes : Bytes) :
    decodePairs position ((encodeChars bytes).map fun c =>
      UInt8.ofNat c.toNat) = .ok bytes := by
  induction bytes generalizing position with
  | nil => rfl
  | cons b bytes ih =>
      rw [encodeChars_cons, List.map_cons, List.map_cons]
      unfold decodePairs
      rw [value?_digit (high_lt b), value?_digit (low_lt b)]
      simp only [bind, Except.bind, ih, high_mul_add_low]
      rfl

theorem length_encodeChars (bytes : Bytes) :
    (encodeChars bytes).length = 2 * bytes.length := by
  induction bytes with
  | nil => rfl
  | cons b bytes ih =>
      rw [encodeChars_cons]
      simp only [List.length_cons, ih]
      omega

/-- Bytes are read back from their hexadecimal text. -/
theorem decode_encode (bytes : Bytes) :
    decode (Utf8.encode (encode bytes)) = .ok bytes := by
  have hchars : Utf8.encode (encode bytes) =
      (encodeChars bytes).map fun c => UInt8.ofNat c.toNat :=
    Utf8.encode_ofList fun c hc =>
      of_decide_eq_true
        (of_mem_encodeChars (p := fun c => c.toNat < 128) (by decide) hc)
  have heven : ¬ ((encodeChars bytes).map fun c => UInt8.ofNat c.toNat).length %
      2 = 1 := by
    rw [List.length_map, length_encodeChars]
    omega
  unfold decode
  rw [hchars, if_neg heven]
  exact decodePairs_encodeChars 0 bytes

/-! ## Digits of either case -/

def lowerChar (b : UInt8) : Char := (Char.ofNat b.toNat).toLower

/-- Whether a byte is a digit of either case. -/
def IsDigit (b : UInt8) : Prop := lowerChar b ∈ digits

theorem digit_of_value? {b n : UInt8} (h : value? b = some n) :
    n < 16 ∧ digit n = lowerChar b := by
  have hall : ∀ k < 256, (value? (UInt8.ofNat k)).all
      (fun n => n < 16 && digit n == lowerChar (UInt8.ofNat k)) = true := by
        decide +kernel
  have hb := hall b.toNat b.toNat_lt
  rw [UInt8.ofNat_toNat, h] at hb
  simpa using hb

theorem value?_eq_none_iff {b : UInt8} : value? b = none ↔ ¬ IsDigit b := by
  have hall : ∀ k < 256, (value? (UInt8.ofNat k)).isNone =
      !digits.contains (lowerChar (UInt8.ofNat k)) := by decide +kernel
  have hb := hall b.toNat b.toNat_lt
  rw [UInt8.ofNat_toNat] at hb
  rw [← Option.isNone_iff_eq_none, hb, IsDigit]
  simp

theorem digit_inj {m n : UInt8} (hm : m < 16) (hn : n < 16) :
    digit m = digit n ↔ m = n := by
  constructor
  · intro h
    have hvalue := value?_digit hm
    rw [h, value?_digit hn] at hvalue
    exact (Option.some.inj hvalue).symm
  · intro h
    rw [h]

theorem isDigit_of_map_lowerChar {ds bytes : Bytes}
    (h : ds.map lowerChar = encodeChars bytes) {b : UInt8} (hb : b ∈ ds) :
    IsDigit b :=
  mem_digits_of_mem_encodeChars (h ▸ List.mem_map_of_mem hb)

/-- The two digits of a byte, read as its halves. -/
theorem halves_eq {high low b : UInt8} (hhigh : high < 16) (hlow : low < 16) :
    high = b / 16 ∧ low = b % 16 ↔ high * 16 + low = b := by
  have hh := UInt8.lt_iff_toNat_lt.mp hhigh
  have hl := UInt8.lt_iff_toNat_lt.mp hlow
  have hb := b.toNat_lt
  simp only [← UInt8.toNat_inj, UInt8.toNat_add, UInt8.toNat_mul,
    UInt8.toNat_div, UInt8.toNat_mod]
  have h16 : (16 : UInt8).toNat = 16 := rfl
  rw [h16] at hh hl ⊢
  omega

/-- Bytes are read from the digits with which they are
written, in either case. -/
theorem decodePairs_eq_ok_iff {position : Nat} {ds bytes : Bytes} :
    decodePairs position ds = .ok bytes ↔
      ds.map lowerChar = encodeChars bytes := by
  fun_induction decodePairs position ds generalizing bytes with
  | case1 position =>
      cases bytes with
      | nil => exact ⟨fun _ => rfl, fun _ => rfl⟩
      | cons b bytes => simp [encodeChars_cons]
  | case2 position a =>
      cases bytes with
      | nil => simp [encodeChars]
      | cons b bytes => simp [encodeChars_cons]
  | case3 position a b rest ha =>
      constructor
      · intro h
        nomatch h
      · intro h
        exact absurd (isDigit_of_map_lowerChar h (by simp))
          (value?_eq_none_iff.mp ha)
  | case4 position a b rest high hb ha =>
      constructor
      · intro h
        nomatch h
      · intro h
        exact absurd (isDigit_of_map_lowerChar h (by simp))
          (value?_eq_none_iff.mp hb)
  | case5 position a b rest high low hb ha ih =>
      obtain ⟨hhigh, hdigitHigh⟩ := digit_of_value? ha
      obtain ⟨hlow, hdigitLow⟩ := digit_of_value? hb
      have hrest : (do
          let bytes ← decodePairs (position + 2) rest
          return (high * 16 + low) :: bytes : Except Error Bytes) = .ok bytes ↔
          ∃ tail, decodePairs (position + 2) rest = .ok tail ∧
            (high * 16 + low) :: tail = bytes := by
        cases decodePairs (position + 2) rest <;>
          simp [bind, Except.bind, pure, Except.pure]
      rw [hrest]
      cases bytes with
      | nil => simp [encodeChars]
      | cons c bytes =>
          rw [encodeChars_cons, List.map_cons, List.map_cons, ← hdigitHigh,
            ← hdigitLow, List.cons.injEq, List.cons.injEq,
            digit_inj hhigh (high_lt c), digit_inj hlow (low_lt c), ← and_assoc,
            halves_eq hhigh hlow, ← ih]
          constructor
          · rintro ⟨tail, htail, heq⟩
            obtain ⟨hhead, rfl⟩ := List.cons.inj heq
            exact ⟨hhead, htail⟩
          · rintro ⟨rfl, htail⟩
            exact ⟨bytes, htail, rfl⟩

/-- Only digits that do not pair up and bytes that are no digits are refused. -/
theorem of_decodePairs_eq_error {position : Nat} {ds : Bytes} {e : Error}
    (h : decodePairs position ds = .error e) :
    ds.length % 2 = 1 ∨ ∃ b ∈ ds, ¬ IsDigit b := by
  fun_induction decodePairs position ds with
  | case1 position => nomatch h
  | case2 position a => exact .inl rfl
  | case3 position a b rest ha =>
      exact .inr ⟨a, by simp, value?_eq_none_iff.mp ha⟩
  | case4 position a b rest high hb ha =>
      exact .inr ⟨b, by simp, value?_eq_none_iff.mp hb⟩
  | case5 position a b rest high low hb ha ih =>
      cases hrest : decodePairs (position + 2) rest with
      | ok tail =>
          rw [hrest] at h
          nomatch h
      | error e' =>
          rw [hrest] at h
          rcases ih (hrest.trans h) with hodd | ⟨c, hc, hdigit⟩
          · left
            rw [List.length_cons, List.length_cons]
            omega
          · exact .inr ⟨c, by simp [hc], hdigit⟩

theorem decode_eq_ok_iff {ds bytes : Bytes} :
    decode ds = .ok bytes ↔ ds.map lowerChar = encodeChars bytes := by
  rw [decode]
  by_cases hodd : ds.length % 2 = 1
  · rw [if_pos hodd]
    constructor
    · intro h
      nomatch h
    · intro h
      have hlength := congrArg List.length h
      rw [List.length_map, length_encodeChars] at hlength
      omega
  · rw [if_neg hodd]
    exact decodePairs_eq_ok_iff

theorem exists_decode_eq_error_iff {ds : Bytes} :
    (∃ e, decode ds = .error e) ↔
      ds.length % 2 = 1 ∨ ∃ b ∈ ds, ¬ IsDigit b := by
  constructor
  · rintro ⟨e, h⟩
    rw [decode] at h
    by_cases hodd : ds.length % 2 = 1
    · exact .inl hodd
    · rw [if_neg hodd] at h
      exact of_decodePairs_eq_error h
  · intro h
    cases hdecode : decode ds with
    | error e => exact ⟨e, rfl⟩
    | ok bytes =>
        have hchars := decode_eq_ok_iff.mp hdecode
        rcases h with hodd | ⟨b, hb, hdigit⟩
        · have hlength := congrArg List.length hchars
          rw [List.length_map, length_encodeChars] at hlength
          omega
        · exact absurd (isDigit_of_map_lowerChar hchars hb) hdigit

theorem lt_of_isDigit {b : UInt8} (h : IsDigit b) : b.toNat < 128 := by
  have hall : ∀ k < 256, lowerChar (UInt8.ofNat k) ∈ digits → k < 128 := by
    decide +kernel
  refine hall b.toNat b.toNat_lt ?_
  rwa [UInt8.ofNat_toNat]

/-- Only ASCII letters change in lower case, so no other
character becomes a digit. -/
theorem lt_of_toLower_mem_digits {c : Char} (h : c.toLower ∈ digits) :
    c.toNat < 128 := by
  by_contra hlt
  have hsame : c.toLower = c := by
    refine dif_neg ?_
    rintro ⟨-, hupper⟩
    have hz : c.toNat ≤ 90 := UInt32.le_iff_toNat_le.mp hupper
    omega
  have hascii : digits.all (fun d => d.toNat < 128) = true := by decide
  rw [hsame] at h
  exact hlt (by simpa using List.all_eq_true.mp hascii c h)

/-- The bytes of a text are digits of the given bytes exactly when the text is,
in lower case, what they are written as. -/
theorem map_lowerChar_encode_iff {s : String} {bytes : Bytes} :
    (Utf8.encode s).map lowerChar = encodeChars bytes ↔
      s.map Char.toLower = encode bytes := by
  rw [← String.toList_inj, String.toList_map, encode, String.toList_ofList]
  constructor
  · intro h
    have hascii : ∀ b ∈ Utf8.encode s, b.toNat < 128 :=
      fun b hb => lt_of_isDigit (isDigit_of_map_lowerChar h hb)
    rw [Utf8.toList_of_forall_lt hascii, List.map_map, ← h]
    rfl
  · intro h
    have hascii : ∀ c ∈ s.toList, c.toNat < 128 := by
      intro c hc
      apply lt_of_toLower_mem_digits
      exact mem_digits_of_mem_encodeChars (h ▸ List.mem_map_of_mem hc)
    have hencode := Utf8.encode_ofList hascii
    rw [String.ofList_toList] at hencode
    rw [hencode, List.map_map, ← h]
    refine List.map_congr_left fun c hc => ?_
    have hbyte : (UInt8.ofNat c.toNat).toNat = c.toNat := by
      rw [UInt8.toNat_ofNat']
      exact Nat.mod_eq_of_lt (Nat.lt_trans (hascii c hc) (by decide))
    rw [Function.comp_apply, lowerChar, hbyte, Char.ofNat_toNat]

end Hex

end Telemetry
