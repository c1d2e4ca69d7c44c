import Telemetry.Text.Cut
import Mathlib.Data.List.Infix

/-!
# Where a text may be cut

The bytes of a text are those of its characters, one after the other.  The first
byte of a character shows that a character begins with it, and no other byte
does; so the places to cut are the places between characters, and a search
backwards finds the last one.
-/

namespace Telemetry.Utf8

variable {cs front back : List Char} {bytes : Bytes} {place : Nat}

/-! ## Bytes of characters -/

def encodeList (cs : List Char) : Bytes := cs.flatMap String.utf8EncodeChar

theorem encodeList_append (front back : List Char) :
    encodeList (front ++ back) = encodeList front ++ encodeList back :=
  List.flatMap_append

theorem encode_ofList_eq (cs : List Char) :
    encode (String.ofList cs) = encodeList cs := by
  unfold encode
  rw [String.toByteArray_ofList, List.utf8Encode, List.data_toByteArray]
  rfl

theorem encode_eq (s : String) : encode s = encodeList s.toList := by
  rw [← encode_ofList_eq, String.ofList_toList]

theorem encode_append (s t : String) :
    encode (s ++ t) = encode s ++ encode t := by
  rw [encode_eq, encode_eq, encode_eq, String.toList_append, encodeList_append]

theorem begins_ofNat_iff {n : Nat} (h : n < 256) :
    begins (UInt8.ofNat n) = true ↔ n < 128 ∨ 192 ≤ n := by
  have hn : (UInt8.ofNat n).toNat = n := UInt8.toNat_ofNat_of_lt h
  unfold begins
  rw [Bool.or_eq_true, decide_eq_true_iff, decide_eq_true_iff,
    UInt8.lt_iff_toNat_lt, UInt8.le_iff_toNat_le, hn]
  rfl

/-- A character begins with its first byte and with no other one. -/
theorem utf8EncodeChar_eq_cons (c : Char) :
    ∃ first more, String.utf8EncodeChar c = first :: more ∧
      begins first = true ∧
      ∀ b ∈ more, begins b = false := by
  have hfirst {n : Nat} (h : n < 256) (hn : n < 128 ∨ 192 ≤ n) :
      begins (UInt8.ofNat n) = true :=
    (begins_ofNat_iff h).mpr hn
  have hmore (n : Nat) : begins (UInt8.ofNat (n % 64 + 128)) = false := by
    rw [← Bool.not_eq_true, begins_ofNat_iff (by omega)]
    omega
  unfold String.utf8EncodeChar
  simp only
  -- A character has one to four bytes.
  split_ifs with hone htwo hthree
  · exact ⟨_, _, rfl, hfirst (by omega) (.inl (by omega)),
      List.forall_mem_nil _⟩
  · refine ⟨_, _, rfl, hfirst (by omega) (.inr (by omega)), ?_⟩
    simp only [List.forall_mem_cons, hmore]
    simp
  · refine ⟨_, _, rfl, hfirst (by omega) (.inr (by omega)), ?_⟩
    simp only [List.forall_mem_cons, hmore]
    simp
  · refine ⟨_, _, rfl, hfirst (by omega) (.inr (by omega)), ?_⟩
    simp only [List.forall_mem_cons, hmore]
    simp

theorem encodeList_eq_nil_iff : encodeList cs = [] ↔ cs = [] := by
  cases cs with
  | nil => simp [encodeList]
  | cons c cs =>
      refine iff_of_false (fun hnil => ?_) (List.cons_ne_nil c cs)
      rw [encodeList, List.flatMap_cons, List.append_eq_nil_iff] at hnil
      obtain ⟨first, more, heq, -⟩ := utf8EncodeChar_eq_cons c
      exact List.cons_ne_nil first more (heq.symm.trans hnil.1)

/-! ## Places between characters -/

theorem isBoundary_zero (bytes : Bytes) : isBoundary bytes 0 = true := rfl

theorem isBoundary_length (bytes : Bytes) :
    isBoundary bytes bytes.length = true := by
  unfold isBoundary
  rw [List.getElem?_eq_none (Nat.le_refl _)]
  simp

/-- A place within what stands after some bytes; its beginning apart. -/
theorem isBoundary_append_add (first bytes : Bytes) (hplace : 0 < place) :
    isBoundary (first ++ bytes) (first.length + place) =
      isBoundary bytes place := by
  have hne : (first.length + place == 0) = false := by simp; omega
  have hne' : (place == 0) = false := by simp; omega
  unfold isBoundary
  rw [List.getElem?_append_right (Nat.le_add_right _ _),
    Nat.add_sub_cancel_left, List.length_append, hne, hne']
  cases bytes[place]? with
  | some b => rfl
  | none => simp

/-- The place after a text is one to cut, whatever text follows. -/
theorem isBoundary_encodeList_append (front back : List Char) :
    isBoundary (encodeList front ++ encodeList back) (encodeList front).length =
      true := by
  cases back with
  | nil =>
      rw [encodeList_eq_nil_iff.mpr rfl, List.append_nil]
      exact isBoundary_length _
  | cons c back =>
      obtain ⟨first, more, heq, hfirst, -⟩ := utf8EncodeChar_eq_cons c
      unfold isBoundary
      rw [List.getElem?_append_right (Nat.le_refl _), Nat.sub_self,
        encodeList.eq_1 (c :: back), List.flatMap_cons, heq]
      simp [hfirst]

/-- No place within a character is one to cut. -/
theorem isBoundary_of_lt_utf8EncodeChar (c : Char) (rest : Bytes)
    (hpos : 0 < place) (hlt : place < (String.utf8EncodeChar c).length) :
    isBoundary (String.utf8EncodeChar c ++ rest) place = false := by
  obtain ⟨first, more, heq, -, hmore⟩ := utf8EncodeChar_eq_cons c
  obtain ⟨before, rfl⟩ := Nat.exists_eq_succ_of_ne_zero (Nat.ne_of_gt hpos)
  rw [heq, List.length_cons, Nat.succ_lt_succ_iff] at hlt
  have hb := hmore more[before] (List.getElem_mem hlt)
  unfold isBoundary
  rw [heq, List.cons_append, List.getElem?_cons_succ,
    List.getElem?_append_left hlt, List.getElem?_eq_getElem hlt]
  simpa using hb

/-- The places to cut are those between characters. -/
theorem isBoundary_encodeList_iff :
    isBoundary (encodeList cs) place = true ↔
      ∃ front back, cs = front ++ back ∧ (encodeList front).length = place := by
  constructor
  · intro h
    induction cs generalizing place with
    | nil =>
        refine ⟨[], [], rfl, ?_⟩
        rcases Nat.eq_zero_or_pos place with rfl | hpos
        · rfl
        · unfold isBoundary at h
          rw [beq_false_of_ne (Nat.ne_of_gt hpos)] at h
          exact (eq_of_beq h).symm
    | cons c cs ih =>
        have hcons : encodeList (c :: cs) = String.utf8EncodeChar c ++
            encodeList cs := rfl
        rw [hcons] at h
        rcases Nat.eq_zero_or_pos place with rfl | hpos
        · exact ⟨[], c :: cs, rfl, rfl⟩
        · have hle : (String.utf8EncodeChar c).length ≤ place := by
            by_contra hlt
            rw [isBoundary_of_lt_utf8EncodeChar c _ hpos (Nat.lt_of_not_le hlt)]
              at h
            exact Bool.false_ne_true h
          obtain ⟨after, rfl⟩ := Nat.exists_eq_add_of_le hle
          have hafter : isBoundary (encodeList cs) after = true := by
            rcases Nat.eq_zero_or_pos after with rfl | hafter
            · exact isBoundary_zero _
            · rwa [isBoundary_append_add _ _ hafter] at h
          obtain ⟨front, back, rfl, hfront⟩ := ih hafter
          refine ⟨c :: front, back, rfl, ?_⟩
          rw [← hfront]
          exact List.length_append
  · rintro ⟨front, back, rfl, rfl⟩
    rw [encodeList_append]
    exact isBoundary_encodeList_append front back

/-! ## The search -/

theorem boundaryUpTo_le (bytes : Bytes) (place : Nat) :
    boundaryUpTo bytes place ≤ place := by
  fun_induction boundaryUpTo bytes place with
  | case1 => exact Nat.le_refl 0
  | case2 => exact Nat.le_refl _
  | case3 place _ ih => exact Nat.le_succ_of_le ih

theorem isBoundary_boundaryUpTo (bytes : Bytes) (place : Nat) :
    isBoundary bytes (boundaryUpTo bytes place) = true := by
  fun_induction boundaryUpTo bytes place with
  | case1 => rfl
  | case2 _ h => exact h
  | case3 _ _ ih => exact ih

theorem le_boundaryUpTo {other : Nat} (h : isBoundary bytes other = true)
    (hle : other ≤ place) :
    other ≤ boundaryUpTo bytes place := by
  fun_induction boundaryUpTo bytes place with
  | case1 => exact hle
  | case2 => exact hle
  | case3 place hno ih =>
      rcases Nat.eq_or_lt_of_le hle with rfl | hlt
      · exact absurd h hno
      · exact ih (Nat.le_of_lt_succ hlt)

/-! ## The beginning of a text -/

theorem cut_of_toList_eq {s : String} (h : s.toList = front ++ back) :
    cut s (encodeList front).length = .ok (String.ofList front) := by
  have hplace : isBoundary (encode s) (encodeList front).length = true := by
    rw [encode_eq, h]
    exact isBoundary_encodeList_iff.mpr ⟨front, back, rfl, rfl⟩
  have htake : (encode s).take (encodeList front).length =
      encode (String.ofList front) := by
    rw [encode_eq, h, encodeList_append, List.take_left, encode_ofList_eq]
  unfold cut
  rw [if_pos hplace, htake, decode?_encode]

/-- The longest beginning of a text that has room in so many bytes. -/
structure LongestFront (room : Nat) (s p : String) : Prop where
  front : p.toList <+: s.toList
  fits : (encode p).length ≤ room
  longest : ∀ q : String, q.toList <+: s.toList → (encode q).length ≤ room →
    q.toList <+: p.toList

/-- Of two beginnings of a text the one with no more bytes begins the other. -/
theorem isPrefix_of_length_encodeList_le {other : List Char}
    (hfront : front <+: cs) (hother : other <+: cs)
    (hle : (encodeList other).length ≤ (encodeList front).length) :
    other <+: front := by
  rcases List.prefix_or_prefix_of_prefix hother hfront with h | ⟨rest, rfl⟩
  · exact h
  · rw [encodeList_append, List.length_append] at hle
    have hnil : encodeList rest = [] := List.length_eq_zero_iff.mp (by omega)
    rw [encodeList_eq_nil_iff.mp hnil, List.append_nil]

/-- The cut that the search finds is within no character, and leaves the
longest beginning. -/
theorem exists_cut_boundaryUpTo (s : String) (room : Nat) :
    ∃ p, cut s (boundaryUpTo (encode s) room) = .ok p ∧
      LongestFront room s p := by
  have hplace := isBoundary_boundaryUpTo (encode s) room
  have hle := boundaryUpTo_le (encode s) room
  rw [encode_eq, isBoundary_encodeList_iff] at hplace
  obtain ⟨front, back, hs, hfront⟩ := hplace
  rw [← encode_eq] at hfront
  refine ⟨String.ofList front, ?_, ?_, ?_, ?_⟩
  · rw [← hfront]
    exact cut_of_toList_eq hs
  · rw [String.toList_ofList, hs]
    exact List.prefix_append _ _
  · rw [encode_ofList_eq, hfront]
    exact hle
  · rintro q ⟨rest, hq⟩ hfits
    have hboundary :
        isBoundary (encode s) (encodeList q.toList).length = true := by
      rw [encode_eq]
      exact isBoundary_encodeList_iff.mpr ⟨q.toList, rest, hq.symm, rfl⟩
    have hroom : (encodeList q.toList).length ≤ room := by rwa [← encode_eq]
    have hshort := le_boundaryUpTo hboundary hroom
    rw [← hfront] at hshort
    rw [String.toList_ofList]
    exact isPrefix_of_length_encodeList_le ⟨back, hs.symm⟩ ⟨rest, hq⟩ hshort

end Telemetry.Utf8
