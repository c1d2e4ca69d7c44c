import Telemetry.Proofs.Cipher.Blocks
import Telemetry.Proofs.Cipher.Oaep
import Mathlib.FieldTheory.Finite.Basic
import Mathlib.NumberTheory.LucasPrimality

/-!
# The private key opens what the public key seals

The exponents of a pair of keys are inverse to each other on the numbers below a
product of two primes, a block that begins with zero is such a number, and a
number below the modulus is found again in its bytes.
-/

namespace Telemetry

namespace Rsa

/-! ## Numbers in bytes -/

theorem length_toBytes (size n : Nat) : (toBytes size n).length = size := by
  induction size generalizing n with
  | zero => rfl
  | succ size ih =>
      rw [toBytes, List.length_append, ih]
      rfl

theorem natural_append (bytes : Bytes) (b : UInt8) :
    Der.natural (bytes ++ [b]) = Der.natural bytes * 256 + b.toNat := by
  unfold Der.natural
  rw [List.foldl_append]
  rfl

theorem natural_zero_cons (bytes : Bytes) :
    Der.natural (0 :: bytes) = Der.natural bytes := rfl

/-- The numbers of `size` bytes. -/
def span (size : Nat) : Nat := 1 <<< (8 * size)

theorem span_succ (size : Nat) : span (size + 1) = span size * 256 := by
  unfold span
  rw [Nat.mul_succ, Nat.shiftLeft_add, Nat.shiftLeft_eq _ 8]

theorem natural_lt (bytes : Bytes) : Der.natural bytes < span bytes.length := by
  induction bytes using List.reverseRecOn with
  | nil => decide
  | append_singleton bytes b ih =>
      have hb := b.toNat_lt
      rw [natural_append, List.length_append, List.length_singleton, span_succ]
      omega

theorem natural_toBytes {size n : Nat} (h : n < span size) :
    Der.natural (toBytes size n) = n := by
  induction size generalizing n with
  | zero =>
      obtain rfl : n = 0 := Nat.lt_one_iff.mp h
      rfl
  | succ size ih =>
      rw [span_succ] at h
      have hrest := ih (Nat.div_lt_of_lt_mul (by rwa [Nat.mul_comm] at h))
      rw [toBytes, natural_append, hrest, UInt8.toNat_ofNat']
      omega

theorem toBytes_natural (bytes : Bytes) :
    toBytes bytes.length (Der.natural bytes) = bytes := by
  induction bytes using List.reverseRecOn with
  | nil => rfl
  | append_singleton bytes b ih =>
      have hb := b.toNat_lt
      have hdiv : (Der.natural bytes * 256 + b.toNat) / 256 =
          Der.natural bytes := by omega
      have hlast : UInt8.ofNat (Der.natural bytes * 256 + b.toNat) = b := by
        apply UInt8.toNat_inj.mp
        rw [UInt8.toNat_ofNat']
        omega
      rw [natural_append, List.length_append, List.length_singleton, toBytes,
        hdiv, hlast, ih]

theorem byteLength_of_ne_zero {n : Nat} (h : n ≠ 0) :
    byteLength n = n.log2 / 8 + 1 := by
  unfold byteLength bitLength
  rw [if_neg h]
  omega

theorem lt_span_byteLength {n : Nat} (h : n ≠ 0) : n < span (byteLength n) := by
  rw [byteLength_of_ne_zero h]
  unfold span
  rw [Nat.one_shiftLeft]
  exact Nat.lt_of_lt_of_le Nat.lt_log2_self
    (Nat.pow_le_pow_right (by decide) (by omega))

theorem span_le {n : Nat} (h : n ≠ 0) : span (byteLength n - 1) ≤ n := by
  rw [byteLength_of_ne_zero h]
  unfold span
  rw [Nat.one_shiftLeft]
  exact Nat.le_trans (Nat.pow_le_pow_right (by decide) (by omega))
    (Nat.log2_self_le h)

/-! ## Powers -/

theorem powMod_eq (base exponent modulus : Nat) :
    powMod base exponent modulus = base ^ exponent % modulus := by
  fun_induction powMod base exponent modulus with
  | case1 => rw [Nat.pow_zero]
  | case2 exponent hne half square hodd ih =>
      have hpow :
          base ^ exponent = base ^ (exponent / 2) * base ^ (exponent / 2) *
          base := by
        rw [← pow_add, ← pow_succ]
        exact congrArg (base ^ ·) (by omega)
      have hsquare :
          square = base ^ (exponent / 2) * base ^ (exponent / 2) % modulus := by
        change powMod _ _ _ * powMod _ _ _ % modulus = _
        rw [ih, ← Nat.mul_mod]
      rw [hsquare, hpow, Nat.mod_mul_mod]
  | case3 exponent hne half square heven ih =>
      have hpow :
          base ^ exponent = base ^ (exponent / 2) * base ^ (exponent / 2) := by
        rw [← pow_add]
        exact congrArg (base ^ ·) (by omega)
      change powMod _ _ _ * powMod _ _ _ % modulus = _
      rw [ih, ← Nat.mul_mod, hpow]

theorem powMod_lt (base exponent : Nat) {modulus : Nat} (h : 0 < modulus) :
    powMod base exponent modulus < modulus := by
  rw [powMod_eq]
  exact Nat.mod_lt _ h

/-- A number comes back from a power that is one more than a
multiple of `p - 1`. -/
theorem pow_modEq_self {p k : Nat} (hp : p.Prime) (hpos : 0 < k)
    (hk : p - 1 ∣ k - 1) (n : Nat) :
    n ^ k ≡ n [MOD p] := by
  have : Fact p.Prime := ⟨hp⟩
  obtain ⟨j, hj⟩ := hk
  have hexponent : k = (p - 1) * j + 1 := by omega
  rw [← ZMod.natCast_eq_natCast_iff, Nat.cast_pow]
  by_cases hn : (n : ZMod p) = 0
  · rw [hn, zero_pow (Nat.ne_of_gt hpos)]
  · rw [hexponent, pow_succ, pow_mul, ZMod.pow_card_sub_one_eq_one hn, one_pow,
      one_mul]

/-- The keys belong together: they have the modulus and the public exponent in
common, and the private exponent undoes the public one. -/
structure Pair (publicKey : PublicKey) (privateKey : PrivateKey) : Prop where
  modulus : privateKey.modulus = publicKey.modulus
  exponent : privateKey.publicExponent = publicKey.exponent
  inverse : ∀ n < publicKey.modulus,
    powMod (powMod n publicKey.exponent publicKey.modulus)
      privateKey.privateExponent publicKey.modulus = n

theorem pair_of_primes {p q e d : Nat} (hp : p.Prime) (hq : q.Prime)
    (hne : p ≠ q) (hpos : 0 < e * d) (hpdvd : p - 1 ∣ e * d - 1)
    (hqdvd : q - 1 ∣ e * d - 1) :
    Pair ⟨p * q, e⟩ ⟨p * q, e, d⟩ := by
  refine ⟨rfl, rfl, fun n hn => ?_⟩
  have hcoprime : Nat.Coprime p q := (Nat.coprime_primes hp hq).mpr hne
  have hpow : n ^ (e * d) ≡ n [MOD p * q] :=
    (Nat.modEq_and_modEq_iff_modEq_mul hcoprime).mp
      ⟨pow_modEq_self hp hpos hpdvd n, pow_modEq_self hq hpos hqdvd n⟩
  simp only [powMod_eq]
  rw [← Nat.pow_mod, ← Nat.pow_mul]
  exact Nat.mod_eq_of_modEq hpow hn

/-! ## Blocks -/

section Sealed

variable {publicKey : PublicKey} {privateKey : PrivateKey}
  {seed message : Bytes}

/-- What is sealed is a number below the modulus, because its
first byte is zero. -/
theorem natural_pad_lt (hsize : Oaep.overhead < publicKey.size)
    (hseed : seed.length = Oaep.digestSize)
    (hroom : message.length + Oaep.overhead ≤ publicKey.size) :
    Der.natural (Oaep.pad publicKey.size seed message) < publicKey.modulus := by
  have hne : publicKey.modulus ≠ 0 := by
    intro hzero
    unfold PublicKey.size at hsize
    rw [hzero] at hsize
    exact absurd hsize (by decide)
  have hlength := Oaep.length_pad hseed hroom
  rw [Oaep.pad_eq, List.length_cons] at hlength
  rw [Oaep.pad_eq, natural_zero_cons]
  refine Nat.lt_of_lt_of_le (natural_lt _) ?_
  rw [Nat.eq_sub_of_add_eq hlength]
  exact span_le hne

theorem Pair.openBlock_sealBlock (h : Pair publicKey privateKey)
    (hsize : Oaep.overhead < publicKey.size)
    (hseed : seed.length = Oaep.digestSize)
    (hroom : message.length + Oaep.overhead ≤ publicKey.size) :
    privateKey.openBlock (publicKey.sealer.sealBlock seed message) =
      .ok message := by
  have hlt := natural_pad_lt hsize hseed hroom
  have hpos : 0 < publicKey.modulus := Nat.lt_of_le_of_lt (Nat.zero_le _) hlt
  have hsizes : privateKey.size = publicKey.size := by
    unfold PrivateKey.size PublicKey.size
    rw [h.modulus]
  have hinverse := h.inverse _ hlt
  have hback :
      toBytes publicKey.size
        (Der.natural (Oaep.pad publicKey.size seed message)) =
        Oaep.pad publicKey.size seed message := by
    have hbytes := toBytes_natural (Oaep.pad publicKey.size seed message)
    rwa [Oaep.length_pad hseed hroom] at hbytes
  change privateKey.openBlock (toBytes publicKey.size
    (powMod (Der.natural (Oaep.pad publicKey.size seed message))
      publicKey.exponent publicKey.modulus)) = _
  generalize Der.natural (Oaep.pad publicKey.size seed message) = n
    at hlt hinverse hback ⊢
  have hsealed := powMod_lt n publicKey.exponent hpos
  -- a sealed number is below the modulus, so its bytes hold all of it
  have hnatural : Der.natural (toBytes publicKey.size
      (powMod n publicKey.exponent publicKey.modulus)) =
      powMod n publicKey.exponent publicKey.modulus :=
    natural_toBytes
      (Nat.lt_trans hsealed (lt_span_byteLength (Nat.ne_of_gt hpos)))
  unfold PrivateKey.openBlock
  rw [hnatural, h.modulus, h.exponent, hsizes]
  dsimp only
  rw [if_neg (Nat.not_le_of_lt hsealed), hinverse, if_neg (not_not_intro rfl),
    hback, Oaep.unpad?_pad hseed hroom]

/-- The private key opens every block that the public key seals. -/
theorem Pair.opens (h : Pair publicKey privateKey)
    (hsize : Oaep.overhead < publicKey.size) :
    privateKey.opener.Opens publicKey.sealer := by
  have hroom : ∀ message : Bytes, message.length ≤ publicKey.sealer.blockSize →
      message.length + Oaep.overhead ≤ publicKey.size := by
    intro message hmessage
    exact Nat.add_le_of_le_sub (Nat.le_of_lt hsize) hmessage
  constructor
  · change byteLength privateKey.modulus = byteLength publicKey.modulus
    rw [h.modulus]
  · exact hsize
  · intro seed message _ _
    exact length_toBytes _ _
  · intro seed message hseed hmessage
    exact h.openBlock_sealBlock hsize hseed (hroom message hmessage)

end Sealed

/-! ## A pair of keys -/

theorem cast_pow_eq_one_iff {p g k : Nat} (hp : 1 < p) :
    (g : ZMod p) ^ k = 1 ↔ powMod g k p = 1 := by
  rw [powMod_eq, ← Nat.cast_pow, ← Nat.cast_one, ZMod.natCast_eq_natCast_iff,
    Nat.ModEq, Nat.mod_eq_of_lt hp]

/-- A number `r <<< j + 1` is a prime when some number has the order `r
<<< j` modulo it. -/
theorem prime_of_powMod {r j g : Nat} (hr : r.Prime)
    (hone : powMod g (r <<< j) (r <<< j + 1) = 1)
    (htwo : powMod g (r <<< j / 2) (r <<< j + 1) ≠ 1)
    (hrest : powMod g (r <<< j / r) (r <<< j + 1) ≠ 1) :
    (r <<< j + 1).Prime := by
  have hpos : 0 < r <<< j := by
    rw [Nat.shiftLeft_eq]
    exact Nat.mul_pos hr.pos (Nat.two_pow_pos j)
  have hp : 1 < r <<< j + 1 := Nat.lt_add_of_pos_left hpos
  refine lucas_primality _ (g : ZMod (r <<< j + 1)) ?_ fun k hk hdvd => ?_
  · rw [cast_pow_eq_one_iff hp]
    exact hone
  · rw [Ne, cast_pow_eq_one_iff hp, Nat.add_sub_cancel]
    rw [Nat.add_sub_cancel, Nat.shiftLeft_eq] at hdvd
    rcases (Nat.Prime.dvd_mul hk).mp hdvd with hkr | hkpow
    · obtain rfl := (Nat.prime_dvd_prime_iff_eq hk hr).mp hkr
      exact hrest
    · obtain rfl := (Nat.prime_dvd_prime_iff_eq hk Nat.prime_two).mp
        (hk.dvd_of_dvd_pow hkpow)
      exact htwo

/-- A public key whose modulus has 72 bytes. -/
def publicExample : PublicKey := ⟨(7 <<< 290 + 1) * (3 <<< 276 + 1), 5⟩

/-- The private key that belongs to it. -/
def privateExample : PrivateKey :=
  ⟨(7 <<< 290 + 1) * (3 <<< 276 + 1), 5, (21 <<< 290 + 1) / 5⟩

theorem pair_example : Pair publicExample privateExample := by
  have hfirst : (7 <<< 290 + 1).Prime :=
    prime_of_powMod (g := 3) (by decide) (by decide +kernel) (by decide +kernel)
      (by decide +kernel)
  have hsecond : (3 <<< 276 + 1).Prime :=
    prime_of_powMod (g := 19) (by decide) (by decide +kernel)
      (by decide +kernel) (by decide +kernel)
  exact pair_of_primes hfirst hsecond (by decide +kernel) (by decide +kernel)
    (by decide +kernel) (by decide +kernel)

end Rsa

end Telemetry
