import Telemetry.Proofs.Cipher.Rsa
import Telemetry.Proofs.Result
import Mathlib.Algebra.Order.Floor.Div
import Mathlib.Data.List.Forall2

/-!
# Payloads of any length

A payload takes as many sealed blocks as it fills blocks, the last one perhaps
in part, and a pair of keys takes every payload back.  Whatever bytes are to be
opened, either they are no whole number of blocks, or what comes out is decided
by their blocks alone: the messages of all of them in order, or the failure of
the first that fails.
-/

namespace Telemetry

/-! ## Cutting -/

section Cutting

variable {α : Type} {n : Nat}

theorem length_chunks (hn : 0 < n) (xs : List α) :
    (chunks n xs).length = xs.length ⌈/⌉ n := by
  rw [Nat.ceilDiv_eq_add_pred_div]
  fun_induction chunks n xs with
  | case1 => exact (Nat.div_eq_of_lt (by rw [List.length_nil]; omega)).symm
  | case2 x rest ih =>
      have hfirst : (x :: rest).length + n - 1 = rest.length + n := by
        rw [List.length_cons]
        omega
      rw [List.length_cons, ih, List.length_drop, hfirst,
        Nat.add_div_right _ hn]
      by_cases hfull : n - 1 ≤ rest.length
      · have hrest : rest.length - (n - 1) + n - 1 = rest.length := by omega
        rw [hrest]
      · -- the only part is not full
        have hnone : rest.length - (n - 1) + n - 1 = n - 1 := by omega
        rw [hnone, Nat.div_eq_of_lt (by omega), Nat.div_eq_of_lt (by omega)]

theorem length_of_mem_chunks (hn : 0 < n) {xs part : List α}
    (hwhole : n ∣ xs.length) (h : part ∈ chunks n xs) : part.length = n := by
  fun_induction chunks n xs with
  | case1 => exact absurd h List.not_mem_nil
  | case2 x rest ih =>
      have hfull : n ≤ rest.length + 1 := Nat.le_of_dvd (Nat.succ_pos _) hwhole
      rcases List.mem_cons.mp h with rfl | hrest
      · rw [List.length_cons, List.length_take]
        omega
      · refine ih ?_ hrest
        have hdrop : (rest.drop (n - 1)).length = (x :: rest).length - n := by
          rw [List.length_drop, List.length_cons]
          omega
        rw [hdrop]
        exact Nat.dvd_sub hwhole (dvd_refl n)

end Cutting

/-! ## Opening -/

namespace BlockOpener

variable {o : BlockOpener} {blocks : List Bytes}

theorem openAll_cons_of_ok {block message : Bytes}
    (h : o.openBlock block = .ok message) (blocks : List Bytes) :
    o.openAll (block :: blocks) = (o.openAll blocks).map (message ++ ·) := by
  rw [openAll, h]
  rfl

theorem openAll_cons_of_error {block : Bytes} {e : CipherError}
    (h : o.openBlock block = .error e) (blocks : List Bytes) :
    o.openAll (block :: blocks) = .error e := by
  rw [openAll, h]
  rfl

/-- Blocks are opened together when every one of them opens. -/
theorem openAll_eq_ok_iff {out : Bytes} :
    o.openAll blocks = .ok out ↔
      ∃ messages,
        List.Forall₂ (fun block message => o.openBlock block = .ok message)
          blocks messages ∧ messages.flatten = out := by
  induction blocks generalizing out with
  | nil =>
      simp only [openAll, List.forall₂_nil_left_iff, exists_eq_left,
        Except.ok.injEq, List.flatten_nil]
  | cons block blocks ih =>
      constructor
      · intro h
        obtain ⟨front, hfront, h⟩ := exists_of_bind_eq_ok h
        obtain ⟨back, hback, h⟩ := exists_of_bind_eq_ok h
        obtain ⟨messages, hmessages, rfl⟩ := ih.mp hback
        exact ⟨front :: messages, .cons hfront hmessages, Except.ok.inj h⟩
      · rintro ⟨_, hmessages, rfl⟩
        cases hmessages with
        | @cons _ front _ messages hfront hrest =>
            rw [openAll_cons_of_ok hfront, ih.mpr ⟨messages, hrest, rfl⟩]
            rfl

theorem openAll_append_of_error {front back : List Bytes} {block : Bytes}
    {e : CipherError}
    (hfront : ∀ b ∈ front, ∃ message, o.openBlock b = .ok message)
    (hblock : o.openBlock block = .error e) :
    o.openAll (front ++ block :: back) = .error e := by
  induction front with
  | nil => exact openAll_cons_of_error hblock back
  | cons first front ih =>
      obtain ⟨message, hfirst⟩ := hfront first List.mem_cons_self
      have hrest := ih fun b hb => hfront b (List.mem_cons_of_mem first hb)
      rw [List.cons_append, openAll_cons_of_ok hfirst, hrest]
      rfl

theorem exists_of_openAll_eq_error {e : CipherError}
    (h : o.openAll blocks = .error e) :
    ∃ front block back, blocks = front ++ block :: back ∧
      (∀ b ∈ front, ∃ message, o.openBlock b = .ok message) ∧
        o.openBlock block = .error e := by
  induction blocks with
  | nil => nomatch h
  | cons first blocks ih =>
      cases hfirst : o.openBlock first with
      | error e' =>
          rw [openAll_cons_of_error hfirst] at h
          obtain rfl := Except.error.inj h
          exact ⟨[], first, blocks, rfl, fun b hb => absurd hb List.not_mem_nil,
            hfirst⟩
      | ok message =>
          rw [openAll_cons_of_ok hfirst] at h
          have hrest : o.openAll blocks = .error e := by
            cases hblocks : o.openAll blocks with
            | error e' => rwa [hblocks] at h
            | ok out =>
                rw [hblocks] at h
                nomatch h
          obtain ⟨front, block, back, rfl, hfront, hblock⟩ := ih hrest
          refine ⟨first :: front, block, back, rfl, ?_, hblock⟩
          intro b hb
          rcases List.mem_cons.mp hb with rfl | hb
          · exact ⟨message, hfirst⟩
          · exact hfront b hb

/-- Blocks fail together with the failure of the first that does not open. -/
theorem openAll_eq_error_iff {e : CipherError} :
    o.openAll blocks = .error e ↔
      ∃ front block back, blocks = front ++ block :: back ∧
        (∀ b ∈ front, ∃ message, o.openBlock b = .ok message) ∧
        o.openBlock block = .error e := by
  constructor
  · exact exists_of_openAll_eq_error
  · rintro ⟨front, block, back, rfl, hfront, hblock⟩
    exact openAll_append_of_error hfront hblock

/-- What becomes of bytes that are opened: they are refused for their length, or
their blocks decide. -/
structure OpensWhole (o : BlockOpener) (body : Bytes) : Prop where
  wrongLength_iff : ∀ length block,
    o.decrypt body = .error (.wrongLength length block) ↔
      ¬ o.size ∣ body.length ∧ length = body.length ∧ block = o.size
  blocks : o.size ∣ body.length → ∃ blocks : List Bytes,
    blocks.flatten = body ∧ (∀ block ∈ blocks, block.length = o.size) ∧
    (∀ out, o.decrypt body = .ok out ↔
      ∃ messages,
        List.Forall₂ (fun block message => o.openBlock block = .ok message)
          blocks messages ∧ messages.flatten = out) ∧
    (∀ e, o.decrypt body = .error e ↔
      ∃ front block back, blocks = front ++ block :: back ∧
        (∀ b ∈ front, ∃ message, o.openBlock b = .ok message) ∧
          o.openBlock block = .error e)

theorem decrypt_of_not_dvd {body : Bytes} (h : ¬ o.size ∣ body.length) :
    o.decrypt body = .error (.wrongLength body.length o.size) :=
  if_pos fun hmod => h (Nat.dvd_of_mod_eq_zero hmod)

theorem decrypt_of_dvd {body : Bytes} (h : o.size ∣ body.length) :
    o.decrypt body = o.openAll (chunks o.size body) :=
  if_neg (not_not_intro (Nat.mod_eq_zero_of_dvd h))

theorem opensWhole (hsize : 0 < o.size)
    (hblock : ∀ b length block,
      o.openBlock b ≠ .error (.wrongLength length block)) (body : Bytes) :
    o.OpensWhole body where
  wrongLength_iff length block := by
    by_cases h : o.size ∣ body.length
    · refine iff_of_false (fun herror => ?_) fun hwrong => hwrong.1 h
      rw [decrypt_of_dvd h] at herror
      obtain ⟨_, b, _, _, _, hb⟩ := exists_of_openAll_eq_error herror
      exact hblock b length block hb
    · rw [decrypt_of_not_dvd h, Except.error.injEq,
        CipherError.wrongLength.injEq]
      constructor
      · rintro ⟨rfl, rfl⟩
        exact ⟨h, rfl, rfl⟩
      · rintro ⟨-, rfl, rfl⟩
        exact ⟨rfl, rfl⟩
  blocks h := by
    refine ⟨chunks o.size body, flatten_chunks _ _, ?_, fun out => ?_,
      fun e => ?_⟩
    · exact fun block => length_of_mem_chunks hsize h
    · rw [decrypt_of_dvd h, openAll_eq_ok_iff]
    · rw [decrypt_of_dvd h, openAll_eq_error_iff]

theorem length_flatten_le_of_forall₂ {blocks messages : List Bytes}
    (h : List.Forall₂ (fun block message => message.length ≤ block.length)
      blocks messages) :
    messages.flatten.length ≤ blocks.flatten.length := by
  induction h with
  | nil => exact Nat.le_refl _
  | cons hfirst hrest ih =>
      rw [List.flatten_cons, List.flatten_cons, List.length_append,
        List.length_append]
      exact Nat.add_le_add hfirst ih

/-- Bytes do not grow when they are opened, if no message is
longer than a block. -/
theorem length_le_of_decrypt
    (hblock : ∀ block message, o.openBlock block = .ok message →
      message.length ≤ o.size) {body out : Bytes}
        (h : o.decrypt body = .ok out) : out.length ≤ body.length := by
  have hwhole : o.size ∣ body.length := by
    by_contra hnot
    rw [decrypt_of_not_dvd hnot] at h
    nomatch h
  rw [decrypt_of_dvd hwhole, openAll_eq_ok_iff] at h
  obtain ⟨messages, hmessages, rfl⟩ := h
  rcases Nat.eq_zero_or_pos o.size with hzero | hsize
  · -- blocks of no bytes make up no body
    rw [hzero, Nat.zero_dvd] at hwhole
    obtain rfl := List.length_eq_zero_iff.mp hwhole
    rw [chunks, List.forall₂_nil_left_iff] at hmessages
    rw [hmessages]
    exact Nat.le_refl _
  · have hshort :
        List.Forall₂ (fun block message => message.length ≤ block.length)
          (chunks o.size body) messages := by
      have hsizes : ∀ block ∈ chunks o.size body, block.length = o.size :=
        fun _ => length_of_mem_chunks hsize hwhole
      refine ((List.forall₂_and_left _ _).mpr ⟨hsizes, hmessages⟩).imp ?_
      rintro block message ⟨hblockSize, hmessage⟩
      rw [hblockSize]
      exact hblock block message hmessage
    have hle := length_flatten_le_of_forall₂ hshort
    rwa [flatten_chunks] at hle

end BlockOpener

/-! ## Pairs of keys -/

namespace Rsa

variable {publicKey : PublicKey} {privateKey : PrivateKey} {seeds : Nat → Bytes}

theorem openBlock_ne_wrongLength (key : PrivateKey) (b : Bytes)
    (length block : Nat) :
    key.openBlock b ≠ .error (.wrongLength length block) := by
  unfold PrivateKey.openBlock
  dsimp only
  split_ifs
  · simp
  · simp
  · split <;> simp

theorem length_le_of_openBlock {key : PrivateKey} {block message : Bytes}
    (h : key.openBlock block = .ok message) : message.length ≤ key.size := by
  unfold PrivateKey.openBlock at h
  dsimp only at h
  split at h
  · nomatch h
  · split at h
    · nomatch h
    · split at h
      · next hmessage =>
          obtain rfl := Except.ok.inj h
          exact Oaep.length_le_of_unpad? hmessage
      · nomatch h

/-- Decrypting with a private key does not make bytes longer. -/
theorem length_le_of_decrypt {key : PrivateKey} {body out : Bytes}
    (h : key.opener.decrypt body = .ok out) : out.length ≤ body.length :=
  BlockOpener.length_le_of_decrypt (fun _ _ => length_le_of_openBlock) h

theorem Pair.size_eq (h : Pair publicKey privateKey) :
    privateKey.size = publicKey.size :=
  congrArg byteLength h.modulus

/-- A pair of keys takes every payload through whole sealed blocks and back, and
other bytes come out as their blocks decide or not at all. -/
theorem Pair.payload_through_blocks (h : Pair publicKey privateKey)
    (hsize : Oaep.overhead < publicKey.size) :
    (∀ seeds : Nat → Bytes, (∀ i, (seeds i).length = Oaep.digestSize) → ∀ data,
      ∃ body, publicKey.sealer.encrypt seeds data = .ok body ∧
        body.length = data.length ⌈/⌉ (publicKey.size - Oaep.overhead) *
          publicKey.size ∧
        privateKey.opener.decrypt body = .ok data) ∧
    privateKey.opener.size = publicKey.size ∧
    ∀ body, privateKey.opener.OpensWhole body := by
  have hopens := h.opens hsize
  refine ⟨fun seeds hseeds data => ?_, h.size_eq, fun body => ?_⟩
  · obtain ⟨body, hbody, hdata, -⟩ := hopens.decrypt_encrypt hseeds data
    refine ⟨body, hbody, ?_, hdata⟩
    rw [hopens.length_encrypt hseeds hbody, length_chunks hopens.blockSize_pos]
    rfl
  · apply BlockOpener.opensWhole
    · exact Nat.lt_of_lt_of_eq hopens.size_pos hopens.size_eq.symm
    · exact openBlock_ne_wrongLength privateKey

/-- Thirteen bytes take three blocks of six, and three bytes are no block. -/
theorem payload_through_blocks_ragged :
    let data : Bytes := (List.range 13).map UInt8.ofNat
    let seeds : Nat → Bytes :=
      fun i => List.replicate Oaep.digestSize (UInt8.ofNat i)
    (∃ body, publicExample.sealer.encrypt seeds data = .ok body ∧
      body.length = 216 ∧
      privateExample.opener.decrypt body = .ok data) ∧
    privateExample.opener.decrypt [1, 2, 3] = .error (.wrongLength 3 72) := by
  intro data seeds
  have hkey : publicExample.size = 72 := by decide +kernel
  have hroom : Oaep.overhead < publicExample.size := by
    rw [hkey]
    decide
  obtain ⟨hthrough, hsize, hwhole⟩ := pair_example.payload_through_blocks hroom
  constructor
  · obtain ⟨body, hbody, hlength, hdata⟩ :=
      hthrough seeds (fun _ => List.length_replicate) data
    refine ⟨body, hbody, ?_, hdata⟩
    have hcount : data.length = 13 := by simp [data]
    rw [hlength, hkey, hcount, Nat.ceilDiv_eq_add_pred_div]
    decide
  · apply ((hwhole [1, 2, 3]).wrongLength_iff 3 72).mpr
    rw [hsize, hkey]
    decide

end Rsa

end Telemetry
