import Telemetry.Cipher.Blocks
import Mathlib.Data.List.Basic

/-!
# Encrypted payloads are read back

A cipher whose opener takes back every block of its sealer takes back whole
payloads: the sealed blocks are cut where they were joined.
-/

namespace Telemetry

variable {α : Type}

/-! ## Parts of a list -/

theorem flatten_chunks (n : Nat) (xs : List α) :
    (chunks n xs).flatten = xs := by
  fun_induction chunks n xs with
  | case1 => rfl
  | case2 x rest ih =>
      rw [List.flatten_cons, ih, List.cons_append, List.take_append_drop]

theorem length_le_of_mem_chunks {n : Nat} (hn : 0 < n) {xs part : List α}
    (h : part ∈ chunks n xs) : part.length ≤ n := by
  fun_induction chunks n xs with
  | case1 => nomatch h
  | case2 x rest ih =>
      rcases List.mem_cons.mp h with rfl | hrest
      · rw [List.length_cons, List.length_take]
        omega
      · exact ih hrest

theorem ne_nil_of_mem_chunks {n : Nat} {xs part : List α}
    (h : part ∈ chunks n xs) :
    part ≠ [] := by
  fun_induction chunks n xs with
  | case1 => nomatch h
  | case2 x rest ih =>
      rcases List.mem_cons.mp h with rfl | hrest
      · exact List.cons_ne_nil _ _
      · exact ih hrest

theorem length_chunks_le (n : Nat) (xs : List α) :
    (chunks n xs).length ≤ xs.length := by
  fun_induction chunks n xs with
  | case1 => exact Nat.le_refl _
  | case2 x rest ih =>
      rw [List.length_drop] at ih
      rw [List.length_cons, List.length_cons]
      omega

theorem chunks_append {n : Nat} (hn : 0 < n) {part : List α}
    (h : part.length = n) (rest : List α) :
    chunks n (part ++ rest) = part :: chunks n rest := by
  cases part with
  | nil => exact absurd h (Nat.ne_of_lt hn)
  | cons x part =>
      have hpart : part.length = n - 1 := by
        rw [List.length_cons] at h
        omega
      rw [List.cons_append, chunks, ← hpart, List.take_left, List.drop_left]

/-! ## Payloads -/

namespace BlockSealer

variable {c : BlockSealer}

theorem encrypt_of_overhead_lt (h : Oaep.overhead < c.size)
    (seeds : Nat → Bytes) (data : Bytes) :
    c.encrypt seeds data =
      .ok (c.sealAll seeds 0 (chunks c.blockSize data)) := by
  have hsize : c.checkedBlockSize = .ok c.blockSize := if_pos (Nat.le_of_lt h)
  have hpos : c.blockSize ≠ 0 := Nat.sub_ne_zero_of_lt h
  have hcount : Halt.divCeil data.length c.blockSize =
      .ok ((data.length + c.blockSize - 1) / c.blockSize) := if_neg hpos
  unfold encrypt
  rw [hsize]
  show (do
    let _ ← (Halt.divCeil data.length c.blockSize).mapError CipherError.halt
    _) = _
  rw [hcount]
  rfl

/-- A block of no bytes is divided by. -/
theorem encrypt_of_size_eq (h : c.size = Oaep.overhead) (seeds : Nat → Bytes)
    (data : Bytes) :
    c.encrypt seeds data = .error (.halt .divisionByZero) := by
  unfold encrypt checkedBlockSize
  rw [h]
  rfl

/-- The overhead is taken from a smaller number. -/
theorem encrypt_of_size_lt (h : c.size < Oaep.overhead) (seeds : Nat → Bytes)
    (data : Bytes) :
    c.encrypt seeds data = .error (.halt .underflow) := by
  have hsize : c.checkedBlockSize = .error .underflow :=
    if_neg (Nat.not_le_of_lt h)
  unfold encrypt
  rw [hsize]
  rfl

theorem length_sealAll_of_forall {seeds : Nat → Bytes} {blocks : List Bytes}
    (h : ∀ i, ∀ block ∈ blocks, (c.sealBlock (seeds i) block).length = c.size)
    (i : Nat) :
    (c.sealAll seeds i blocks).length = blocks.length * c.size := by
  induction blocks generalizing i with
  | nil =>
      rw [List.length_nil, Nat.zero_mul]
      rfl
  | cons block rest ih =>
      have hrest := ih (fun j b hb => h j b (List.mem_cons_of_mem _ hb)) (i + 1)
      rw [sealAll, List.length_append, h i block List.mem_cons_self, hrest,
        List.length_cons, Nat.succ_mul, Nat.add_comm]

end BlockSealer

/-- The opener takes back what the sealer puts into a block under a seed of the
right length, and a block has room for a message. -/
structure BlockOpener.Opens (o : BlockOpener) (c : BlockSealer) : Prop where
  size_eq : o.size = c.size
  overhead_lt : Oaep.overhead < c.size
  length_seal : ∀ seed message, seed.length = Oaep.digestSize →
    message.length ≤ c.blockSize → (c.sealBlock seed message).length = c.size
  open_seal : ∀ seed message, seed.length = Oaep.digestSize →
    message.length ≤ c.blockSize →
      o.openBlock (c.sealBlock seed message) = .ok message

namespace BlockOpener.Opens

variable {o : BlockOpener} {c : BlockSealer} {seeds : Nat → Bytes}

theorem size_pos (h : o.Opens c) :
    0 < c.size := Nat.lt_trans (by decide) h.overhead_lt

theorem blockSize_pos (h : o.Opens c) :
    0 < c.blockSize := Nat.sub_pos_of_lt h.overhead_lt

theorem encrypt_eq (h : o.Opens c) (data : Bytes) :
    c.encrypt seeds data = .ok (c.sealAll seeds 0 (chunks c.blockSize data)) :=
  BlockSealer.encrypt_of_overhead_lt h.overhead_lt seeds data

theorem length_sealAll (h : o.Opens c)
    (hseeds : ∀ i, (seeds i).length = Oaep.digestSize) {blocks : List Bytes}
    (hblocks : ∀ block ∈ blocks, block.length ≤ c.blockSize) (i : Nat) :
    (c.sealAll seeds i blocks).length = blocks.length * c.size :=
  BlockSealer.length_sealAll_of_forall
    (fun j block hblock =>
      h.length_seal (seeds j) block (hseeds j) (hblocks block hblock)) i

theorem length_flatten_le (h : o.Opens c)
    (hseeds : ∀ i, (seeds i).length = Oaep.digestSize) {blocks : List Bytes}
    (hblocks : ∀ block ∈ blocks, block.length ≤ c.blockSize) (i : Nat) :
    blocks.flatten.length ≤ (c.sealAll seeds i blocks).length := by
  induction blocks generalizing i with
  | nil => exact Nat.zero_le _
  | cons block rest ih =>
      have hmem := hblocks block List.mem_cons_self
      have hblock := h.length_seal (seeds i) block (hseeds i) hmem
      have hrest :=
        ih (fun b hb => hblocks b (List.mem_cons_of_mem _ hb)) (i + 1)
      have hroom : c.blockSize ≤ c.size := Nat.sub_le _ _
      rw [BlockSealer.sealAll, List.flatten_cons, List.length_append,
        List.length_append, hblock]
      omega

theorem openAll_sealAll (h : o.Opens c)
    (hseeds : ∀ i, (seeds i).length = Oaep.digestSize) {blocks : List Bytes}
    (hblocks : ∀ block ∈ blocks, block.length ≤ c.blockSize) (i : Nat) :
    o.openAll (chunks c.size (c.sealAll seeds i blocks)) =
      .ok blocks.flatten := by
  induction blocks generalizing i with
  | nil =>
      rw [BlockSealer.sealAll, chunks]
      rfl
  | cons block rest ih =>
      have hmem := hblocks block List.mem_cons_self
      have hlength := h.length_seal (seeds i) block (hseeds i) hmem
      have hopen := h.open_seal (seeds i) block (hseeds i) hmem
      have hrest :=
        ih (fun b hb => hblocks b (List.mem_cons_of_mem _ hb)) (i + 1)
      rw [BlockSealer.sealAll, chunks_append h.size_pos hlength, openAll, hopen]
      simp only [bind, Except.bind, hrest]
      rfl

/-- What was encrypted is decrypted, and is not shorter than what it holds. -/
theorem decrypt_encrypt (h : o.Opens c)
    (hseeds : ∀ i, (seeds i).length = Oaep.digestSize) (data : Bytes) :
    ∃ body, c.encrypt seeds data = .ok body ∧ o.decrypt body = .ok data ∧
      data.length ≤ body.length := by
  have hblocks :
      ∀ block ∈ chunks c.blockSize data, block.length ≤ c.blockSize :=
    fun _ => length_le_of_mem_chunks h.blockSize_pos
  refine ⟨c.sealAll seeds 0 (chunks c.blockSize data), ?_, ?_, ?_⟩
  · exact h.encrypt_eq data
  · have hwhole :
        (c.sealAll seeds 0 (chunks c.blockSize data)).length % c.size = 0 := by
      rw [h.length_sealAll hseeds hblocks, Nat.mul_mod_left]
    have hopen := h.openAll_sealAll hseeds hblocks 0
    rw [flatten_chunks] at hopen
    unfold BlockOpener.decrypt
    rw [h.size_eq, if_neg (not_not_intro hwhole)]
    exact hopen
  · have hle := h.length_flatten_le hseeds hblocks 0
    rwa [flatten_chunks] at hle

theorem length_encrypt (h : o.Opens c)
    (hseeds : ∀ i, (seeds i).length = Oaep.digestSize) {data body : Bytes}
    (hbody : c.encrypt seeds data = .ok body) :
    body.length = (chunks c.blockSize data).length * c.size := by
  have hblocks :
      ∀ block ∈ chunks c.blockSize data, block.length ≤ c.blockSize :=
    fun _ => length_le_of_mem_chunks h.blockSize_pos
  rw [h.encrypt_eq data] at hbody
  obtain rfl := Except.ok.inj hbody
  exact h.length_sealAll hseeds hblocks 0

/-- Every byte takes a block at most. -/
theorem length_encrypt_le (h : o.Opens c)
    (hseeds : ∀ i, (seeds i).length = Oaep.digestSize) {data body : Bytes}
    (hbody : c.encrypt seeds data = .ok body) :
    body.length ≤ data.length * c.size := by
  rw [h.length_encrypt hseeds hbody]
  exact Nat.mul_le_mul_right _ (length_chunks_le _ _)

end BlockOpener.Opens

/-- What a body holds when bodies may be encrypted. -/
def Opened (opener : Option BlockOpener) (body packed : Bytes) : Prop :=
  match opener with
  | none => body = packed
  | some opener => opener.decrypt body = .ok packed

end Telemetry
