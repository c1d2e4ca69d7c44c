import Telemetry.Deflate.Inflate
import Telemetry.Proofs.Result
import Mathlib.Tactic.ByContra

/-!
# Expanding data that more bytes follow

The readers of compressed data take a byte only when they need a bit of it.
What one of them reads is therefore read in the same way when other bytes
follow, and those are left where they are.
-/

namespace Telemetry.Deflate

variable {α β γ δ : Type}

/-! ## Readers with bytes that follow -/

/-- What holds a reader, to which bytes can be appended. -/
class Extendable (α : Type) where
  extend : Bytes → α → α

export Extendable (extend)

instance : Extendable BitReader where
  extend tail r := ⟨r.held, r.count, r.rest ++ tail⟩

instance [Extendable β] : Extendable (α × β) where
  extend tail p := (p.1, extend tail p.2)

/-- Whatever `short` reads, `long` reads in front of any other bytes. -/
def Framed [Extendable α] [Extendable β]
    (short long : α → Except Fault β) : Prop :=
  ∀ a b tail, short a = .ok b → long (extend tail a) = .ok (extend tail b)

namespace Framed

theorem ok [Extendable α] [Extendable β] {place : α → β}
    (h : ∀ tail a, place (extend tail a) = extend tail (place a)) :
    Framed (fun a => .ok (place a)) fun a => .ok (place a) := by
  intro a b tail hok
  obtain rfl := Except.ok.inj hok
  exact congrArg Except.ok (h tail a)

theorem error [Extendable α] [Extendable β] (e : Fault)
    (long : α → Except Fault β) :
    Framed (fun _ => .error e) long := by
  intro a b tail h
  nomatch h

theorem bind [Extendable α] [Extendable β] [Extendable γ]
    {f f' : α → Except Fault (δ × β)} {g g' : δ × β → Except Fault γ}
    (hf : Framed f f')
    (hg : ∀ d, Framed (fun r => g (d, r)) (fun r => g' (d, r))) :
    Framed (fun a => f a >>= g) (fun a => f' a >>= g') := by
  intro a c tail h
  obtain ⟨b, hread, hnext⟩ := exists_of_bind_eq_ok h
  change f' (extend tail a) >>= g' = .ok (extend tail c)
  rw [hf a b tail hread]
  exact hg b.1 b.2 c tail hnext

theorem opened [Extendable β] [Extendable γ] {g g' : δ × β → Except Fault γ}
    (h : ∀ d, Framed (fun r => g (d, r)) (fun r => g' (d, r))) :
    Framed g g' := by
  intro p
  exact h p.1 p.2

theorem ite [Extendable α] [Extendable β] {p : Prop} {d d' : α → Decidable p}
    {f f' g g' : α → Except Fault β} (hf : p → Framed f f')
    (hg : ¬ p → Framed g g') :
    Framed (fun a => @ite _ p (d a) (f a) (g a)) fun a =>
      @ite _ p (d' a) (f' a) (g' a) := by
  intro a b tail h
  by_cases hp : p
  · exact (if_pos hp).trans (hf hp a b tail ((if_pos hp).symm.trans h))
  · exact (if_neg hp).trans (hg hp a b tail ((if_neg hp).symm.trans h))

end Framed

/-! ## Bits -/

theorem fill_extend {n : Nat} {r r' : BitReader} (tail : Bytes)
    (h : r.fill n = some r') :
    (extend tail r).fill n = some (extend tail r') := by
  fun_induction BitReader.fill n r with
  | case1 r hn =>
      obtain rfl := Option.some.inj h
      unfold BitReader.fill
      exact if_pos hn
  | case2 held count hn => nomatch h
  | case3 held count b rest hn ih =>
      unfold BitReader.fill
      exact (if_neg hn).trans (ih h)

theorem take_extend {n v : Nat} {r r' : BitReader} (tail : Bytes)
    (h : r.take n = some (v, r')) :
    (extend tail r).take n = some (v, extend tail r') := by
  unfold BitReader.take at h ⊢
  cases hfill : r.fill n with
  | none =>
      rw [hfill] at h
      nomatch h
  | some filled =>
      rw [hfill] at h
      rw [fill_extend tail hfill]
      obtain ⟨rfl, rfl⟩ := Prod.mk.inj (Option.some.inj h)
      rfl

theorem framed_need (n : Nat) : Framed (need n) (need n) := by
  intro r p tail h
  unfold need at h ⊢
  cases htake : r.take n with
  | none =>
      rw [htake] at h
      nomatch h
  | some q =>
      rw [htake] at h
      rw [take_extend tail htake]
      obtain rfl := Except.ok.inj h
      rfl

/-! ## Symbols and values -/

theorem readFrom_cons (symbols : Array Nat) (code first index count : Nat)
    (counts : List Nat) (r : BitReader) :
    Codebook.readFrom symbols code first index (count :: counts) r =
      (need 1 r >>= fun (bit, r) =>
        if 2 * code + bit < first + count then
          match symbols[index + (2 * code + bit - first)]? with
          | some symbol => .ok (symbol, r)
          | none => .error .corrupt
        else if counts.all (· == 0) then .error .corrupt
        else
          Codebook.readFrom symbols (2 * code + bit) (2 * (first + count))
            (index + count) counts r) := by
  rw [Codebook.readFrom]
  unfold need
  cases r.take 1 <;> rfl

theorem framed_readFrom (symbols : Array Nat) (counts : List Nat)
    (code first index : Nat) :
    Framed (Codebook.readFrom symbols code first index counts)
      (Codebook.readFrom symbols code first index counts) := by
  induction counts generalizing code first index with
  | nil => exact Framed.error _ _
  | cons count counts ih =>
      simp only [funext (readFrom_cons symbols code first index count counts)]
      refine Framed.bind (framed_need 1) fun bit => ?_
      dsimp only
      refine Framed.ite (fun _ => ?_) fun _ => ?_
      · cases symbols[index + (2 * code + bit - first)]? with
        | none => exact Framed.error _ _
        | some symbol => exact Framed.ok fun _ _ => rfl
      · exact Framed.ite (fun _ => Framed.error _ _) fun _ => ih _ _ _

theorem framed_read (book : Codebook) : Framed book.read book.read :=
  framed_readFrom book.symbols book.counts 0 0 0

theorem framed_readValue (ranges : List Range) (symbol : Nat) :
    Framed (readValue ranges symbol) (readValue ranges symbol) := by
  unfold readValue
  cases ranges[symbol]? with
  | none => exact Framed.error _ _
  | some range =>
      exact Framed.bind (framed_need _) fun bits => Framed.ok fun _ _ => rfl

/-! ## Blocks -/

/-- More fuel reads the same tokens. -/
theorem framed_readTokens (literals distances : Codebook) {fuel more : Nat}
    (hfuel : fuel ≤ more) (out : Array UInt8) :
    Framed (readTokens literals distances fuel out)
      (readTokens literals distances more out) := by
  induction fuel generalizing more out with
  | zero => exact Framed.error _ _
  | succ fuel ih =>
      cases more with
      | zero => exact absurd hfuel (Nat.not_succ_le_zero fuel)
      | succ more =>
          have hless := Nat.le_of_succ_le_succ hfuel
          change Framed
            (fun r => readTokens literals distances (fuel + 1) out r)
            fun r => readTokens literals distances (more + 1) out r
          unfold readTokens
          refine Framed.bind (framed_read literals) fun symbol => ?_
          dsimp only
          refine Framed.ite (fun _ => ih hless _) fun _ => ?_
          refine Framed.ite (fun _ => Framed.ok fun _ _ => rfl) fun _ => ?_
          refine Framed.bind (framed_readValue lengthRanges _) fun length => ?_
          dsimp only
          refine Framed.bind (framed_read distances) fun symbol => ?_
          refine Framed.bind (framed_readValue _ _) fun distance => ?_
          exact ih hless (copyBack distance length out)

theorem framed_align {f f' : BitReader → Except Fault α} [Extendable α]
    (hf : Framed f f') :
    Framed (fun r : BitReader => f r.align) fun r => f' r.align := by
  intro r a tail h
  exact hf r.align a tail h

theorem framed_readStored (out : Array UInt8) :
    Framed (readStored out) (readStored out) := by
  unfold readStored
  refine framed_align (Framed.bind (framed_need 16) fun size => ?_)
  refine Framed.bind (framed_need 16) fun check => ?_
  refine Framed.ite (fun _ => Framed.error _ _) fun _ => ?_
  intro r p tail h
  have hsize : size ≤ r.rest.length := by
    by_contra! hshort
    have htake : (r.rest.take size).length < size := by
      rw [List.length_take]
      omega
    dsimp only at h
    rw [if_pos htake] at h
    nomatch h
  have htake : (extend tail r).rest.take size = r.rest.take size :=
    List.take_append_of_le_length hsize
  have hdrop : (extend tail r).rest.drop size = r.rest.drop size ++ tail :=
    List.drop_append_of_le_length hsize
  have hlength : ¬ (r.rest.take size).length < size := by
    rw [List.length_take]
    omega
  dsimp only at h ⊢
  rw [htake, hdrop, if_neg hlength]
  rw [if_neg hlength] at h
  obtain rfl := Except.ok.inj h
  rfl

theorem framed_readTriples (n : Nat) :
    Framed (readTriples n) (readTriples n) := by
  induction n with
  | zero => exact Framed.ok fun _ _ => rfl
  | succ n ih =>
      change Framed (fun r => readTriples (n + 1) r) fun r =>
        readTriples (n + 1) r
      unfold readTriples
      refine Framed.bind (framed_need 3) fun value => ?_
      exact Framed.bind ih fun values => Framed.ok fun _ _ => rfl

theorem framed_readLengths (book : Codebook) (total fuel : Nat)
    (done : List Nat) :
    Framed (readLengths book total fuel done)
      (readLengths book total fuel done) := by
  induction fuel generalizing done with
  | zero =>
      change Framed (fun r => readLengths book total 0 done r)
        fun r => readLengths book total 0 done r
      unfold readLengths
      exact Framed.ite (fun _ => Framed.ok fun _ _ => rfl) fun _ =>
        Framed.error _ _
  | succ fuel ih =>
      change Framed (fun r => readLengths book total (fuel + 1) done r)
        fun r => readLengths book total (fuel + 1) done r
      unfold readLengths
      refine Framed.ite (fun _ => Framed.ok fun _ _ => rfl) fun _ => ?_
      refine Framed.ite (fun _ => Framed.error _ _) fun _ => ?_
      refine Framed.bind (framed_read book) fun symbol => ?_
      dsimp only
      refine Framed.ite (fun _ => ih _) fun _ => ?_
      refine Framed.ite (fun _ => ?_) fun _ => ?_
      · cases done with
        | nil => exact Framed.error _ _
        | cons last done =>
            refine Framed.bind (framed_need 2) fun n => ?_
            exact ih (List.replicate (n + 3) last ++ last :: done)
      · refine Framed.ite (fun hshort => ?_) fun hlong => ?_
        · simp only [if_pos hshort]
          refine Framed.bind (framed_need 3) fun n => ?_
          exact ih (List.replicate (n + 3) 0 ++ done)
        · simp only [if_neg hlong]
          refine Framed.bind (framed_need 7) fun n => ?_
          exact ih (List.replicate (n + 11) 0 ++ done)

theorem framed_readCodes : Framed readCodes readCodes := by
  unfold readCodes
  refine Framed.bind (framed_need 5) fun literalCount => ?_
  refine Framed.bind (framed_need 5) fun distanceCount => ?_
  refine Framed.bind (framed_need 4) fun lengthCount => ?_
  dsimp only
  refine Framed.ite (fun _ => Framed.error _ _) fun _ => ?_
  refine Framed.bind (framed_readTriples _) fun written => ?_
  dsimp only
  refine Framed.ite (fun _ => Framed.error _ _) fun _ => ?_
  refine Framed.bind (framed_readLengths _ _ _ _) fun lengths => ?_
  dsimp only
  exact Framed.ite (fun _ => Framed.ok fun _ _ => rfl) fun _ => Framed.error _ _

theorem framed_readBlock {fuel more : Nat} (hfuel : fuel ≤ more)
    (out : Array UInt8) :
    Framed (readBlock fuel out) (readBlock more out) := by
  unfold readBlock
  refine Framed.bind (framed_need 1) fun final => ?_
  refine Framed.bind (framed_need 2) fun form => ?_
  dsimp only
  refine Framed.ite (fun _ => ?_) fun _ => ?_
  · exact Framed.bind (framed_readStored out) fun stored =>
      Framed.ok fun _ _ => rfl
  refine Framed.ite (fun _ => ?_) fun _ => ?_
  · exact Framed.bind (framed_readTokens _ _ hfuel out) fun stored =>
      Framed.ok fun _ _ => rfl
  refine Framed.ite (fun _ => ?_) fun _ => Framed.error _ _
  refine Framed.bind framed_readCodes fun literals =>
    Framed.opened fun distances => ?_
  exact Framed.bind (framed_readTokens _ _ hfuel out) fun stored =>
    Framed.ok fun _ _ => rfl

theorem framed_readBlocks {tokens more fuel blocks : Nat}
    (htokens : tokens ≤ more) (hfuel : fuel ≤ blocks) (out : Array UInt8) :
    Framed (readBlocks tokens fuel out) (readBlocks more blocks out) := by
  induction fuel generalizing blocks out with
  | zero => exact Framed.error _ _
  | succ fuel ih =>
      cases blocks with
      | zero => exact absurd hfuel (Nat.not_succ_le_zero fuel)
      | succ blocks =>
          change Framed (fun r => readBlocks tokens (fuel + 1) out r)
            fun r => readBlocks more (blocks + 1) out r
          unfold readBlocks
          refine Framed.bind (framed_readBlock htokens out) fun final =>
            Framed.opened fun out => ?_
          dsimp only
          exact Framed.ite (fun _ => Framed.ok fun _ _ => rfl) fun _ =>
            ih (Nat.le_of_succ_le_succ hfuel) out

/-- Data is expanded in front of any other bytes as it is alone. -/
theorem inflate_append {packed data rest : Bytes} (tail : Bytes)
    (h : inflate packed = .ok (data, rest)) :
    inflate (packed ++ tail) = .ok (data, rest ++ tail) := by
  have hfuel : 8 * packed.length + 1 ≤ 8 * (packed ++ tail).length + 1 := by
    rw [List.length_append]
    omega
  have hblocks := framed_readBlocks hfuel hfuel #[] (.ofBytes packed)
  unfold inflate at h ⊢
  dsimp only at h ⊢
  cases hread :
      readBlocks (8 * packed.length + 1) (8 * packed.length + 1) #[]
        (.ofBytes packed) with
  | error e =>
      rw [hread] at h
      nomatch h
  | ok p =>
      have hlong :
          readBlocks (8 * (packed ++ tail).length + 1)
            (8 * (packed ++ tail).length + 1) #[] (.ofBytes (packed ++ tail)) =
            .ok (extend tail p) := hblocks p tail hread
      rw [hread] at h
      rw [hlong]
      obtain ⟨rfl, rfl⟩ := Prod.mk.inj (Except.ok.inj h)
      rfl

end Telemetry.Deflate
