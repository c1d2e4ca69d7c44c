import Telemetry.Proofs.Report.Accounting

/-!
# The chunks of a batch

What a worker hands to delivery is the batch and nothing else: cut into chunks
none of which is empty, it is the batch put together again, but for the one
count of polls that the ledger has turned into an increment.  Whatever happens
on the way no chunk is handed over twice, and without a shutdown none is
forgotten.
-/

namespace Telemetry

open PollLedger

variable {σ : Type}

/-! ## The sizes of the parts -/

/-- All parts of a list have the length at which it is cut, except the last one,
which takes the rest. -/
theorem exists_cutParts_eq
    {α : Type} {length parts : Nat} {xs : List α}
    (h : parts * length ≤ xs.length) :
    ∃ front last, cutParts length parts xs = front ++ [last] ∧
      front.length = parts ∧ (∀ part ∈ front, part.length = length) ∧
      last.length = xs.length - parts * length := by
  induction parts generalizing xs with
  | zero => exact ⟨[], xs, rfl, rfl, by simp, by simp⟩
  | succ parts ih =>
      rw [Nat.succ_mul] at h
      have hdrop : (xs.drop length).length = xs.length - length :=
        List.length_drop
      have hrest : parts * length ≤ (xs.drop length).length := by omega
      obtain ⟨front, last, hcut, hfront, hlength, hlast⟩ := ih hrest
      refine ⟨xs.take length :: front, last, ?_, ?_, ?_, ?_⟩
      · rw [cutParts, hcut, List.cons_append]
      · rw [List.length_cons, hfront]
      · intro part hpart
        rcases List.mem_cons.mp hpart with rfl | hpart
        · rw [List.length_take]
          omega
        · exact hlength part hpart
      · rw [hlast, hdrop, Nat.succ_mul]
        omega

/-- How a list of `size` elements is cut into at most `n` parts. -/
inductive EvenlyCut {α : Type} (n size : Nat) : List (List α) → Prop
  /-- A short list is cut into its elements. -/
  | single {parts : List (List α)} (hshort : size ≤ n)
      (hnumber : parts.length = size)
      (hparts : ∀ part ∈ parts, part.length = 1) : EvenlyCut n size parts
  /-- A long one is cut into `n` parts of the same length, but the last
  takes the remainder. -/
  | even {front : List (List α)} {last : List α} (hlong : n < size)
    (hnumber : (front ++ [last]).length = n)
    (hfront : ∀ part ∈ front, part.length = size / n)
    (hlast : last.length = size / n + size % n) :
    EvenlyCut n size (front ++ [last])

theorem evenlyCut_partition {α : Type} (n : Nat) (xs : List α) :
    EvenlyCut (max n 1) xs.length (partition n xs) := by
  have hpos : 0 < max n 1 :=
    Nat.lt_of_lt_of_le Nat.zero_lt_one (Nat.le_max_right n 1)
  rw [partition]
  generalize max n 1 = n at hpos
  by_cases hshort : xs.length ≤ n
  · rw [if_pos hshort]
    refine .single hshort (List.length_map _) ?_
    intro part hpart
    obtain ⟨x, -, rfl⟩ := List.mem_map.mp hpart
    exact List.length_singleton
  · rw [if_neg hshort]
    have hrest : (n - 1) * (xs.length / n) + (xs.length / n + xs.length % n) =
        xs.length := by
      rw [← Nat.add_assoc, ← Nat.succ_mul, Nat.succ_eq_add_one,
        Nat.sub_add_cancel hpos, Nat.div_add_mod]
    have hfits : (n - 1) * (xs.length / n) ≤ xs.length := Nat.le.intro hrest
    obtain ⟨front, last, hcut, hfront, hlength, hlast⟩ :=
      exists_cutParts_eq hfits
    rw [hcut]
    refine .even (Nat.lt_of_not_le hshort) ?_ hlength ?_
    · rw [List.length_append, hfront, List.length_singleton,
        Nat.sub_add_cancel hpos]
    · rw [hlast]
      exact Nat.sub_eq_of_eq_add' hrest.symm

example : (partition 3 (List.range 10)).map List.length = [3, 3, 4] := by decide

namespace EvenlyCut

variable {α : Type} {n size : Nat} {parts : List (List α)}

theorem length_le (h : EvenlyCut n size parts) : parts.length ≤ n := by
  cases h with
  | single hshort hnumber _ => exact hnumber.trans_le hshort
  | even _ hnumber _ _ => exact hnumber.le

theorem ne_nil (h : EvenlyCut n size parts) (hpos : 0 < n) {part : List α}
    (hpart : part ∈ parts) : part ≠ [] := by
  apply List.ne_nil_of_length_pos
  cases h with
  | single _ _ hparts =>
      rw [hparts part hpart]
      exact Nat.one_pos
  | even hlong _ hfront hlast =>
      have hquotient : 0 < size / n := Nat.div_pos hlong.le hpos
      rcases List.mem_append.mp hpart with hpart | hpart
      · rwa [hfront part hpart]
      · obtain rfl := List.mem_singleton.mp hpart
        rw [hlast]
        exact Nat.add_pos_left hquotient _

end EvenlyCut

/-! ## What is booked -/

/-- A batch as it is sent: the first count of polls, if there is one, is
replaced by its increment over the latest count of the ledger, and
nothing else changes. -/
inductive Booking (l : PollLedger) : Batch → Batch → Prop
  | untracked {batch : Batch} (h : ∀ m ∈ batch, isPollCount m = false) :
      Booking l batch batch
  | tracked {front back : Batch} {m : Metric}
      (hfront : ∀ x ∈ front, isPollCount x = false)
      (hcount : isPollCount m = true) :
    Booking l (front ++ m :: back)
      (front ++ { m with delta := some (m.delta.getD l.latest - l.latest) } ::
        back)

theorem booking_booked (l : PollLedger) (batch : Batch) :
    Booking l batch (l.booked batch) := by
  rw [booked]
  cases hbook : l.book? batch with
  | none => exact .untracked (book?_eq_none_iff.mp hbook)
  | some p =>
      obtain ⟨front, m, back, rfl, hfront, hm, hbooked, -⟩ :=
        exists_of_book?_eq_some hbook
      rw [Option.map_some, Option.getD_some, hbooked]
      exact .tracked hfront hm

theorem Booking.length_eq {l : PollLedger} {batch booked : Batch}
    (h : Booking l batch booked) :
    booked.length = batch.length := by
  cases h with
  | untracked _ => rfl
  | tracked _ _ => simp

/-! ## What is handed over -/

/-- Delivery that also notes the chunks it is handed, in their order. -/
def noting
    (deliver : Batch → StateM σ (Except TransportError Unit)) (chunk : Batch) :
    StateM (List Batch × σ) (Except TransportError Unit) :=
  fun (handed, world) =>
    ((deliver chunk world).1, (handed ++ [chunk], (deliver chunk world).2))

namespace Flight

variable {deliver : Batch → StateM σ (Except TransportError Unit)}
  {f : Flight (List Batch × σ)}

def plain (f : Flight (List Batch × σ)) : Flight σ :=
  ⟨f.chunks, f.failure, f.stopped, f.world.2⟩

theorem plain_step (turn : Turn) :
    (f.step (noting deliver) turn).plain = f.plain.step deliver turn := by
  cases turn with
  | shutdown => rfl
  | finish i =>
      by_cases hi : ∃ chunk, f.chunks[i]? = some (some chunk)
      · obtain ⟨chunk, hi⟩ := hi
        rw [step_finish_of_waiting hi, step_finish_of_waiting (f := f.plain) hi]
        rfl
      · have hdone : ∀ chunk, f.chunks[i]? ≠ some (some chunk) :=
          fun chunk hchunk => hi ⟨chunk, hchunk⟩
        rw [step_finish_of_done hdone, step_finish_of_done (f := f.plain) hdone]

theorem plain_foldl (turns : List Turn) :
    (turns.foldl (step (noting deliver)) f).plain =
      turns.foldl (step deliver) f.plain := by
  induction turns generalizing f with
  | nil => rfl
  | cons turn turns ih => rw [List.foldl_cons, ih, plain_step, List.foldl_cons]

/-- Taking notes changes nothing else. -/
theorem plain_run (turns : List Turn) :
    (f.run (noting deliver) turns).plain = f.plain.run deliver turns := by
  rw [run, run, ← plain_foldl]
  generalize turns.foldl (step (noting deliver)) f = f
  change (if f.stopped then f else _).plain = if f.stopped then f.plain else _
  by_cases hstopped : f.stopped = true
  · rw [if_pos hstopped, if_pos hstopped]
  · rw [if_neg hstopped, if_neg hstopped]
    exact plain_foldl _

/-- While chunks are on their way each of them has been handed
over or is waiting. -/
def Hands (chunks : List Batch) (f : Flight (List Batch × σ)) : Prop :=
  (f.world.1 ++ f.waiting).Perm chunks

theorem Hands.step {chunks : List Batch} (h : f.Hands chunks) (turn : Turn) :
    (f.step (noting deliver) turn).Hands chunks := by
  cases turn with
  | shutdown => exact h
  | finish i =>
      by_cases hi : ∃ chunk, f.chunks[i]? = some (some chunk)
      · obtain ⟨chunk, hi⟩ := hi
        have hwaiting :
            (chunk :: (f.chunks.set i none).filterMap id).Perm f.waiting :=
          filterMap_set_perm hi rfl rfl
        rw [step_finish_of_waiting hi]
        have hmoved := (hwaiting.append_left f.world.1).trans h
        rwa [List.append_cons] at hmoved
      · rw [step_finish_of_done (fun chunk hchunk => hi ⟨chunk, hchunk⟩)]
        exact h

variable (deliver) in
theorem Hands.foldl {chunks : List Batch} (h : f.Hands chunks)
    (turns : List Turn) :
    (turns.foldl (Flight.step (noting deliver)) f).Hands chunks := by
  induction turns generalizing f with
  | nil => exact h
  | cons turn turns ih => exact ih (h.step turn)

theorem stopped_foldl {turns : List Turn} (hturns : .shutdown ∉ turns) :
    (turns.foldl (step (noting deliver)) f).stopped = f.stopped := by
  induction turns generalizing f with
  | nil => rfl
  | cons turn turns ih =>
      obtain ⟨hturn, hrest⟩ := not_or.mp (mt List.mem_cons.mpr hturns)
      rw [List.foldl_cons, ih hrest]
      cases turn with
      | shutdown => exact absurd rfl hturn
      | finish i =>
          by_cases hi : ∃ chunk, f.chunks[i]? = some (some chunk)
          · obtain ⟨chunk, hi⟩ := hi
            rw [step_finish_of_waiting hi]
          · rw [step_finish_of_done (fun chunk hchunk => hi ⟨chunk, hchunk⟩)]

variable (deliver) in
/-- Chunks are handed over once at most, and all of them
unless shutdown comes. -/
theorem exists_handed (chunks : List Batch) (turns : List Turn) (w : σ) :
    ∃ missing,
      (((start chunks ([], w)).run (noting deliver) turns).world.1 ++
        missing).Perm chunks ∧
        (.shutdown ∉ turns → missing = []) := by
  have hstart : (start chunks (([], w) : List Batch × σ)).Hands chunks := by
    simp [Hands, start, waiting]
  have hturns := hstart.foldl deliver turns
  rw [run]
  by_cases hstopped :
    (turns.foldl (step (noting deliver)) (start chunks ([], w))).stopped = true
  · rw [if_pos hstopped]
    refine ⟨_, hturns, fun hnone => ?_⟩
    rw [stopped_foldl hnone] at hstopped
    exact absurd hstopped Bool.false_ne_true
  · rw [if_neg hstopped]
    have hall := hturns.foldl deliver ((List.range
      (turns.foldl (step (noting deliver))
        (start chunks ([], w))).chunks.length).map .finish)
    rw [Hands, waiting_foldl_finish] at hall
    exact ⟨[], hall, fun _ => rfl⟩

variable (deliver) in
/-- Chunks that are waiting at the end of a batch are handed
over in their order. -/
theorem handed_range' {done : Nat} {chunks : List Batch}
    (h : f.chunks = List.replicate done none ++ chunks.map some) :
    (((List.range' done chunks.length).map Turn.finish).foldl
      (step (noting deliver)) f).world.1 = f.world.1 ++ chunks := by
  induction chunks generalizing done f with
  | nil => exact (List.append_nil _).symm
  | cons chunk chunks ih =>
      have hi : f.chunks[done]? = some (some chunk) := by simp [h]
      have hset : f.chunks.set done none =
          List.replicate (done + 1) none ++ chunks.map some := by
        rw [h, List.set_append_right _ _ (by simp), List.replicate_succ',
          List.append_assoc]
        simp
      rw [List.length_cons, List.range'_succ, List.map_cons, List.foldl_cons,
        step_finish_of_waiting hi, ih hset]
      exact List.append_assoc _ [chunk] chunks

theorem handed_of_nil (chunks : List Batch) (w : σ) :
    ((start chunks ([], w)).run (noting deliver) []).world.1 = chunks := by
  have hchunks : (start chunks (([], w) : List Batch × σ)).chunks =
      List.replicate 0 none ++ chunks.map some := rfl
  have hhanded := handed_range' deliver hchunks
  rwa [← List.range_eq_range', ← List.length_map (f := some)] at hhanded

end Flight

namespace WorkerPool

variable {deliver : Batch → StateM σ (Except TransportError Unit)}

/-- Taking notes changes nothing of what a worker does. -/
theorem process_noting {batch : Batch} (hne : batch ≠ []) (turns : List Turn)
    (pool : WorkerPool) (w : σ) :
    pool.process (noting deliver) turns batch ([], w) =
      ((pool.process deliver turns batch w).1,
        (pool.process deliver turns batch w).2.1,
        ((Flight.start (partition pool.rateLimit (pool.ledger.booked batch))
          ([], w)).run (noting deliver) turns).world.1,
        (pool.process deliver turns batch w).2.2) := by
  have hempty : ¬ batch.isEmpty = true := fun h => hne (List.isEmpty_iff.mp h)
  have hbooked : pool.ledger.booked batch =
      ((pool.ledger.book? batch).getD (batch, pool.ledger)).1 := by
    rw [booked]
    cases pool.ledger.book? batch <;> rfl
  rw [process, process, if_neg hempty, if_neg hempty, hbooked]
  obtain ⟨booked, ledger⟩ := (pool.ledger.book? batch).getD (batch, pool.ledger)
  have hplain :
      (Flight.start (partition pool.rateLimit booked) w).run deliver turns =
      ((Flight.start (partition pool.rateLimit booked) ([], w)).run
        (noting deliver) turns).plain :=
    (Flight.plain_run (f := .start (partition pool.rateLimit booked) ([], w))
      turns).symm
  dsimp only
  rw [hplain]
  generalize (Flight.start (partition pool.rateLimit booked) ([], w)).run
    (noting deliver) turns = flight
  obtain ⟨_, failure, _, _⟩ := flight
  cases failure <;> rfl

/-- What a worker hands to delivery.  There are chunks, none of them empty and
no more than the rate limit allows, that make up the batch as it is booked.
Whatever happens each of them is handed over once at most; unless shutdown comes
all of them are, and in their order when nothing happens in between. -/
theorem process_hands_over
    (deliver : Batch → StateM σ (Except TransportError Unit))
    (turns : List Turn) (batch : Batch) (pool : WorkerPool) (w : σ) :
    ∃ chunks : List Batch,
      Booking pool.ledger batch chunks.flatten ∧
      EvenlyCut (max pool.rateLimit 1) batch.length chunks ∧
      chunks.length ≤ max pool.rateLimit 1 ∧ (∀ chunk ∈ chunks, chunk ≠ []) ∧
      ∃ handed missing,
        pool.process (noting deliver) turns batch ([], w) =
          ((pool.process deliver turns batch w).1,
            (pool.process deliver turns batch w).2.1, handed,
            (pool.process deliver turns batch w).2.2) ∧
        (handed ++ missing).Perm chunks ∧ (.shutdown ∉ turns → missing = []) ∧
        (turns = [] → handed = chunks) := by
  have hbooking := booking_booked pool.ledger batch
  have hcut := evenlyCut_partition pool.rateLimit (pool.ledger.booked batch)
  rw [hbooking.length_eq] at hcut
  have hpos : 0 < max pool.rateLimit 1 :=
    Nat.lt_of_lt_of_le Nat.zero_lt_one (Nat.le_max_right _ 1)
  refine ⟨partition pool.rateLimit (pool.ledger.booked batch), ?_, hcut,
    hcut.length_le,
    fun chunk => hcut.ne_nil hpos, ?_⟩
  · rw [flatten_partition]
    exact hbooking
  · by_cases hne : batch = []
    · subst hne
      exact ⟨[], [], rfl, .nil, fun _ => rfl, fun _ => rfl⟩
    · obtain ⟨missing, hperm, hmissing⟩ :=
        Flight.exists_handed deliver
          (partition pool.rateLimit (pool.ledger.booked batch)) turns w
      refine ⟨_, missing, process_noting hne turns pool w, hperm, hmissing, ?_⟩
      rintro rfl
      exact Flight.handed_of_nil _ w

end WorkerPool

end Telemetry
