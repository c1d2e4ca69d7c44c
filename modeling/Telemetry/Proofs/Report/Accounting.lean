import Telemetry.Proofs.Report.Flight
import Telemetry.Proofs.Report.Ledger
import Mathlib.Tactic.Linarith

/-!
# Accounting for polls

Batches are sent one after the other, each with its own course of events.  The
latest count of the ledger is the count of the last batch that succeeded, and it
is the sum of the increments that successful batches carried.  What the receiver
adds up exceeds it by the increments that arrived with batches that failed.
-/

namespace Telemetry

open PollLedger

variable {σ : Type}

/-- A batch that was sent: the ledger before and after, what came of it, and the
chunks that arrived meanwhile. -/
structure Sending where
  batch : Batch
  rateLimit : Nat
  before : PollLedger
  result : Except TransportError Unit
  after : PollLedger
  arrived : List Batch

namespace Sending

def succeeded (s : Sending) : Bool := s.result.isOk

def chunks (s : Sending) : List Batch :=
  partition s.rateLimit (s.before.booked s.batch)

/-- The count of polls of the batch, if it has one. -/
def count? (s : Sending) : Option Int64 := s.before.count? s.batch

/-- The polls since the latest count when the batch was sent. -/
def increment (s : Sending) : Int :=
  (s.count?.getD s.before.latest - s.before.latest).toInt

def shipped (s : Sending) : Int := pollTotal s.arrived.flatten

def countArrived (s : Sending) : Bool := s.arrived.flatten.any isPollCount

/-- What holds of every batch that is sent: its chunks arrive once or not at
all, and all of them when it succeeds; the ledger moves only when a batch with a
count of polls succeeds. -/
structure Sound (s : Sending) : Prop where
  arrival : ∃ missing, (s.arrived ++ missing).Perm s.chunks ∧
    (s.succeeded = true → missing = [])
  latest : s.after.latest =
    if s.succeeded then s.count?.getD s.before.latest else s.before.latest
  unmoved : s.count? = none → s.after = s.before

end Sending

/-- One batch is sent; the record of it, and the pool and the
world afterwards. -/
def Carrier.send (c : Carrier σ) (batch : Batch) (turns : List Turn)
    (pool : WorkerPool) (w : σ) : Sending × WorkerPool × σ :=
  let (result, pool', w') := pool.process c.deliver turns batch w
  (⟨batch, pool.rateLimit, pool.ledger, result, pool'.ledger,
    (c.arrivals w').drop (c.arrivals w).length⟩, pool', w')

/-- The records of batches that are sent one after the other. -/
def Carrier.sendings (c : Carrier σ) :
    List (Batch × List Turn) → WorkerPool → σ → List Sending
  | [], _, _ => []
  | (batch, turns) :: rest, pool, w =>
    let (s, pool', w') := c.send batch turns pool w
    s :: c.sendings rest pool' w'

/-! ## One batch -/

/-- The ledger after a batch was sent, by whether it succeeded. -/
def PollLedger.settle (l : PollLedger) (batch : Batch) (ok : Bool) :
    PollLedger :=
  match l.count? batch with
  | none => l
  | some count => ⟨l.latest, if ok then count else l.latest⟩

/-- A batch that is not empty is booked and sent in chunks, and the ledger is
settled by whether any chunk failed. -/
theorem WorkerPool.process_of_ne_nil
    (deliver : Batch → StateM σ (Except TransportError Unit))
    (turns : List Turn) {batch : Batch} (hne : batch ≠ []) (pool : WorkerPool)
    (w : σ) :
    let flight :=
      (Flight.start (partition pool.rateLimit (pool.ledger.booked batch)) w).run
        deliver turns
    (pool.process deliver turns batch w).1.isOk = flight.failure.isNone ∧
      (pool.process deliver turns batch w).2 =
        ({ pool with ledger := pool.ledger.settle batch flight.failure.isNone },
          flight.world) := by
  intro flight
  have hempty : batch.isEmpty = false := by cases batch <;> simp_all
  unfold WorkerPool.process settle
  rw [hempty]
  cases hcount : pool.ledger.count? batch with
  | none =>
      have hbook := count?_eq_none_iff.mp hcount
      have hbooked : pool.ledger.booked batch = batch := by simp [booked, hbook]
      simp only [hbook, flight, hbooked]
      cases hfailure : ((Flight.start (partition pool.rateLimit batch) w).run
          deliver turns).failure <;> simp [hfailure, Except.isOk, Except.toBool]
  | some count =>
      simp only [book?_eq_of_count? hcount, flight]
      cases hfailure : ((Flight.start (partition pool.rateLimit
          (pool.ledger.booked batch)) w).run deliver turns).failure <;>
        simp [hfailure, Except.isOk, Except.toBool, rollback]

theorem Carrier.sound_send (c : Carrier σ) (batch : Batch) (turns : List Turn)
    (pool : WorkerPool) (w : σ) : (c.send batch turns pool w).1.Sound := by
  by_cases hne : batch = []
  · subst hne
    refine ⟨⟨[], ?_, fun _ => rfl⟩, ?_, fun _ => rfl⟩
    · simp [Carrier.send, WorkerPool.process, Sending.chunks, booked, book?,
        partition]
    · simp [Carrier.send, WorkerPool.process, Sending.count?, count?]
  · obtain ⟨hresult, hafter⟩ :=
      WorkerPool.process_of_ne_nil c.deliver turns hne pool w
    obtain ⟨arrived, missing, harrived, hperm, hmissing⟩ :=
      Flight.arrivals_run c turns
        (partition pool.rateLimit (pool.ledger.booked batch)) w
    have hpool := congrArg Prod.fst hafter
    have hworld := congrArg Prod.snd hafter
    refine ⟨⟨missing, ?_, ?_⟩, ?_, ?_⟩
    · simpa [Carrier.send, hworld, harrived, Sending.chunks] using hperm
    · intro hok
      apply hmissing
      simpa [Carrier.send, Sending.succeeded, hresult] using hok
    · simp only [Carrier.send, hpool, Sending.succeeded, hresult,
        Sending.count?, settle]
      cases pool.ledger.count? batch with
      | none => simp
      | some count => simp
    · intro hnone
      simp only [Carrier.send, Sending.count?] at hnone
      simp [Carrier.send, hpool, settle, hnone]

namespace Sending

/-- At most one metric of the batch counts polls, and its
count is not negative. -/
structure Countable (s : Sending) : Prop where
  single : s.batch.countP isPollCount ≤ 1
  nonneg : ∀ m ∈ s.batch, isPollCount m = true → 0 ≤ m.delta.getD 0

theorem Countable.count_nonneg {s : Sending} (h : s.Countable)
    (hlatest : 0 ≤ s.before.latest) {count : Int64}
    (hcount : s.count? = some count) :
    0 ≤ count := by
  obtain ⟨m, hm, rfl⟩ := Option.map_eq_some_iff.mp hcount
  have hmem : m ∈ s.batch := List.mem_of_find?_eq_some hm
  have hpoll : isPollCount m = true := List.find?_some hm
  have hnonneg := h.nonneg m hmem hpoll
  cases hdelta : m.delta with
  | none => simpa [hdelta] using hlatest
  | some d => simpa [hdelta] using hnonneg

theorem increment_eq {s : Sending} (h : s.Countable)
    (hlatest : 0 ≤ s.before.latest) :
    s.increment =
      (s.count?.getD s.before.latest).toInt - s.before.latest.toInt := by
  refine toInt_sub_of_nonneg ?_ hlatest
  cases hcount : s.count? with
  | none => simpa using hlatest
  | some count => simpa using h.count_nonneg hlatest hcount

/-- The chunks of a batch carry its increment. -/
theorem pollTotal_chunks {s : Sending} (h : s.Countable) :
    pollTotal s.chunks.flatten = s.increment := by
  rw [chunks, flatten_partition]
  cases hcount : s.count? with
  | none =>
      rw [pollTotal_booked_of_none hcount, increment, hcount]
      simp
  | some count =>
      rw [pollTotal_booked_of_some h.single hcount, increment, hcount]
      rfl

theorem Sound.latest_nonneg {s : Sending} (hs : s.Sound) (h : s.Countable)
    (hlatest : 0 ≤ s.before.latest) : 0 ≤ s.after.latest := by
  rw [hs.latest]
  split
  · cases hcount : s.count? with
    | none => simpa using hlatest
    | some count => simpa using h.count_nonneg hlatest hcount
  · exact hlatest

/-- A batch that succeeds carries the polls by which the ledger moves. -/
theorem Sound.shipped_of_succeeded {s : Sending} (hs : s.Sound)
    (h : s.Countable) (hlatest : 0 ≤ s.before.latest)
    (hok : s.succeeded = true) :
    s.shipped = s.after.latest.toInt - s.before.latest.toInt := by
  obtain ⟨missing, hperm, hmissing⟩ := hs.arrival
  rw [hmissing hok, List.append_nil] at hperm
  rw [hs.latest, if_pos hok, ← increment_eq h hlatest, ← pollTotal_chunks h]
  exact pollTotal_perm hperm.flatten

/-- Of a batch that fails either the whole increment arrives
or nothing of it. -/
theorem Sound.shipped_eq {s : Sending} (hs : s.Sound) (h : s.Countable) :
    s.shipped = if s.countArrived then s.increment else 0 := by
  obtain ⟨missing, hperm, -⟩ := hs.arrival
  have hflat := hperm.flatten
  rw [List.flatten_append] at hflat
  have htotal : s.shipped + pollTotal missing.flatten = s.increment := by
    rw [shipped, ← pollTotal_append, pollTotal_perm hflat, pollTotal_chunks h]
  have hcount : s.arrived.flatten.countP isPollCount +
      missing.flatten.countP isPollCount ≤ 1 := by
    rw [← List.countP_append, hflat.countP_eq, chunks, flatten_partition,
      countP_booked]
    exact h.single
  split
  · next harrived =>
      have hpos : 0 < s.arrived.flatten.countP isPollCount :=
        List.countP_pos_iff.mpr (List.any_eq_true.mp harrived)
      have hnone : missing.flatten.countP isPollCount = 0 := by omega
      have hzero : pollTotal missing.flatten = 0 :=
        pollTotal_eq_zero fun m hm => by
          simpa using List.countP_eq_zero.mp hnone m hm
      omega
  · next harrived =>
      refine pollTotal_eq_zero fun m hm => ?_
      by_contra hpoll
      exact harrived (List.any_eq_true.mpr ⟨m, hm, by simpa using hpoll⟩)

end Sending

/-! ## Batches one after the other -/

def total {α : Type} (f : α → Int) : List α → Int
  | [] => 0
  | a :: rest => f a + total f rest

/-- The latest count after batches were sent, given the one before. -/
def latestCount (start : Int64) : List Sending → Int64
  | [] => start
  | s :: rest => latestCount s.after.latest rest

/-- Each batch was sent with the ledger that the one before it left behind. -/
def Chained : PollLedger → List Sending → Prop
  | _, [] => True
  | l, s :: rest => s.before = l ∧ s.Sound ∧ s.Countable ∧ Chained s.after rest

theorem Chained.front {l : PollLedger} {done all : List Sending}
    (h : Chained l all) (hdone : done <+: all) : Chained l done := by
  induction done generalizing l all with
  | nil => trivial
  | cons s done ih =>
      obtain ⟨tail, rfl⟩ := hdone
      obtain ⟨hbefore, hsound, hcountable, hrest⟩ := h
      exact ⟨hbefore, hsound, hcountable,
        ih hrest (List.prefix_append done tail)⟩

theorem Chained.mem {l : PollLedger} {done : List Sending} (h : Chained l done)
    {s : Sending} (hs : s ∈ done) : s.Sound := by
  induction done generalizing l with
  | nil => simp at hs
  | cons t done ih =>
      rcases List.mem_cons.mp hs with rfl | hs
      · exact h.2.1
      · exact ih h.2.2.2 hs

theorem Carrier.chained_sendings (c : Carrier σ)
    {calls : List (Batch × List Turn)}
    (hsingle : ∀ call ∈ calls, call.1.countP isPollCount ≤ 1)
    (hcounts : ∀ call ∈ calls, ∀ m ∈ call.1, isPollCount m = true →
      0 ≤ m.delta.getD 0) (pool : WorkerPool) (w : σ) :
    Chained pool.ledger (c.sendings calls pool w) := by
  induction calls generalizing pool w with
  | nil => trivial
  | cons call calls ih =>
      refine ⟨rfl, c.sound_send call.1 call.2 pool w,
        ⟨hsingle call List.mem_cons_self, hcounts call List.mem_cons_self⟩, ?_⟩
      exact ih (fun call hcall => hsingle call (List.mem_cons_of_mem _ hcall))
        (fun call hcall => hcounts call (List.mem_cons_of_mem _ hcall)) _ _

/-- The latest count is that of the last batch with a count that succeeded. -/
theorem Chained.latestCount_eq {l : PollLedger} {done : List Sending}
    (h : Chained l done) :
    latestCount l.latest done =
      ((done.filter Sending.succeeded).filterMap Sending.count?).getLast?.getD
        l.latest := by
  induction done generalizing l with
  | nil => rfl
  | cons s done ih =>
      obtain ⟨rfl, hsound, -, hrest⟩ := h
      rw [latestCount, ih hrest, hsound.latest]
      by_cases hok : s.succeeded = true
      · rw [if_pos hok, List.filter_cons_of_pos hok, List.filterMap_cons]
        cases s.count? with
        | none => rfl
        | some count => simp [List.getLast?_cons]
      · rw [if_neg hok, List.filter_cons_of_neg hok]

/-- What successful batches carry adds up to the latest count. -/
theorem Chained.total_succeeded {l : PollLedger} {done : List Sending}
    (h : Chained l done) (hlatest : 0 ≤ l.latest) :
    total Sending.shipped (done.filter Sending.succeeded) =
      (latestCount l.latest done).toInt - l.latest.toInt := by
  induction done generalizing l with
  | nil => simp [total, latestCount]
  | cons s done ih =>
      obtain ⟨rfl, hsound, hcountable, hrest⟩ := h
      have htail := ih hrest (hsound.latest_nonneg hcountable hlatest)
      rw [latestCount]
      by_cases hok : s.succeeded = true
      · rw [List.filter_cons_of_pos hok, total, htail,
          hsound.shipped_of_succeeded hcountable hlatest hok]
        ring
      · rw [List.filter_cons_of_neg hok, htail, hsound.latest, if_neg hok]

/-- What arrives is what successful batches carry and the increments that arrive
with batches that fail. -/
theorem Chained.total_shipped {l : PollLedger} {done : List Sending}
    (h : Chained l done) :
    total Sending.shipped done =
      total Sending.shipped (done.filter Sending.succeeded) +
        total Sending.increment
          (done.filter fun s => !s.succeeded && s.countArrived) := by
  induction done generalizing l with
  | nil => rfl
  | cons s done ih =>
      obtain ⟨-, hsound, hcountable, hrest⟩ := h
      rw [total, ih hrest]
      by_cases hok : s.succeeded = true
      · rw [List.filter_cons_of_pos hok,
          List.filter_cons_of_neg (by simp [hok]), total]
        ring
      · rw [List.filter_cons_of_neg hok, hsound.shipped_eq hcountable]
        by_cases harrived : s.countArrived = true
        · rw [List.filter_cons_of_pos (by simp [hok, harrived]),
            if_pos harrived, total]
          ring
        · rw [List.filter_cons_of_neg (by simp [harrived]), if_neg harrived]
          ring

/-- Accounting for polls.  After any number of batches, with at most one count
of polls each and whatever becomes of their chunks: a batch succeeds only when
each of its chunks has arrived; the latest count of the ledger is that of the
last successful batch with a count, it is the sum of the increments that
successful batches carried, and batches without a count leave the ledger alone;
and what the receiver adds up is the latest count and the increments that
arrived with batches that failed. -/
theorem pollCount_accounting (c : Carrier σ) (rateLimit : Nat)
    (calls : List (Batch × List Turn)) (w : σ)
    (hsingle : ∀ call ∈ calls, call.1.countP isPollCount ≤ 1)
    (hcounts : ∀ call ∈ calls, ∀ m ∈ call.1, isPollCount m = true →
      0 ≤ m.delta.getD 0) {done : List Sending}
        (hdone : done <+: c.sendings calls (.new rateLimit) w) :
    (∀ s ∈ done, s.succeeded = true → s.arrived.Perm s.chunks) ∧
      (∀ s ∈ done, s.count? = none → s.after = s.before) ∧
      latestCount 0 done =
        ((done.filter Sending.succeeded).filterMap Sending.count?).getLast?.getD
          0 ∧
      total Sending.shipped (done.filter Sending.succeeded) =
        (latestCount 0 done).toInt ∧
      total Sending.shipped done = (latestCount 0 done).toInt +
        total Sending.increment
          (done.filter fun s => !s.succeeded && s.countArrived) := by
  have hchain : Chained .start done :=
    (c.chained_sendings hsingle hcounts (.new rateLimit) w).front hdone
  have hsucceeded := hchain.total_succeeded (by decide)
  refine ⟨fun s hs hok => ?_, fun s hs => (hchain.mem hs).unmoved,
    hchain.latestCount_eq, ?_, ?_⟩
  · obtain ⟨missing, hperm, hmissing⟩ := (hchain.mem hs).arrival
    simpa [hmissing hok] using hperm
  · simpa [PollLedger.start] using hsucceeded
  · rw [hchain.total_shipped, hsucceeded]
    simp [PollLedger.start]

/-! ## A carrier that follows a script -/

/-- What becomes of a chunk: it arrives and its sender is told so, it arrives
while its sender is told otherwise, or it is lost. -/
inductive Fate where
  | delivered
  | unheard
  | lost
  deriving DecidableEq, Repr

/-- Chunks meet their fates in the order in which they are sent; when the script
is over they are delivered. -/
def Fate.deliver (chunk : Batch) :
    StateM (List Fate × List Batch) (Except TransportError Unit)
  | ([], arrived) => (.ok (), ([], arrived ++ [chunk]))
  | (.delivered :: script, arrived) => (.ok (), (script, arrived ++ [chunk]))
  | (.unheard :: script, arrived) =>
    (.error .noAnswer, (script, arrived ++ [chunk]))
  | (.lost :: script, arrived) => (.error .noAnswer, (script, arrived))

def Carrier.scripted : Carrier (List Fate × List Batch) where
  deliver := Fate.deliver
  arrivals := Prod.snd
  arrives_or_not := by
    rintro chunk ⟨_ | ⟨fate, script⟩, arrived⟩
    · exact Or.inr rfl
    · cases fate
      · exact Or.inr rfl
      · exact Or.inr rfl
      · exact Or.inl rfl
  arrives_of_ok := by
    rintro chunk ⟨_ | ⟨fate, script⟩, arrived⟩ hok
    · rfl
    · cases fate
      · rfl
      · simp [Fate.deliver] at hok
      · simp [Fate.deliver] at hok

/-- The first batch fails although its count of three polls arrives; the second
has a count of five and succeeds.  The receiver adds up to eight. -/
theorem pollCount_accounting_unheard :
    let calls : List (Batch × List Turn) :=
      [([.gauge "Alloc" ⟨0⟩, .counter Metric.pollCount 3], []),
        ([.counter Metric.pollCount 5], [])]
    let world : List Fate × List Batch := ([.lost, .unheard], [])
    let done := Carrier.scripted.sendings calls (.new 2) world
    (∀ call ∈ calls, call.1.countP isPollCount ≤ 1) ∧
      (∀ call ∈ calls, ∀ m ∈ call.1, isPollCount m = true →
        0 ≤ m.delta.getD 0) ∧
      total Sending.shipped done = (latestCount 0 done).toInt +
        total Sending.increment
          (done.filter fun s => !s.succeeded && s.countArrived) ∧
      latestCount 0 done = 5 ∧ total Sending.shipped done = 8 := by
  intro calls world done
  have hsingle : ∀ call ∈ calls, call.1.countP isPollCount ≤ 1 := by decide
  have hcounts : ∀ call ∈ calls, ∀ m ∈ call.1,
      isPollCount m = true → 0 ≤ m.delta.getD 0 := by decide
  have haccounts := pollCount_accounting Carrier.scripted 2 calls world hsingle
    hcounts (List.prefix_refl done)
  exact ⟨hsingle, hcounts, haccounts.2.2.2.2, by decide, by decide⟩

end Telemetry
