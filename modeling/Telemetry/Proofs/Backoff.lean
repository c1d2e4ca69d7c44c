import Telemetry.Backoff
import Telemetry.Proofs.Result
import Mathlib.Logic.Function.Iterate

/-!
# What retrying keeps

An operation that succeeds at once, or fails for good at once, is called once.
Whatever all failures of an operation keep holds until the last call, so that a
retried operation fails as a single call fails and succeeds as a single call
succeeds.  The calls are made at the sums of the first delays, up to the first
call after which there is a reason to stop.
-/

namespace Telemetry.Backoff

variable {ε α σ : Type} {cancel : Option Nat} {retryable : ε → Bool}
  {op : σ → Except ε α × σ} {s s' : σ}

theorem run_of_ok {a : α} (h : op s = (.ok a, s')) (delays : List Nat)
    (now : Nat) :
    run cancel retryable op delays now s = ⟨.ok a, s', [now], now⟩ := by
  rw [run, h]

theorem run_of_final {e : ε} (h : op s = (.error e, s'))
    (hfinal : retryable e = false) (delays : List Nat) (now : Nat) :
    run cancel retryable op delays now s = ⟨.error e, s', [now], now⟩ := by
  cases delays with
  | nil => rw [run, h]
  | cons delay delays =>
      rw [run, h]
      simp only [hfinal, Bool.not_false, if_true]

/-- After a call either nothing follows, or it failed in a way that may pass and
the rest of the schedule is run. -/
theorem run_cases (delays : List Nat) (now : Nat) (s : σ) :
    (∃ finish, run cancel retryable op delays now s =
      ⟨(op s).1, (op s).2, [now], finish⟩) ∨
      ∃ e delay later, delays = delay :: later ∧ (op s).1 = .error e ∧
      retryable e = true ∧
        run cancel retryable op delays now s =
          { run cancel retryable op later (now + delay) (op s).2 with
            calls := now ::
              (run cancel retryable op later (now + delay)
                (op s).2).calls } := by
  rcases hcall : op s with ⟨result, s'⟩
  cases result with
  | ok a => exact .inl ⟨now, run_of_ok hcall delays now⟩
  | error e =>
      cases delays with
      | nil =>
          refine .inl ⟨now, ?_⟩
          rw [run, hcall]
      | cons delay later =>
          cases hretry : retryable e with
          | false => exact .inl ⟨now, run_of_final hcall hretry _ now⟩
          | true =>
              cases hwait : interruption cancel now delay with
              | some c =>
                  refine .inl ⟨c, ?_⟩
                  rw [run, hcall]
                  simp only [hretry, hwait, Bool.not_true, Bool.false_eq_true,
                    if_false]
              | none =>
                  refine .inr ⟨e, delay, later, rfl, rfl, hretry, ?_⟩
                  rw [run, hcall]
                  simp only [hretry, hwait, Bool.not_true, Bool.false_eq_true,
                    if_false]

/-- Retrying ends as one call does. -/
theorem ends_run {fails : σ → Prop} {succeeds : α → σ → Prop}
    (hop : ∀ s, fails s → Ends fails succeeds (op s)) (delays : List Nat)
    (now : Nat) (hs : fails s) :
    Ends fails succeeds ((run cancel retryable op delays now s).result,
      (run cancel retryable op delays now s).state) := by
  -- by induction on the delays: each failed call leaves a state to which the
  -- next one applies
  induction delays generalizing s now with
  | nil =>
      rcases run_cases [] now s
        with ⟨finish, hrun⟩ | ⟨e, delay, later, hdelays, -⟩
      · rw [hrun]
        exact hop s hs
      · nomatch hdelays
  | cons delay delays ih =>
      have hends := hop s hs
      rcases run_cases (delay :: delays) now s with
        ⟨finish, hrun⟩ | ⟨e, _, _, hdelays, hcall, -, hrun⟩
      · rw [hrun]
        exact hends
      · obtain ⟨rfl, rfl⟩ := List.cons.inj hdelays
        rw [hrun]
        exact ih (now + delay) (hends.of_error hcall)

/-- All calls but the last one fail in a way that may pass, and the last one
decides; there is one more call than delays at most. -/
theorem exists_failures_run (cancel : Option Nat) (retryable : ε → Bool)
    {next : σ → σ} (hnext : ∀ s e, (op s).1 = .error e → (op s).2 = next s)
    (delays : List Nat) (now : Nat) (s : σ) :
    ∃ failures, failures ≤ delays.length ∧
      (run cancel retryable op delays now s).calls.length = failures + 1 ∧
      (∀ i < failures, ∃ e, (op (next^[i] s)).1 = .error e ∧
        retryable e = true) ∧
      op (next^[failures] s) = ((run cancel retryable op delays now s).result,
        (run cancel retryable op delays now s).state) := by
  induction delays generalizing s now with
  | nil =>
      rcases run_cases [] now s
        with ⟨finish, hrun⟩ | ⟨e, delay, later, hdelays, -⟩
      · rw [hrun]
        exact ⟨0, Nat.le_refl 0, rfl, fun i hi => absurd hi (Nat.not_lt_zero i),
          rfl⟩
      · nomatch hdelays
  | cons delay delays ih =>
      rcases run_cases (delay :: delays) now s with
        ⟨finish, hrun⟩ | ⟨e, _, _, hdelays, hcall, hretry, hrun⟩
      · rw [hrun]
        exact ⟨0, Nat.zero_le _, rfl, fun i hi => absurd hi (Nat.not_lt_zero i),
          rfl⟩
      · obtain ⟨rfl, rfl⟩ := List.cons.inj hdelays
        rw [hrun, hnext s e hcall]
        obtain ⟨failures, hle, hcalls, hfailed, hlast⟩ :=
          ih (now + delay) (next s)
        refine ⟨failures + 1, Nat.succ_le_succ hle, congrArg (· + 1) hcalls,
          ?_, hlast⟩
        intro i hi
        cases i with
        | zero => exact ⟨e, hcall, hretry⟩
        | succ i => exact hfailed i (Nat.lt_of_succ_lt_succ hi)

/-! ## The schedule of the calls -/

def elapsed : List Nat → Nat → Nat
  | [], _ => 0
  | _ :: _, 0 => 0
  | delay :: delays, k + 1 => delay + elapsed delays k

@[simp] theorem elapsed_zero (delays : List Nat) : elapsed delays 0 = 0 := by
  cases delays <;> rfl

def stateBefore (op : σ → Except ε α × σ) (s : σ) (k : Nat) : σ :=
  (fun s => (op s).2)^[k] s

def outcome (op : σ → Except ε α × σ) (s : σ) (k : Nat) : Except ε α :=
  (op (stateBefore op s k)).1

/-- Whether no further call can help: a success, or an error that is
not worth retrying. -/
def IsFinal (retryable : ε → Bool) : Except ε α → Prop
  | .ok _ => True
  | .error e => retryable e = false

/-- Whether there is a reason to stop after the k-th call, the first
one being at `now`. -/
def Stops (cancel : Option Nat) (retryable : ε → Bool) (op : σ → Except ε α × σ)
    (delays : List Nat) (now : Nat) (s : σ) (k : Nat) : Prop :=
  IsFinal retryable (outcome op s k) ∨ k = delays.length ∨
    ∃ c, cancel = some c ∧ c < now + elapsed delays (k + 1)

/-- Whether a cancellation is the reason why the k-th call is the last one:
another one was due. -/
def Interrupted (cancel : Option Nat) (retryable : ε → Bool)
    (op : σ → Except ε α × σ) (delays : List Nat) (now : Nat) (s : σ)
    (k c : Nat) : Prop :=
  ¬ IsFinal retryable (outcome op s k) ∧ k < delays.length ∧
    cancel = some c ∧ c < now + elapsed delays (k + 1)

/-- The cancellation does not fall on the end of a wait: it comes before a wait
that takes time, or at an instant at which no wait ends. -/
def Unraced (cancel : Option Nat) (delays : List Nat) (now : Nat) : Prop :=
  ∀ c, cancel = some c →
    c ≤ now ∧ delays.head? ≠ some 0 ∨
      now < c ∧ ∀ k ≤ delays.length, c ≠ now + elapsed delays k

theorem interruption_of_lt {c now delay : Nat} (h : c < now + delay) :
    interruption (some c) now delay = some (max now c) := by
  rw [interruption]
  by_cases hbefore : c ≤ now
  · rw [if_pos hbefore, Nat.max_eq_left hbefore]
  · rw [if_neg hbefore, if_pos h, Nat.max_eq_right (Nat.le_of_not_le hbefore)]

/-- A cancellation ends the next wait, or the waits after it are
without a race, too. -/
theorem Unraced.cases {delay now : Nat} {delays : List Nat}
    (h : Unraced cancel (delay :: delays) now) :
    (∃ c, cancel = some c ∧ c < now + delay ∧
        interruption cancel now delay = some (max now c)) ∨
      interruption cancel now delay = none ∧
        (∀ c, cancel = some c → ¬ c < now + delay) ∧
        Unraced cancel delays (now + delay) := by
  cases cancel with
  | none =>
      refine .inr ⟨rfl, ?_, ?_⟩
      · intro c hc
        nomatch hc
      · intro c hc
        nomatch hc
  | some c =>
      by_cases hlt : c < now + delay
      · exact .inl ⟨c, rfl, hlt, interruption_of_lt hlt⟩
      · rcases h c rfl with ⟨hbefore, hpositive⟩ | ⟨hafter, hends⟩
        · have hdelay : delay ≠ 0 :=
            fun hzero => hpositive (congrArg some hzero)
          omega
        · have hend : c ≠ now + delay := by
            simpa [elapsed] using hends 1 (Nat.le_add_left 1 delays.length)
          refine .inr ⟨?_, ?_, ?_⟩
          · rw [interruption, if_neg (Nat.not_le_of_lt hafter), if_neg hlt]
          · intro c' hc'
            obtain rfl := Option.some.inj hc'
            exact hlt
          · intro c' hc'
            obtain rfl := Option.some.inj hc'
            refine .inr ⟨by omega, fun k hk => ?_⟩
            rw [Nat.add_assoc]
            exact hends (k + 1) (Nat.succ_le_succ hk)

theorem run_nil (now : Nat) (s : σ) :
    run cancel retryable op [] now s = ⟨(op s).1, (op s).2, [now], now⟩ := by
  rcases hcall : op s with ⟨result, s'⟩
  rw [run, hcall]
  cases result <;> rfl

theorem run_of_isFinal (h : IsFinal retryable (op s).1) (delays : List Nat)
    (now : Nat) :
    run cancel retryable op delays now s =
      ⟨(op s).1, (op s).2, [now], now⟩ := by
  rcases hcall : op s with ⟨result, s'⟩
  rw [hcall] at h
  cases result with
  | ok a => exact run_of_ok hcall delays now
  | error e => exact run_of_final hcall h delays now

theorem run_of_not_isFinal (h : ¬ IsFinal retryable (op s).1) (delay : Nat)
    (delays : List Nat) (now : Nat) :
    run cancel retryable op (delay :: delays) now s =
      match interruption cancel now delay with
      | some c => ⟨(op s).1, (op s).2, [now], c⟩
      | none =>
        { run cancel retryable op delays (now + delay) (op s).2 with
          calls := now ::
            (run cancel retryable op delays (now + delay)
              (op s).2).calls } := by
  rcases hcall : op s with ⟨result, s'⟩
  rw [hcall] at h
  cases result with
  | ok a => exact absurd trivial h
  | error e =>
      have hretry : retryable e = true := by simpa [IsFinal] using h
      rw [run, hcall]
      exact if_neg (by simp [hretry])

/-- The calls of a schedule that is not raced: up to the first reason
to stop each one is made at the sum of the delays before it, and the
last one decides. -/
structure Follows (cancel : Option Nat) (retryable : ε → Bool)
    (op : σ → Except ε α × σ) (delays : List Nat) (now : Nat) (s : σ) (m : Nat)
    (o : Outcome ε α σ) : Prop where
  stops : Stops cancel retryable op delays now s m
  goesOn : ∀ k < m, ¬ Stops cancel retryable op delays now s k
  bounded : m ≤ delays.length
  calls : o.calls = (List.range (m + 1)).map fun k => now + elapsed delays k
  result : o.result = outcome op s m
  state : o.state = stateBefore op s (m + 1)
  finish_of_interrupted : ∀ c,
    Interrupted cancel retryable op delays now s m c →
    o.finish = max (now + elapsed delays m) c
  finish : (∀ c, ¬ Interrupted cancel retryable op delays now s m c) →
    o.finish = now + elapsed delays m

/-- A schedule whose first call is the last one. -/
theorem follows_of_stops {delays : List Nat} {now finish : Nat}
    (hstops : Stops cancel retryable op delays now s 0)
    (hinterrupted : ∀ c, Interrupted cancel retryable op delays now s 0 c →
      finish = max now c) (hfinish :
      (∀ c, ¬ Interrupted cancel retryable op delays now s 0 c) →
      finish = now) :
    Follows cancel retryable op delays now s 0 ⟨(op s).1, (op s).2, [now],
      finish⟩ where
  stops := hstops
  goesOn k hk := absurd hk (Nat.not_lt_zero k)
  bounded := Nat.zero_le _
  calls := by simp
  result := rfl
  state := rfl
  finish_of_interrupted := by simpa using hinterrupted
  finish := by simpa using hfinish

/-- A schedule that goes on after the first call follows the rest of it. -/
theorem Follows.later {delay now m : Nat} {delays : List Nat}
    {o : Outcome ε α σ}
    (h : Follows cancel retryable op delays (now + delay) (op s).2 m o)
    (hfirst : ¬ Stops cancel retryable op (delay :: delays) now s 0) :
    Follows cancel retryable op (delay :: delays) now s (m + 1)
      { o with calls := now :: o.calls } := by
  have hsum (k : Nat) :
      now + elapsed (delay :: delays) (k + 1) = now + delay +
        elapsed delays k :=
    (Nat.add_assoc _ _ _).symm
  have hstops (k : Nat) :
    Stops cancel retryable op (delay :: delays) now s (k + 1) ↔
      Stops cancel retryable op delays (now + delay) (op s).2 k := by
    rw [Stops, Stops, hsum, List.length_cons, Nat.add_right_cancel_iff]
    rfl
  have hinterrupted (c : Nat) :
      Interrupted cancel retryable op (delay :: delays) now s (m + 1) c ↔
        Interrupted cancel retryable op delays (now + delay) (op s).2 m c := by
    rw [Interrupted, Interrupted, hsum, List.length_cons,
      Nat.add_lt_add_iff_right]
    rfl
  refine ⟨(hstops m).mpr h.stops, ?_, Nat.succ_le_succ h.bounded, ?_, h.result,
    h.state, ?_, ?_⟩
  · intro k hk
    cases k with
    | zero => exact hfirst
    | succ k => exact mt (hstops k).mp (h.goesOn k (Nat.lt_of_succ_lt_succ hk))
  · rw [List.range_succ_eq_map, List.map_cons, List.map_map, h.calls]
    exact congrArg _ (List.map_congr_left fun k _ => (hsum k).symm)
  · intro c hc
    rw [hsum]
    exact h.finish_of_interrupted c ((hinterrupted c).mp hc)
  · intro hnone
    rw [hsum]
    exact h.finish fun c hc => hnone c ((hinterrupted c).mpr hc)

theorem exists_follows_run {delays : List Nat} {now : Nat}
    (hcancel : Unraced cancel delays now) :
    ∃ m, Follows cancel retryable op delays now s m
      (run cancel retryable op delays now s) := by
  -- by induction on the delays: the first call is the last one, or the rest of
  -- the schedule is followed from the end of the first wait on
  induction delays generalizing now s with
  | nil =>
      rw [run_nil]
      refine ⟨0, follows_of_stops (.inr (.inl rfl)) ?_ fun _ => rfl⟩
      intro c hc
      exact absurd hc.2.1 (Nat.lt_irrefl 0)
  | cons delay delays ih =>
      by_cases hfinal : IsFinal retryable (op s).1
      · rw [run_of_isFinal hfinal]
        refine ⟨0, follows_of_stops (.inl hfinal) ?_ fun _ => rfl⟩
        intro c hc
        exact absurd hfinal hc.1
      · rw [run_of_not_isFinal hfinal]
        have hfirst : now + elapsed (delay :: delays) 1 = now + delay := by
          simp [elapsed]
        rcases hcancel.cases with ⟨c, hc, hlt, hwait⟩ | ⟨hwait, hnone, hrest⟩
        · rw [hwait]
          rw [← hfirst] at hlt
          refine ⟨0, follows_of_stops (.inr (.inr ⟨c, hc, hlt⟩)) ?_ ?_⟩
          · intro c' hc'
            obtain rfl := Option.some.inj (hc.symm.trans hc'.2.2.1)
            rfl
          · intro hno
            exact absurd ⟨hfinal, Nat.succ_pos _, hc, hlt⟩ (hno c)
        · rw [hwait]
          obtain ⟨m, hm⟩ := ih (s := (op s).2) hrest
          refine ⟨m + 1, hm.later ?_⟩
          rintro (hstop | hlast | ⟨c, hc, hlt⟩)
          · exact hfinal hstop
          · nomatch hlast
          · rw [hfirst] at hlt
            exact hnone c hc hlt

/-- The schedule of a retried operation whose cancellation, if there is one,
does not fall on the end of a wait.  With the reasons to stop being a
success, an error that is not worth retrying, the end of the delays, and a
cancellation before the next call, the operation is called up to the first
call with such a reason, each call at the sum of the delays before it.  The
last result is the answer, and it is given at once, or when the cancellation
comes that ends the last wait. -/
theorem retry_follows_schedule (b : Backoff) (cancel : Option Nat)
    (retryable : ε → Bool) (op : σ → Except ε α × σ) (now : Nat) (s : σ)
    (hcancel : Unraced cancel b.delays now) :
    ∃ m, Follows cancel retryable op b.delays now s m
      (b.retry cancel retryable op now s) ∧
      (b.retry cancel retryable op now s).calls.length = m + 1 ∧
      m + 1 ≤ b.attempts := by
  have hfollows : ∃ m, Follows cancel retryable op b.delays now s m
      (run cancel retryable op b.delays now s) := exists_follows_run hcancel
  obtain ⟨m, hm⟩ := hfollows
  refine ⟨m, hm, ?_, Nat.succ_le_succ hm.bounded⟩
  rw [retry, hm.calls, List.length_map, List.length_range]

/-- An operation that always fails, with a wait of no time between two
others: the cancellation after three seconds ends the last wait, and the
answer is the third error. -/
theorem retry_follows_schedule_cancelled :
    let b : Backoff := ⟨[1000, 0, 5000]⟩
    let op : Nat → Except Nat Nat × Nat := fun n => (.error n, n + 1)
    let o := b.retry (some 3000) (fun _ => true) op 0 0
    Unraced (some 3000) b.delays 0 ∧ o.calls = [0, 1000, 1000] ∧
      o.result = .error 2 ∧
      o.finish = 3000 ∧
      Follows (some 3000) (fun _ => true) op b.delays 0 0 2 o := by
  intro b op o
  have hcancel : Unraced (some 3000) b.delays 0 := by
    intro c hc
    obtain rfl := Option.some.inj hc
    exact .inr ⟨by decide, by decide⟩
  obtain ⟨m, hm, hlength, -⟩ :=
    retry_follows_schedule b (some 3000) (fun _ => true) op 0 0 hcancel
  obtain rfl : 2 = m := Nat.succ.inj hlength
  refine ⟨hcancel, hm.calls, hm.result, ?_, hm⟩
  exact hm.finish_of_interrupted 3000
    ⟨by simp [IsFinal, outcome, op], by decide, rfl, by decide⟩

end Telemetry.Backoff
