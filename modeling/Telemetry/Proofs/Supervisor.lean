import Telemetry.Supervisor
import Mathlib.Data.List.Basic
import Mathlib.Order.Bounds.Basic

/-!
# What a supervisor does with its components

The moments of a run tell which components were started and stopped, in which
worlds, and when the token was cancelled.  A state goes on to another by what is
started and stopped on the way: one step for each definition that changes a
state, and by induction one for all starts and one for all stops.  A whole run
therefore starts components up to the first that fails, waits, and stops exactly
those that run, the last one first.
-/

namespace Telemetry.Supervisor

variable {σ : Type}

/-! ## What the moments tell -/

/-- The components that are started, with what comes of their starts. -/
def starts (moments : List (Moment σ)) : List (Component σ × Started σ) :=
  moments.filterMap fun
    | .started c world => some (c, c.start world)
    | _ => none

def stops (moments : List (Moment σ)) : List (Component σ) :=
  moments.filterMap fun
    | .stopped c _ => some c
    | _ => none

def succeeded (started : List (Component σ × Started σ)) : List (Component σ) :=
  (started.filter fun s => s.2.outcome.isOk).map Prod.fst

def failure? (started : List (Component σ × Started σ)) : Option StartError :=
  started.findSome? fun s =>
    match s.2.outcome with
    | .ok () => none
    | .error reason => some ⟨s.1.name, reason⟩

/-- The components are started in their order, up to and including the first
whose start fails. -/
inductive UpToFailure :
    List (Component σ) → List (Component σ × Started σ) → Prop where
  | all : UpToFailure [] []
  | failed {c : Component σ} {rest : List (Component σ)} {started : Started σ}
      {reason : String} (outcome : started.outcome = .error reason) :
      UpToFailure (c :: rest) [(c, started)]
  | started {c : Component σ} {rest : List (Component σ)} {started : Started σ}
      {others : List (Component σ × Started σ)}
      (outcome : started.outcome = .ok ())
      (more : UpToFailure rest others) :
      UpToFailure (c :: rest) ((c, started) :: others)

/-- Every component acts on the world that those before it have left; the last
world is the one that remains. -/
inductive Follows : σ → List (Moment σ) → σ → Prop where
  | nil (world : σ) : Follows world [] world
  | started {world last : σ} {c : Component σ} {moments : List (Moment σ)}
      (more : Follows (c.start world).world moments last) :
      Follows world (.started c world :: moments) last
  | requested {world last : σ} {moments : List (Moment σ)}
      (more : Follows world moments last) :
      Follows world (.requested :: moments) last
  | cancelled {world last : σ} {moments : List (Moment σ)}
      (more : Follows world moments last) :
      Follows world (.cancelled :: moments) last
  | stopped {world last : σ} {c : Component σ} {moments : List (Moment σ)}
      (more : Follows (c.stop world).2 moments last) :
      Follows world (.stopped c world :: moments) last

/-- Whatever is stopped is stopped after the token is cancelled and after
everything is started. -/
def StopsLate (moments : List (Moment σ)) : Prop :=
  ∀ before c world after, moments = before ++ .stopped c world :: after →
    .cancelled ∈ before ∧ starts after = []

/-- Shutdown is requested at an instant, from outside or by a
component that is started. -/
def RequestedAt (requested : Option Nat)
    (started : List (Component σ × Started σ)) (instant : Nat) : Prop :=
  requested = some instant ∨ ∃ s ∈ started, s.2.shutdownAfter = some instant

theorem starts_append (moments more : List (Moment σ)) :
    starts (moments ++ more) = starts moments ++ starts more :=
      List.filterMap_append

theorem stops_append (moments more : List (Moment σ)) :
    stops (moments ++ more) = stops moments ++ stops more :=
      List.filterMap_append

section Outcome

variable {c : Component σ} {s : Started σ} {reason : String}

theorem succeeded_cons_of_ok (h : s.outcome = .ok ())
    (more : List (Component σ × Started σ)) :
    succeeded ((c, s) :: more) = c :: succeeded more := by
  simp [succeeded, h, Except.isOk, Except.toBool]

theorem succeeded_cons_of_error (h : s.outcome = .error reason)
    (more : List (Component σ × Started σ)) :
    succeeded ((c, s) :: more) = succeeded more := by
  simp [succeeded, h, Except.isOk, Except.toBool]

theorem failure?_cons_of_ok (h : s.outcome = .ok ())
    (more : List (Component σ × Started σ)) :
    failure? ((c, s) :: more) = failure? more := by
  simp [failure?, h]

theorem failure?_cons_of_error (h : s.outcome = .error reason)
    (more : List (Component σ × Started σ)) :
    failure? ((c, s) :: more) = some ⟨c.name, reason⟩ := by
  simp [failure?, h]

end Outcome

theorem Follows.append {world middle last : σ} {moments more : List (Moment σ)}
    (h : Follows world moments middle) (hmore : Follows middle more last) :
    Follows world (moments ++ more) last := by
  induction h with
  | nil => exact hmore
  | started _ ih => exact .started (ih hmore)
  | requested _ ih => exact .requested (ih hmore)
  | cancelled _ ih => exact .cancelled (ih hmore)
  | stopped _ ih => exact .stopped (ih hmore)

/-- Stops are late where nothing is stopped until the token is cancelled and
nothing is started from then on. -/
theorem StopsLate.append {moments more : List (Moment σ)}
    (hstops : stops moments = []) (hcancelled : .cancelled ∈ moments)
    (hstarts : starts more = []) :
    StopsLate (moments ++ more) := by
  intro before c world after heq
  -- The stop lies in `more`: it cannot lie in `moments`, which would then hold
  -- it.
  rcases List.append_eq_append_iff.mp heq
    with ⟨between, rfl, rfl⟩ | ⟨between, rfl, hstopped⟩
  · rw [starts_append] at hstarts
    exact ⟨List.mem_append_left _ hcancelled,
      (List.append_eq_nil_iff.mp hstarts).2⟩
  · cases between with
    | nil =>
        rw [List.append_nil] at hcancelled
        rw [List.nil_append] at hstopped
        rw [← hstopped] at hstarts
        exact ⟨hcancelled, hstarts⟩
    | cons m between =>
        obtain ⟨rfl, -⟩ := List.cons.inj hstopped
        rw [stops_append] at hstops
        nomatch (List.append_eq_nil_iff.mp hstops).2

theorem stopsLate_of_stops_eq_nil {moments : List (Moment σ)}
    (h : stops moments = []) :
    StopsLate moments := by
  rintro before c world after rfl
  rw [stops_append] at h
  nomatch (List.append_eq_nil_iff.mp h).2

/-! ## One step -/

/-- A state goes on to another; meanwhile some components are started and
some are stopped. -/
def GoesOn (s s' : State σ) (started : List (Component σ × Started σ))
    (stopped : List (Component σ)) : Prop :=
  ∃ moments, s'.moments = s.moments ++ moments ∧
    Follows s.world moments s'.world ∧
    starts moments = started ∧ stops moments = stopped

namespace GoesOn

variable {s s' s'' : State σ}
  {started started' : List (Component σ × Started σ)}
  {stopped stopped' : List (Component σ)}

theorem refl (s : State σ) : GoesOn s s [] [] :=
  ⟨[], (List.append_nil _).symm, .nil _, rfl, rfl⟩

theorem trans (h : GoesOn s s' started stopped)
    (h' : GoesOn s' s'' started' stopped') :
    GoesOn s s'' (started ++ started') (stopped ++ stopped') := by
  obtain ⟨moments, hmoments, hfollows, rfl, rfl⟩ := h
  obtain ⟨more, hmore, hfollows', rfl, rfl⟩ := h'
  refine ⟨moments ++ more, ?_, hfollows.append hfollows', starts_append ..,
    stops_append ..⟩
  rw [hmore, hmoments, List.append_assoc]

theorem starts_eq (h : GoesOn s s' started stopped) :
    starts s'.moments = starts s.moments ++ started := by
  obtain ⟨moments, hmoments, -, rfl, -⟩ := h
  rw [hmoments, starts_append]

theorem stops_eq (h : GoesOn s s' started stopped) :
    stops s'.moments = stops s.moments ++ stopped := by
  obtain ⟨moments, hmoments, -, -, rfl⟩ := h
  rw [hmoments, stops_append]

/-- From the beginning, the moments lead to the world that remains. -/
theorem follows {world : σ} (h : GoesOn ⟨world, []⟩ s started stopped) :
    Follows world s.moments s.world := by
  obtain ⟨moments, hmoments, hfollows, -⟩ := h
  rw [hmoments]
  exact hfollows

end GoesOn

namespace State

theorem cancelled_iff (s : State σ) :
    s.cancelled = true ↔ .cancelled ∈ s.moments := by
  unfold cancelled
  rw [List.any_eq_true]
  constructor
  · rintro ⟨m, hm, hcancellation⟩
    cases m with
    | cancelled => exact hm
    | started => nomatch hcancellation
    | requested => nomatch hcancellation
    | stopped => nomatch hcancellation
  · exact fun h => ⟨_, h, rfl⟩

theorem mem_cancel (s : State σ) : .cancelled ∈ s.cancel.moments := by
  unfold cancel
  split
  · next h => exact s.cancelled_iff.mp h
  · exact List.mem_append_right _ List.mem_cons_self

theorem cancelled_cancel (s : State σ) : s.cancel.cancelled = true :=
  s.cancel.cancelled_iff.mpr s.mem_cancel

theorem cancelled_note (s : State σ) (m : Moment σ) :
    (s.note m).cancelled = (s.cancelled || m.isCancellation) := by
  simp [note, cancelled]

theorem cancelled_initial_iff (requested : Option Nat) (world : σ) :
    (initial requested world).cancelled = true ↔ requested = some 0 := by
  unfold initial
  dsimp only
  split
  · next h => exact iff_of_true (cancelled_cancel _) h
  · next h => exact iff_of_false nofun h

theorem cancelled_start_iff (s : State σ) (c : Component σ) :
    (s.start c).cancelled = true ↔
      s.cancelled = true ∨ (c.start s.world).shutdownAfter = some 0 := by
  unfold start
  dsimp only
  split
  · next h => exact iff_of_true (cancelled_cancel _) (.inr h)
  · next h =>
      change (s.note (.started c s.world)).cancelled = true ↔ _
      simp [cancelled_note, Moment.isCancellation, h]

theorem cancelled_awaken (s : State σ) (fromComponent : Bool) :
    (s.awaken fromComponent).cancelled = s.cancelled := by
  cases fromComponent with
  | false => rfl
  | true => exact (s.cancelled_note .requested).trans (Bool.or_false _)

theorem goesOn_cancel (s : State σ) : GoesOn s s.cancel [] [] := by
  unfold cancel
  split
  · exact .refl s
  · exact ⟨[.cancelled], rfl, .cancelled (.nil _), rfl, rfl⟩

theorem goesOn_initial (requested : Option Nat) (world : σ) :
    GoesOn ⟨world, []⟩ (initial requested world) [] [] := by
  unfold initial
  dsimp only
  split
  · exact goesOn_cancel _
  · exact .refl _

theorem goesOn_start (s : State σ) (c : Component σ) :
    GoesOn s (s.start c) [(c, c.start s.world)] [] := by
  have hstarted :
      GoesOn s
        { s.note (.started c s.world) with world := (c.start s.world).world }
        [(c, c.start s.world)] [] :=
    ⟨[.started c s.world], rfl, .started (.nil _), rfl, rfl⟩
  unfold start
  dsimp only
  split
  · exact hstarted.trans (goesOn_cancel _)
  · exact hstarted

theorem goesOn_awaken (s : State σ) (fromComponent : Bool) :
    GoesOn s (s.awaken fromComponent) [] [] := by
  cases fromComponent with
  | false => exact .refl s
  | true => exact ⟨[.requested], rfl, .requested (.nil _), rfl, rfl⟩

theorem starts_awaken (s : State σ) (fromComponent : Bool) :
    starts (s.awaken fromComponent).moments = starts s.moments := by
  rw [(s.goesOn_awaken fromComponent).starts_eq, List.append_nil]

theorem goesOn_stop (s : State σ) (c : Component σ) :
    GoesOn s (s.stop c) [] [c] :=
  ⟨[.stopped c s.world], rfl, .stopped (.nil _), rfl, rfl⟩

end State

/-! ## All steps -/

/-- What comes of starting components one after the other: those that run, the
failure that ended it, and the state after it. -/
structure Launches (components running : List (Component σ)) (s : State σ)
    (result : List (Component σ) × Option StartError × State σ)
    (started : List (Component σ × Started σ)) : Prop where
  goesOn : GoesOn s result.2.2 started []
  upToFailure : UpToFailure components started
  running_eq : result.1 = (succeeded started).reverse ++ running
  failure_eq : result.2.1 = failure? started
  cancelled_iff : result.2.2.cancelled = true ↔
    s.cancelled = true ∨ ∃ s ∈ started, s.2.shutdownAfter = some 0

theorem exists_launches (components running : List (Component σ))
    (s : State σ) :
    ∃ started,
      Launches components running s (startAll running s components)
        started := by
  -- On the components yet to be started; those that run already stay below the
  -- ones that join.
  induction components generalizing running s with
  | nil => exact ⟨[], .refl s, .all, rfl, rfl, by simp [startAll]⟩
  | cons c rest ih =>
      unfold startAll
      cases houtcome : (c.start s.world).outcome with
      | error reason =>
          refine ⟨[(c, c.start s.world)], s.goesOn_start c, .failed houtcome,
            ?_, ?_, ?_⟩
          · rw [succeeded_cons_of_error houtcome]
            rfl
          · rw [failure?_cons_of_error houtcome]
          · simp [s.cancelled_start_iff c]
      | ok =>
          obtain ⟨others, hothers⟩ := ih (c :: running) (s.start c)
          refine ⟨(c, c.start s.world) :: others,
            (s.goesOn_start c).trans hothers.goesOn,
            .started houtcome hothers.upToFailure, ?_, ?_, ?_⟩
          · rw [hothers.running_eq, succeeded_cons_of_ok houtcome,
              List.reverse_cons, List.append_assoc]
            rfl
          · rw [hothers.failure_eq, failure?_cons_of_ok houtcome]
          · simp [hothers.cancelled_iff, s.cancelled_start_iff c, or_assoc]

theorem goesOn_stopAll (running : List (Component σ)) (s : State σ) :
    GoesOn s (running.foldl State.stop s) [] running := by
  induction running generalizing s with
  | nil => exact .refl s
  | cons c running ih => exact (s.goesOn_stop c).trans (ih (s.stop c))

theorem goesOn_shutDown (s : State σ) (running : List (Component σ)) :
    GoesOn s (shutDown s running) [] running :=
  s.goesOn_cancel.trans (goesOn_stopAll running s.cancel)

theorem starts_shutDown (s : State σ) (running : List (Component σ)) :
    starts (shutDown s running).moments = starts s.moments := by
  rw [(goesOn_shutDown s running).starts_eq, List.append_nil]

theorem cancelled_shutDown (s : State σ) (running : List (Component σ)) :
    (shutDown s running).cancelled = true := by
  obtain ⟨moments, hmoments, -⟩ := goesOn_stopAll running s.cancel
  rw [State.cancelled_iff]
  unfold shutDown
  rw [hmoments]
  exact List.mem_append_left _ s.mem_cancel

theorem stopsLate_shutDown {s : State σ} (running : List (Component σ))
    (h : stops s.moments = []) : StopsLate (shutDown s running).moments := by
  obtain ⟨moments, hmoments, -, hstarts, -⟩ := goesOn_stopAll running s.cancel
  have hstops : stops s.cancel.moments = [] := by
    rw [s.goesOn_cancel.stops_eq, h]; rfl
  unfold shutDown
  rw [hmoments]
  exact .append hstops s.mem_cancel hstarts

/-! ## The whole run -/

theorem failure?_eq_none_iff {started : List (Component σ × Started σ)} :
    failure? started = none ↔ ∀ s ∈ started, s.2.outcome = .ok () := by
  unfold failure?
  rw [List.findSome?_eq_none_iff]
  refine forall₂_congr fun s _ => ?_
  cases s.2.outcome with
  | ok => exact ⟨fun _ => rfl, fun _ => rfl⟩
  | error => exact ⟨nofun, nofun⟩

theorem UpToFailure.failure?_eq_some_iff {components : List (Component σ)}
    {started : List (Component σ × Started σ)}
    (h : UpToFailure components started) {e : StartError} :
    failure? started = some e ↔ ∃ c s reason, (c, s) ∈ started ∧
      s.outcome = .error reason ∧
      e = ⟨c.name, reason⟩ := by
  constructor
  · intro hfailure
    obtain ⟨⟨c, s⟩, hmem, hs⟩ := List.exists_of_findSome?_eq_some hfailure
    cases houtcome : s.outcome with
    | ok => simp [houtcome] at hs
    | error reason =>
        exact ⟨c, s, reason, hmem, houtcome, by simpa [houtcome] using hs.symm⟩
  · -- Starts that succeed come before the one that fails, so that it is the
    -- first to be found.
    rintro ⟨c, s, reason, hmem, hs, rfl⟩
    induction h with
    | all => nomatch hmem
    | failed =>
        cases List.mem_singleton.mp hmem
        exact failure?_cons_of_error hs []
    | started houtcome _ ih =>
        rcases List.mem_cons.mp hmem with heq | hmem
        · cases heq
          nomatch houtcome.symm.trans hs
        · rw [failure?_cons_of_ok houtcome]
          exact ih hmem

theorem requests_eq (s : State σ) :
    s.requests = (starts s.moments).filterMap fun started =>
      started.2.shutdownAfter := by
  unfold State.requests starts
  rw [List.filterMap_filterMap]
  refine List.filterMap_congr fun m _ => ?_
  cases m <;> rfl

theorem mem_requests_iff {requested : Option Nat} {s : State σ}
    {instant : Nat} :
    instant ∈ requested.toList ++ s.requests ↔
      RequestedAt requested (starts s.moments) instant := by
  rw [List.mem_append, Option.mem_toList, requests_eq, List.mem_filterMap]
  rfl

/-- A state in which everything that can be started has been, and nothing
has been stopped. -/
structure Launched (components : List (Component σ)) (requested : Option Nat)
    (world : σ) (s : State σ) : Prop where
  goesOn : GoesOn ⟨world, []⟩ s (starts s.moments) []
  upToFailure : UpToFailure components (starts s.moments)
  cancelled_iff : s.cancelled = true ↔
    RequestedAt requested (starts s.moments) 0

/-- How a run turns out: a start fails, or nothing asks for the end of the run
within the horizon, or the first request ends it. -/
inductive TurnsOut (components : List (Component σ)) (requested : Option Nat)
    (horizon : Nat) (world : σ) : Run σ → Prop where
  | failed {s : State σ} {e : StartError}
      (launched : Launched components requested world s)
      (failure : failure? (starts s.moments) = some e) :
      TurnsOut components requested horizon world
        ⟨shutDown s (succeeded (starts s.moments)).reverse, some (.error e), 0⟩
  | waiting {s : State σ} (launched : Launched components requested world s)
      (failure : failure? (starts s.moments) = none)
      (requests : ∀ instant, RequestedAt requested (starts s.moments) instant →
        horizon ≤ instant) :
      TurnsOut components requested horizon world ⟨s, none, horizon⟩
  | stopped {s : State σ} {first : Nat}
      (launched : Launched components requested world s)
      (failure : failure? (starts s.moments) = none)
      (requests :
        IsLeast { instant | RequestedAt requested (starts s.moments) instant }
          first) (early : first < horizon) :
      TurnsOut components requested horizon world
        ⟨shutDown s (succeeded (starts s.moments)).reverse,
          some (.ok ()), first⟩

namespace Launched

variable {components : List (Component σ)} {requested : Option Nat} {world : σ}
  {s : State σ}

theorem awaken (h : Launched components requested world s)
    (fromComponent : Bool) :
    Launched components requested world (s.awaken fromComponent) where
  goesOn := by
    simpa [s.starts_awaken] using h.goesOn.trans (s.goesOn_awaken fromComponent)
  upToFailure := by simpa [s.starts_awaken] using h.upToFailure
  cancelled_iff := by
    simpa [s.starts_awaken, s.cancelled_awaken] using h.cancelled_iff

theorem goesOn_shutDown (h : Launched components requested world s)
    (running : List (Component σ)) :
    GoesOn ⟨world, []⟩ (shutDown s running) (starts s.moments) running := by
  simpa using h.goesOn.trans (Supervisor.goesOn_shutDown s running)

end Launched

theorem turnsOut_run (components : List (Component σ)) (requested : Option Nat)
    (horizon : Nat) (world : σ) : TurnsOut components requested horizon world
      (run components requested horizon world) := by
  obtain ⟨started, hlaunch⟩ :=
    exists_launches components [] (State.initial requested world)
  unfold run
  generalize startAll [] (State.initial requested world) components = result
    at hlaunch ⊢
  obtain ⟨running, failure, s⟩ := result
  have hgoes : GoesOn ⟨world, []⟩ s started [] :=
    (State.goesOn_initial ..).trans hlaunch.goesOn
  obtain rfl : starts s.moments = started := hgoes.starts_eq
  have hcancelled :
      s.cancelled = true ↔ RequestedAt requested (starts s.moments) 0 := by
    rw [hlaunch.cancelled_iff, State.cancelled_initial_iff]
    rfl
  have hlaunched : Launched components requested world s :=
    ⟨hgoes, hlaunch.upToFailure, hcancelled⟩
  obtain rfl : running = (succeeded (starts s.moments)).reverse := by
    simpa using hlaunch.running_eq
  have hfailure : failure = failure? (starts s.moments) := hlaunch.failure_eq
  cases failure with
  | some e => exact .failed hlaunched hfailure.symm
  | none =>
      dsimp only
      split
      · next hrequests =>
          refine .waiting hlaunched hfailure.symm fun instant hinstant => ?_
          rw [List.min?_eq_none_iff] at hrequests
          rw [← mem_requests_iff, hrequests] at hinstant
          nomatch hinstant
      · next first hrequests =>
          rw [List.min?_eq_some_iff] at hrequests
          have hleast :
              IsLeast { instant | RequestedAt requested
                (starts s.moments) instant } first :=
            ⟨mem_requests_iff.mp hrequests.1, fun instant hinstant =>
              hrequests.2 instant (mem_requests_iff.mpr hinstant)⟩
          split
          · next hlate =>
              exact .waiting hlaunched hfailure.symm fun instant hinstant =>
                hlate.trans (hleast.2 hinstant)
          · next hearly =>
              rw [← s.starts_awaken (0 < first && requested != some first)]
                at hfailure hleast ⊢
              exact .stopped (hlaunched.awaken _) hfailure.symm hleast
                (Nat.not_le.mp hearly)

namespace TurnsOut

variable {components : List (Component σ)} {requested : Option Nat}
  {horizon : Nat} {world : σ}
  {r : Run σ}

theorem goesOn (h : TurnsOut components requested horizon world r) :
    GoesOn ⟨world, []⟩ r.state (starts r.state.moments)
      (if r.result.isSome then (succeeded (starts r.state.moments)).reverse
        else []) := by
  cases h with
  | failed hlaunched =>
      rw [starts_shutDown]
      exact hlaunched.goesOn_shutDown _
  | waiting hlaunched => exact hlaunched.goesOn
  | stopped hlaunched =>
      rw [starts_shutDown]
      exact hlaunched.goesOn_shutDown _

theorem upToFailure (h : TurnsOut components requested horizon world r) :
    UpToFailure components (starts r.state.moments) := by
  cases h with
  | failed hlaunched =>
      rw [starts_shutDown]
      exact hlaunched.upToFailure
  | waiting hlaunched => exact hlaunched.upToFailure
  | stopped hlaunched =>
      rw [starts_shutDown]
      exact hlaunched.upToFailure

theorem stopsLate (h : TurnsOut components requested horizon world r) :
    StopsLate r.state.moments := by
  cases h with
  | failed hlaunched => exact stopsLate_shutDown _ hlaunched.goesOn.stops_eq
  | waiting hlaunched =>
      exact stopsLate_of_stops_eq_nil hlaunched.goesOn.stops_eq
  | stopped hlaunched => exact stopsLate_shutDown _ hlaunched.goesOn.stops_eq

theorem cancelled_iff (h : TurnsOut components requested horizon world r) :
    r.cancelled = true ↔
      r.result.isSome ∨ RequestedAt requested (starts r.state.moments) 0 := by
  cases h with
  | failed => exact iff_of_true (cancelled_shutDown _ _) (.inl rfl)
  | waiting hlaunched =>
      exact hlaunched.cancelled_iff.trans (or_iff_right nofun).symm
  | stopped => exact iff_of_true (cancelled_shutDown _ _) (.inl rfl)

theorem result_eq_error_iff (h : TurnsOut components requested horizon world r)
    {e : StartError} :
    r.result = some (.error e) ↔
      failure? (starts r.state.moments) = some e := by
  cases h with
  | failed _ hfailure => rw [starts_shutDown, hfailure]; simp
  | waiting _ hfailure => rw [hfailure]; simp
  | stopped _ hfailure => rw [starts_shutDown, hfailure]; simp

theorem result_eq_ok_iff (h : TurnsOut components requested horizon world r) :
    r.result = some (.ok ()) ↔ failure? (starts r.state.moments) = none ∧
      ∃ instant < horizon,
        RequestedAt requested (starts r.state.moments) instant := by
  cases h with
  | failed _ hfailure => rw [starts_shutDown, hfailure]; simp
  | waiting _ hfailure hrequests =>
      refine ⟨nofun, ?_⟩
      rintro ⟨-, instant, hearly, hinstant⟩
      exact absurd (hrequests instant hinstant) (Nat.not_le.mpr hearly)
  | stopped _ hfailure hleast hearly =>
      rw [starts_shutDown]
      exact ⟨fun _ => ⟨hfailure, _, hearly, hleast.1⟩, fun _ => rfl⟩

theorem result_eq_none_iff (h : TurnsOut components requested horizon world r) :
    r.result = none ↔ failure? (starts r.state.moments) = none ∧
      ∀ instant, RequestedAt requested (starts r.state.moments) instant →
        horizon ≤ instant := by
  cases h with
  | failed _ hfailure => rw [starts_shutDown, hfailure]; simp
  | waiting _ hfailure hrequests =>
      exact ⟨fun _ => ⟨hfailure, hrequests⟩, fun _ => rfl⟩
  | stopped _ hfailure hleast hearly =>
      rw [starts_shutDown]
      exact ⟨nofun, fun ⟨_, hlate⟩ =>
        absurd (hlate _ hleast.1) (Nat.not_le.mpr hearly)⟩

theorem isLeast_elapsed (h : TurnsOut components requested horizon world r)
    (hresult : r.result = some (.ok ())) :
    IsLeast { instant | RequestedAt requested (starts r.state.moments) instant }
      r.elapsed := by
  cases h with
  | failed => nomatch hresult
  | waiting => nomatch hresult
  | stopped _ _ hleast =>
      rw [starts_shutDown]
      exact hleast

end TurnsOut

/-- A run of components in a world keeps their order, and ends as they and the
requests have it. -/
structure Orderly (components : List (Component σ)) (requested : Option Nat)
    (horizon : Nat) (world : σ) (r : Run σ) : Prop where
  follows : Follows world r.state.moments r.state.world
  /-- A token that is cancelled keeps no component from being started. -/
  upToFailure : UpToFailure components (starts r.state.moments)
  stopsLate : StopsLate r.state.moments
  /-- Whatever their stops answer, all that run are stopped when the run
  ends, and none before. -/
  stops_eq : stops r.state.moments =
    if r.result.isSome then (succeeded (starts r.state.moments)).reverse else []
  cancelled_iff : r.cancelled = true ↔
    r.result.isSome ∨ RequestedAt requested (starts r.state.moments) 0
  error_iff (e : StartError) : r.result = some (.error e) ↔
    ∃ c s reason, (c, s) ∈ starts r.state.moments ∧ s.outcome = .error reason ∧
      e = ⟨c.name, reason⟩ ∧ e.message = s!"start {c.name}: {reason}"
  ok_iff : r.result = some (.ok ()) ↔
    (∀ s ∈ starts r.state.moments, s.2.outcome = .ok ()) ∧
      ∃ instant < horizon,
        RequestedAt requested (starts r.state.moments) instant
  none_iff : r.result = none ↔
    (∀ s ∈ starts r.state.moments, s.2.outcome = .ok ()) ∧
      ∀ instant, RequestedAt requested (starts r.state.moments) instant →
        horizon ≤ instant
  isLeast_elapsed : r.result = some (.ok ()) →
    IsLeast { instant | RequestedAt requested (starts r.state.moments) instant }
      r.elapsed

/-- A run starts and stops its components in order, whatever they answer and
whenever shutdown is requested. -/
theorem orderly_run (components : List (Component σ)) (requested : Option Nat)
    (horizon : Nat) (world : σ) :
    Orderly components requested horizon world
      (run components requested horizon world) := by
  have hrun := turnsOut_run components requested horizon world
  refine
    { follows := hrun.goesOn.follows
      upToFailure := hrun.upToFailure
      stopsLate := hrun.stopsLate
      stops_eq := hrun.goesOn.stops_eq
      cancelled_iff := hrun.cancelled_iff
      error_iff := fun e => ?_
      ok_iff := ?_
      none_iff := ?_
      isLeast_elapsed := hrun.isLeast_elapsed }
  · rw [hrun.result_eq_error_iff, hrun.upToFailure.failure?_eq_some_iff]
    refine exists₃_congr fun c s reason => and_congr_right fun _ =>
      and_congr_right fun _ => ?_
    exact ⟨fun he => ⟨he, he ▸ rfl⟩, And.left⟩
  · rw [hrun.result_eq_ok_iff, failure?_eq_none_iff]
  · rw [hrun.result_eq_none_iff, failure?_eq_none_iff]

/-- A second component that fails to start; the third is left alone. -/
example :
    let storage : Component Unit :=
      ⟨"storage", fun _ => ⟨.ok (), (), none⟩, fun _ => (.ok (), ())⟩
    let http : Component Unit :=
      ⟨"http", fun _ => ⟨.error "boom", (), none⟩, fun _ => (.ok (), ())⟩
    let r := run [storage, http, storage] none 1000 ()
    r.state.events = [.start "storage", .start "http", .stop "storage"] ∧
      r.result.map (Except.mapError StartError.message) =
        some (.error "start http: boom") := by
  exact ⟨rfl, rfl⟩

end Telemetry.Supervisor
