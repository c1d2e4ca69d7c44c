import Telemetry.Proofs.Store.Request
import Mathlib.Data.List.Induction

/-!
# Restarts

A server is started on a snapshot file, serves requests while time passes, and
is stopped or dropped; then it is started on the same file again.  After any
number of such sessions its samples are those of a server that was never
restarted and was asked what each session keeps: everything if the session was
stopped or saved every change, and otherwise what was asked before the last
save.
-/

namespace Telemetry

open Service MemoryStore

inductive Event where
  | request (r : Request)
  | wait (milliseconds : Nat)

/-- What happens between two starts: the interval between saves, the events, and
whether the store is stopped in the end. -/
structure Session where
  interval : Nat
  events : List Event
  stops : Bool

namespace Event

def step : MemoryStore × Nat → Event → MemoryStore × Nat
  | (m, now), .request r => ((r.perform m).2, now)
  | (m, now), .wait ms => (m.elapse now (now + ms), now + ms)

/-- The milliseconds that events take. -/
def duration : List Event → Nat
  | [] => 0
  | .request _ :: rest => duration rest
  | .wait ms :: rest => ms + duration rest

/-- The requests among events that begin at an instant, with their instants. -/
def timeline : Nat → List Event → List (Nat × Request)
  | _, [] => []
  | now, .request r :: rest => (now, r) :: timeline now rest
  | now, .wait ms :: rest => timeline (now + ms) rest

theorem duration_append (es fs : List Event) :
    duration (es ++ fs) = duration es + duration fs := by
  induction es with
  | nil => simp [duration]
  | cons e es ih =>
      cases e with
      | request r => exact ih
      | wait ms => simp [duration, ih, Nat.add_assoc]

theorem timeline_append (now : Nat) (es fs : List Event) :
    timeline now (es ++ fs) = timeline now es ++
      timeline (now + duration es) fs := by
  induction es generalizing now with
  | nil => simp [timeline, duration]
  | cons e es ih =>
      cases e with
      | request r => simp [timeline, duration, ih]
      | wait ms => simp [timeline, duration, ih, Nat.add_assoc]

theorem le_of_mem_timeline {now : Nat} {es : List Event} {t : Nat × Request}
    (h : t ∈ timeline now es) : t.1 ≤ now + duration es := by
  induction es generalizing now with
  | nil => simp [timeline] at h
  | cons e es ih =>
      cases e with
      | request r =>
          rcases List.mem_cons.mp h with rfl | h
          · exact Nat.le_add_right _ _
          · exact ih h
      | wait ms =>
          have := ih h
          simpa [duration, Nat.add_assoc] using this

theorem mem_of_mem_timeline {now : Nat} {es : List Event} {t : Nat × Request}
    (h : t ∈ timeline now es) : Event.request t.2 ∈ es := by
  induction es generalizing now with
  | nil => simp [timeline] at h
  | cons e es ih =>
      cases e with
      | request r =>
          rcases List.mem_cons.mp h with rfl | h
          · exact List.mem_cons_self
          · exact List.mem_cons_of_mem _ (ih h)
      | wait ms => exact List.mem_cons_of_mem _ (ih h)

end Event

/-- The last end of an interval before an instant, if one has ended. -/
def lastSave? (interval now : Nat) : Option Nat :=
  let intervals := (now - 1) / interval
  if intervals = 0 then none else some (intervals * interval)

/-- The last save is at the greatest multiple of the
interval that has passed. -/
theorem lastSave?_eq_some_iff {interval now t : Nat} :
    lastSave? interval now = some t ↔
      interval ∣ t ∧ 0 < t ∧ t < now ∧ now ≤ t + interval := by
  unfold lastSave?
  dsimp only
  constructor
  · intro h
    split at h
    · cases h
    · next hne =>
        obtain rfl := Option.some.inj h
        have hpos : 0 < interval := by
          by_contra hzero
          obtain rfl : interval = 0 := by omega
          simp at hne
        have hle := Nat.div_mul_le_self (now - 1) interval
        have hlt := Nat.lt_div_mul_add hpos (a := now - 1)
        have hmul : 0 < (now - 1) / interval * interval :=
          Nat.mul_pos (Nat.pos_of_ne_zero hne) hpos
        exact ⟨Nat.dvd_mul_left _ _, hmul, by omega, by omega⟩
  · rintro ⟨⟨c, rfl⟩, hpos, hlt, hle⟩
    have hc : 0 < c := Nat.pos_of_ne_zero (by rintro rfl; simp at hpos)
    have hdiv : (now - 1) / interval = c := by
      apply Nat.div_eq_of_lt_le
      · rw [Nat.mul_comm]
        omega
      · rw [Nat.add_mul, Nat.one_mul, Nat.mul_comm c]
        omega
    rw [hdiv, if_neg (by omega), Nat.mul_comm]

namespace Session

def requests (s : Session) : List Request :=
  (Event.timeline 0 s.events).map (·.2)

/-- The requests among events that the file holds: all of them if every change
is saved, and otherwise those before the last save. -/
def saved (interval : Nat) (events : List Event) : List Request :=
  if interval = 0 then (Event.timeline 0 events).map (·.2)
  else
    match lastSave? interval (Event.duration events) with
    | none => []
    | some t => ((Event.timeline 0 events).filter (·.1 ≤ t)).map (·.2)

/-- The requests that outlive a session: all of them if it was stopped, and
otherwise those that the file holds. -/
def kept (s : Session) : List Request :=
  if s.stops then s.requests else saved s.interval s.events

/-- Starts a store on the file of a path, from which it restores its samples. -/
def launch (path : String) (interval : Nat) (site : Site) :
    Except StorageError MemoryStore := do
  let m ← MemoryStore.new ⟨some path, interval, true⟩ site
  match m.start 0 with
  | (.ok (), m) => .ok m
  | (.error e, _) => .error e

def run (path : String) (site : Site) (s : Session) :
    Except StorageError Site := do
  let m ← launch path s.interval site
  let (m, _) := s.events.foldl Event.step (m, 0)
  if s.stops then
    match m.stop with
    | (.ok (), m) => .ok m.site
    | (.error e, _) => .error e
  else .ok m.site

def runAll (path : String) (sessions : List Session) (interval : Nat)
    (site : Site) : Except StorageError MemoryStore := do
  launch path interval (← sessions.foldlM (run path) site)

/-! ## One session -/

/-- The file of a path stands at its place and is restored to the samples. -/
structure Durable (path : String) (f : SnapshotFile) (site : Site)
    (s : Samples) : Prop where
  settled : f.Settled site.disk path
  holds : Holds site f s
  legible : s.Legible

theorem filter_isEmpty_of_openAt {d d' : Disk} {path : String}
    {f : SnapshotFile} (h : SnapshotFile.openAt d path = .ok (f, d')) :
    (some path).filter (! ·.isEmpty) = some path := by
  have hne : path.isEmpty = false := by
    cases hempty : path.isEmpty with
    | false => rfl
    | true =>
        obtain ⟨r, -, -, hroute, -⟩ := SnapshotFile.openAt_eq_ok h
        have hempty' : path = "" := by simpa using hempty
        subst hempty'
        simp [Disk.route] at hroute
  simp [Option.filter, hne]

theorem restore_eq {f : SnapshotFile} {m : MemoryStore} {s : Samples}
    (hfile : m.file = some f) (hopen : f.isOpen = true)
    (hsamples : m.samples = .empty) (hholds : Holds m.site f s) :
    restore m = (.ok (), { m with samples := s }) := by
  unfold Holds at hholds
  simp [restore, hfile, SnapshotFile.load_eq, hopen, hsamples, hholds]

theorem start_eq {m m' : MemoryStore} {f : SnapshotFile}
    (hfile : m.file = some f) (hrestores : m.restores = true)
    (hrestore : restore m = (.ok (), m')) (now : Nat) :
    m.start now = (.ok (),
      if m.isSync then m'
      else
        { m' with
          saver := some now
          abandoned := m'.saver.toList ++ m'.abandoned }) := by
  have hnone : m.file.isNone = false := by simp [hfile]
  have hget : (get : StoreM MemoryStore MemoryStore) m = (.ok m, m) := rfl
  unfold start
  rw [run_bind_of_eq_ok hget]
  dsimp only
  rw [hnone, hrestores]
  refine (run_bind_of_eq_ok hrestore _).trans ?_
  cases m.isSync <;> rfl

/-- A store that is started on a durable file has its samples. -/
theorem Durable.launch {path : String} {f : SnapshotFile} {site : Site}
    {s : Samples} (h : Durable path f site s) (interval : Nat) :
    ∃ m, launch path interval site = .ok m ∧ Running path f interval m ∧
      m.samples = s ∧ m.site = site := by
  have hopen := h.settled.openAt_eq
  have hnew : MemoryStore.new ⟨some path, interval, true⟩ site =
      .ok (ofFile (some f) interval true site) := by
    simp only [MemoryStore.new, filter_isEmpty_of_openAt hopen, hopen]
  have hrestore : restore (ofFile (some f) interval true site) =
      (.ok (), { ofFile (some f) interval true site with samples := s }) :=
    restore_eq rfl h.settled.isOpen rfl h.holds
  have hstart := start_eq rfl rfl hrestore 0
  by_cases hzero : interval = 0
  · refine ⟨{ ofFile (some f) interval true site with samples := s }, ?_, ?_,
      rfl, rfl⟩
    · have hsync : (ofFile (some f) interval true site).isSync = true := by
        simp [isSync, ofFile, hzero]
      simp only [Session.launch, hnew, bind, Except.bind, hstart, hsync,
        if_true]
    · exact ⟨rfl, h.settled, rfl, by simp [hzero, ofFile], rfl, rfl, h.legible⟩
  · refine
      ⟨{ ofFile (some f) interval true site with
          samples := s
          saver := some 0 }, ?_, ?_, rfl, rfl⟩
    · have hsync : (ofFile (some f) interval true site).isSync = false := by
        simp [isSync, ofFile, hzero]
      simp only [Session.launch, hnew, bind, Except.bind, hstart, hsync]
      rfl
    · exact ⟨rfl, h.settled, rfl, by simp [hzero], rfl, rfl, h.legible⟩

/-- A store that is stopped has saved its samples. -/
theorem stop_eq {path : String} {f : SnapshotFile} {interval : Nat}
    {m : MemoryStore} (h : Running path f interval m) :
    ∃ m', m.stop = (.ok (), m') ∧ m'.site = (save m).2.site := by
  have hsave : save { m with saver := none } =
      (.ok (), { (save m).2 with saver := none }) := by
    rw [save_eq h.file h.settled.isOpen,
      save_eq (m := { m with saver := none }) h.file h.settled.isOpen]
    rfl
  refine
    ⟨{ (save m).2 with
        saver := none
        file := (save m).2.file.map (·.close) }, ?_, rfl⟩
  have hsome : ({ m with saver := none } : MemoryStore).file.isSome = true := by
    simp [h.file]
  have hmodify :
      (modify fun m => { m with saver := none } : StoreM MemoryStore Unit) m =
      (.ok (), { m with saver := none }) := rfl
  have hget : (get : StoreM MemoryStore MemoryStore) { m with saver := none } =
      (.ok { m with saver := none }, { m with saver := none }) := rfl
  unfold stop
  rw [run_bind_of_eq_ok hmodify, run_bind_of_eq_ok hget, hsome]
  exact run_bind_of_eq_ok hsave _

/-! ## The events of a session -/

theorem saved_request (interval : Nat) (events : List Event) (r : Request) :
    saved interval (events ++ [.request r]) =
      saved interval events ++ if interval = 0 then [r] else [] := by
  unfold saved
  rw [Event.timeline_append, Event.duration_append]
  by_cases hzero : interval = 0
  · simp [hzero, Event.timeline]
  · simp only [hzero, if_false, Event.duration, Nat.add_zero, Event.timeline,
      Nat.zero_add, List.append_nil]
    cases hlast : lastSave? interval (Event.duration events) with
    | none => rfl
    | some t =>
        obtain ⟨-, -, hlt, -⟩ := lastSave?_eq_some_iff.mp hlast
        simp [Nat.not_le_of_lt hlt]

theorem saved_wait {interval : Nat} (hne : interval ≠ 0) (events : List Event)
    (ms : Nat) :
    saved interval (events ++ [.wait ms]) =
      if (Event.duration events - 1) / interval <
          (Event.duration events + ms - 1) / interval then
            (Event.timeline 0 events).map (·.2)
      else saved interval events := by
  unfold saved
  rw [Event.timeline_append, Event.duration_append]
  simp only [hne, if_false, Event.duration, Event.timeline, List.append_nil,
    Nat.add_zero]
  by_cases hdue : (Event.duration events - 1) / interval <
      (Event.duration events + ms - 1) / interval
  · -- an interval ends, and everything so far was asked before
    rw [if_pos hdue]
    have hpos : 0 < interval := Nat.pos_of_ne_zero hne
    have hbefore : Event.duration events ≤
        (Event.duration events + ms - 1) / interval * interval := by
      have := (Nat.div_lt_iff_lt_mul hpos).mp hdue
      omega
    have hsome : lastSave? interval (Event.duration events + ms) =
        some ((Event.duration events + ms - 1) / interval * interval) := by
      simp only [lastSave?]
      rw [if_neg (Nat.ne_of_gt (Nat.zero_lt_of_lt hdue))]
    have hall : (Event.timeline 0 events).filter
        (·.1 ≤ (Event.duration events + ms - 1) / interval * interval) =
        Event.timeline 0 events := by
      refine List.filter_eq_self.mpr fun t ht => ?_
      have := Event.le_of_mem_timeline ht
      simp only [decide_eq_true_eq]
      omega
    simp only [hsome, hall]
  · rw [if_neg hdue]
    have hmono : (Event.duration events - 1) / interval ≤
        (Event.duration events + ms - 1) / interval :=
          Nat.div_le_div_right (by omega)
    have hsame : lastSave? interval (Event.duration events + ms) =
        lastSave? interval (Event.duration events) := by
      have heq : (Event.duration events + ms - 1) / interval =
          (Event.duration events - 1) / interval := by omega
      simp only [lastSave?, heq]
    rw [hsame]

/-- After events the store has served all requests, and the file holds
those that are saved. -/
structure Progress (path : String) (f : SnapshotFile) (interval : Nat)
    (s : Samples) (events : List Event) (m : MemoryStore)
    (now : Nat) : Prop where
  running : Running path f interval m
  now_eq : now = Event.duration events
  samples :
    m.samples = ((Event.timeline 0 events).map (·.2)).foldl Request.apply s
  holds : Holds m.site f ((saved interval events).foldl Request.apply s)

variable {path : String} {f : SnapshotFile} {interval : Nat} {s : Samples}
  {events : List Event} {m : MemoryStore} {now : Nat}

theorem Progress.request (h : Progress path f interval s events m now)
    {r : Request} (hr : r.Legible) :
    Progress path f interval s (events ++ [.request r])
      (r.perform m).2 now := by
  obtain ⟨hrunning, hsync, hinterval⟩ := h.running.writeAll hr.tame
  have hsamples := Request.samples_perform r m
  rw [Request.perform_eq] at hsamples ⊢
  refine ⟨hrunning, ?_, ?_, ?_⟩
  · rw [Event.duration_append, h.now_eq]
    rfl
  · rw [hsamples, h.samples, Event.timeline_append]
    simp [Event.timeline]
  · rw [saved_request]
    by_cases hzero : interval = 0
    · have hall :
          m.samples = (saved interval events).foldl Request.apply s := by
        rw [h.samples, saved, if_pos hzero]
      have hholds : Holds m.site f m.samples := by
        rw [hall]
        exact h.holds
      have := hsync hzero hholds
      rw [hsamples, hall] at this
      simpa [hzero] using this
    · rw [if_neg hzero, List.append_nil]
      have hsite := hinterval hzero
      simp only [hsite]
      exact h.holds

theorem Progress.wait (h : Progress path f interval s events m now) (ms : Nat) :
    Progress path f interval s (events ++ [.wait ms]) (m.elapse now (now + ms))
      (now + ms) := by
  obtain ⟨hrunning, hsamples, hholds⟩ := h.running.save
  have hnow := h.now_eq
  have htimeline :
      Event.timeline 0 (events ++ [.wait ms]) = Event.timeline 0 events := by
    simp [Event.timeline_append, Event.timeline]
  have hduration : now + ms = Event.duration (events ++ [.wait ms]) := by
    simp [Event.duration_append, Event.duration, hnow]
  rw [h.running.elapse]
  by_cases hzero : interval = 0
  · subst hzero
    simp only [Nat.div_zero, Nat.lt_irrefl, if_false]
    refine ⟨h.running, hduration, ?_, ?_⟩
    · rw [htimeline, h.samples]
    · have hholds := h.holds
      simp only [saved, if_true] at hholds ⊢
      rwa [htimeline]
  · have hsaved := saved_wait hzero events ms
    rw [← hnow] at hsaved
    split
    · next hdue =>
        rw [if_pos hdue] at hsaved
        refine ⟨hrunning, hduration, ?_, ?_⟩
        · rw [htimeline, hsamples, h.samples]
        · rw [hsaved, ← h.samples]
          exact hholds
    · next hdue =>
        rw [if_neg hdue] at hsaved
        refine ⟨h.running, hduration, ?_, ?_⟩
        · rw [htimeline, h.samples]
        · rw [hsaved]
          exact h.holds

/-- Whatever happens in a session, the file holds what is saved. -/
theorem Progress.foldl (h : Progress path f interval s [] m 0)
    (hlegible : ∀ r, Event.request r ∈ events → r.Legible) :
    Progress path f interval s events (events.foldl Event.step (m, 0)).1
      (events.foldl Event.step (m, 0)).2 := by
  induction events using List.reverseRecOn with
  | nil => exact h
  | append_singleton events e ih =>
      have hevents := ih fun r hr => hlegible r (List.mem_append_left _ hr)
      rw [List.foldl_concat]
      cases e with
      | request r => exact hevents.request (hlegible r (by simp))
      | wait ms => exact hevents.wait ms

/-! ## Sessions one after the other -/

/-- Every request of the session has values that read back. -/
def Legible (s : Session) : Prop := ∀ r, Event.request r ∈ s.events → r.Legible

theorem mem_of_mem_saved {r : Request} (h : r ∈ saved interval events) :
    Event.request r ∈ events := by
  unfold saved at h
  split at h
  · obtain ⟨t, ht, rfl⟩ := List.mem_map.mp h
    exact Event.mem_of_mem_timeline ht
  · split at h
    · simp at h
    · obtain ⟨t, ht, rfl⟩ := List.mem_map.mp h
      exact Event.mem_of_mem_timeline (List.mem_filter.mp ht).1

/-- A session runs, and what it keeps can be restored. -/
theorem Durable.run {site : Site} (h : Durable path f site s)
    {session : Session} (hlegible : session.Legible) :
    ∃ site', run path site session = .ok site' ∧
      Durable path f site' (session.kept.foldl Request.apply s) := by
  obtain ⟨m, hlaunch, hrunning, hsamples, hsite⟩ := h.launch session.interval
  have hstart : Progress path f session.interval s [] m 0 := by
    refine ⟨hrunning, rfl, hsamples, ?_⟩
    have hnone : saved session.interval [] = [] := by
      simp [saved, Event.timeline, Event.duration, lastSave?]
    rw [hnone, hsite]
    exact h.holds
  have hprogress := hstart.foldl hlegible
  unfold Session.run kept requests
  simp only [hlaunch, bind, Except.bind]
  cases session.stops with
  | true =>
      obtain ⟨m', hstop, hsite'⟩ := stop_eq hprogress.running
      obtain ⟨hrunning', -, hholds⟩ := hprogress.running.save
      refine ⟨m'.site, by simp [hstop], ?_⟩
      rw [hsite', if_pos rfl, ← hprogress.samples]
      exact ⟨hrunning'.settled, hholds, hprogress.running.legible⟩
  | false =>
      -- nothing saves when a store is dropped, so the file stays as its last
      -- save left it
      refine ⟨_, rfl, hprogress.running.settled, ?_, ?_⟩
      · simpa using hprogress.holds
      · have hsaved : ∀ r ∈ saved session.interval session.events, r.Legible :=
          fun r hr => hlegible r (mem_of_mem_saved hr)
        simpa using Request.legible_foldl hsaved h.legible

theorem Durable.foldlM {site : Site} (h : Durable path f site s)
    {sessions : List Session}
    (hlegible : ∀ session ∈ sessions, session.Legible) :
    ∃ site', sessions.foldlM (Session.run path) site = .ok site' ∧
      Durable path f site' ((sessions.flatMap kept).foldl Request.apply s) := by
  induction sessions generalizing site s with
  | nil => exact ⟨site, rfl, h⟩
  | cons session sessions ih =>
      obtain ⟨site₁, hrun, h₁⟩ := h.run (hlegible session List.mem_cons_self)
      obtain ⟨site₂, hrest, h₂⟩ :=
        ih h₁ fun session hsession =>
          hlegible session (List.mem_cons_of_mem _ hsession)
      refine ⟨site₂, ?_, ?_⟩
      · simp only [List.foldlM_cons, hrun, bind, Except.bind, hrest]
      · rwa [List.flatMap_cons, List.foldl_append]

/-- A file that is missing is made, after which it is opened as it stands. -/
theorem launch_of_openAt {site : Site} {disk : Disk}
    (h : SnapshotFile.openAt site.disk path = .ok (f, disk)) (interval : Nat) :
    launch path interval site = launch path interval { site with disk } := by
  have hsettled := SnapshotFile.settled_of_openAt h
  simp only [Session.launch, MemoryStore.new, filter_isEmpty_of_openAt h, h,
    hsettled.openAt_eq]

end Session

/-- Snapshots survive restarts.  On a file that is missing or empty, any
sessions one after the other run without a failure, the store starts once more,
and its samples are those of a store that was never restarted after the accepted
requests that the sessions keep. -/
theorem samples_after_restarts {path : String} {site : Site} {f : SnapshotFile}
    {disk : Disk} (hopen : SnapshotFile.openAt site.disk path = .ok (f, disk))
    (hempty : f.load disk = .ok []) (sessions : List Session)
    (hlegible : ∀ session ∈ sessions, session.Legible) (interval : Nat) :
    ∃ m, Session.runAll path sessions interval site = .ok m ∧
      m.samples =
        Request.samplesAfter
          ((sessions.flatMap Session.kept).filter Request.isAccepted) := by
  have hsettled := SnapshotFile.settled_of_openAt hopen
  have hdurable : Session.Durable path f { site with disk } .empty := by
    refine ⟨hsettled, ?_, Samples.legible_empty⟩
    have hcontents : (disk.contents? f.place).getD [] = [] := by
      simpa [SnapshotFile.load_eq, hsettled.isOpen] using hempty
    simp [Holds, hcontents, restored]
  have hstart : Session.runAll path sessions interval site =
      Session.runAll path sessions interval { site with disk } := by
    cases sessions with
    | nil => exact Session.launch_of_openAt hopen interval
    | cons session sessions =>
        have hrun : Session.run path site session =
            Session.run path { site with disk } session := by
          simp only [Session.run, Session.launch_of_openAt hopen]
        simp only [Session.runAll, List.foldlM_cons, hrun]
  obtain ⟨site', hsessions, hdurable'⟩ := hdurable.foldlM hlegible
  obtain ⟨m, hlaunch, -, hsamples, -⟩ := hdurable'.launch interval
  refine ⟨m, ?_, ?_⟩
  · rw [hstart]
    simp only [Session.runAll, hsessions, bind, Except.bind, hlaunch]
  · rw [hsamples, Request.samplesAfter_eq, Request.foldl_apply_filter]

/-- Three sessions on a file that is missing: one that saves every change and
rejects a gauge, one that is dropped after its first save, and one that is
stopped.  The four polls that were counted after the save are lost. -/
theorem samples_after_three_sessions :
    let sessions : List Session :=
      [⟨0, [.request (.updateBatch
            [.gauge "Alloc" ⟨0x3FF8000000000000⟩, .counter "PollCount" 2]),
          .request (.update (.gauge "Alloc" .nan))], false⟩,
        ⟨1000, [.request (.update (.counter "PollCount" 3)), .wait 1500,
          .request (.update (.counter "PollCount" 4))], false⟩,
        ⟨1000, [.request (.update (.counter "PollCount" 5))], true⟩]
    (∀ session ∈ sessions, session.Legible) ∧
      ∃ m, Session.runAll "metrics-db.json" sessions 0 .empty = .ok m ∧
        m.samples =
          .ofLists [("Alloc", ⟨0x3FF8000000000000⟩)] [("PollCount", 10)] := by
  intro sessions
  have hreadable : Json.Readable ⟨0x3FF8000000000000⟩ := by decide +kernel
  have hlegible : ∀ session ∈ sessions, session.Legible := by
    simp only [sessions, Session.Legible, Request.Legible,
      Metric.HasReadableValue, List.not_mem_nil, List.mem_cons,
      Event.request.injEq, or_false, forall_eq_or_imp, forall_eq, reduceCtorEq,
      false_or, Request.metrics, Metric.gauge, Metric.counter,
      Option.some.injEq, IsEmpty.forall_iff, implies_true, and_true]
    refine ⟨fun v hv _ => ?_, fun v hv hfinite => ?_⟩
    · exact hv ▸ hreadable
    · exact absurd hfinite (hv ▸ by decide)
  have hopen : SnapshotFile.openAt Site.empty.disk "metrics-db.json" =
      .ok (⟨"metrics-db.json", ["metrics-db.json"], true⟩,
        ⟨[(["metrics-db.json"], .file [])]⟩) := rfl
  obtain ⟨m, hrun, hsamples⟩ :=
    samples_after_restarts hopen rfl sessions hlegible 0
  exact ⟨hlegible, m, hrun, hsamples.trans (by decide)⟩

end Telemetry
