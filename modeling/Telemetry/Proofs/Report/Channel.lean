import Telemetry.Provider
import Telemetry.Report.Generator
import Mathlib.Logic.Relation

/-!
# Reports on their way to the workers

Polls of the providers, ticks of the generator, what the receiver does and the
shutdown come in any order, with any time between them.  A report is a union
with metrics.  What was received, what the channel holds and what waits for the
channel make up the reports in the order in which they were taken, so what is
received is always the first of them.
-/

namespace Telemetry

/-! ## The union of the providers -/

/-- The providers are read one after the other, from a place on, and
polled meanwhile. -/
inductive Providers.Reads : Providers → Nat → Batch → Providers → Prop
  | done {p : Providers} {place : Nat} (hplace : p.members.length ≤ place) :
      Reads p place [] p
  | poll {p q : Providers} {place : Nat} {union : Batch} (index : Nat)
    (hrest : Reads (p.poll index).2 place union q) : Reads p place union q
  | read {p q : Providers} {place : Nat} {provider : Provider} {union : Batch}
    (hprovider : p.members[place]? = some provider)
    (hrest : Reads p (place + 1) union q) :
    Reads p place (provider.latest.toBatch ++ union) q

/-- Without polls meanwhile what is read is the union at one instant. -/
theorem Providers.reads_metrics (p : Providers) : p.Reads 0 p.metrics p := by
  suffices hdrop : ∀ (rest : List Provider) (place : Nat),
      p.members.drop place = rest →
      p.Reads place (rest.flatMap fun provider => provider.latest.toBatch) p by
    exact hdrop p.members 0 rfl
  intro rest
  induction rest with
  | nil => exact fun place hdrop => .done (List.drop_eq_nil_iff.mp hdrop)
  | cons provider rest ih =>
      intro place hdrop
      rw [List.flatMap_cons]
      refine .read ?_ (ih (place + 1) ?_)
      · rw [← List.head?_drop, hdrop, List.head?_cons]
      · rw [← List.tail_drop, hdrop, List.tail_cons]

/-! ## The generator -/

/-- The batch that waits for the channel, if any. -/
def GeneratorPhase.waits : GeneratorPhase → List Batch
  | .sending batch => [batch]
  | .waiting | .stopped => []

namespace Generator

variable {g : Generator} {batch : Batch} {now : Nat}

theorem tick_of_due (hphase : g.phase = .waiting) (hdue : g.due ≤ now)
    (union : Batch) :
    g.tick now union =
      { g with
        due := (if g.due + tolerance < now then now else g.due) + g.interval
        phase := if union.isEmpty then .waiting else .sending union } :=
  if_pos ⟨hphase, hdue⟩

theorem offer_of_full (hbuffer : g.buffer = some batch) : g.offer = g := by
  simp [offer, hbuffer]

theorem offer_of_room (hphase : g.phase = .sending batch)
    (hbuffer : g.buffer = none) (hreceiving : g.receiving = true) :
    g.offer = { g with phase := .waiting, buffer := some batch } := by
  simp [offer, hphase, hbuffer, hreceiving]

theorem offer_of_gone (hphase : g.phase = .sending batch)
    (hbuffer : g.buffer = none) (hreceiving : g.receiving = false) :
    g.offer = { g with phase := .stopped } := by
  simp [offer, hphase, hbuffer, hreceiving]

theorem offer_of_stopped (hphase : g.phase = .stopped) : g.offer = g := by
  simp [offer, hphase]

@[simp] theorem due_offer (g : Generator) : g.offer.due = g.due := by
  unfold offer
  split
  · split <;> rfl
  · rfl

theorem await_of_buffered (hbuffer : g.buffer = some batch)
    (unionAt : Nat → Batch) (now later : Nat) :
    g.await unionAt now later =
      (.batch batch, now, { g with buffer := none }) := by
  simp [await, hbuffer, receive]

theorem await_of_stopped (hphase : g.phase = .stopped)
    (hbuffer : g.buffer = none) (unionAt : Nat → Batch) (now later : Nat) :
    g.await unionAt now later = (.closed, now, g) := by
  simp [await, settle, tick, offer_of_stopped, hbuffer, hphase]

/-! ## The reports in order -/

/-- The unions with metrics. -/
def reports (unions : List Batch) : List Batch :=
  unions.filter fun union => !union.isEmpty

theorem reports_concat (unions : List Batch) (union : Batch) :
    reports (unions ++ [union]) = reports unions ++ reports [union] :=
  List.filter_append ..

theorem reports_of_isEmpty {union : Batch} (hunion : union.isEmpty = true) :
    reports [union] = [] := by
  simp [reports, hunion]

theorem reports_of_not_isEmpty {union : Batch}
    (hunion : union.isEmpty = false) :
    reports [union] = [union] := by
  simp [reports, hunion]

/-- What is true at any time of a generator, its reports so far, and those
that were received. -/
structure InOrder (g : Generator) (reports received : List Batch) : Prop where
  order : received ++ g.buffer.toList <+: reports
  whole : g.receiving = true → g.phase ≠ .stopped →
    reports = received ++ g.buffer.toList ++ g.phase.waits
  waits : ∀ batch, g.phase = .sending batch → batch ∈ reports
  gone : g.receiving = false → g.buffer = none
  few : reports.length ≤ received.length + 2
  fewer : g.phase = .waiting → reports.length ≤ received.length + 1

theorem inOrder_start (interval now : Nat) :
    InOrder (start interval now) [] [] where
  order := List.nil_prefix
  whole _ _ := rfl
  waits _ hphase := nomatch hphase
  gone _ := rfl
  few := Nat.zero_le _
  fewer _ := Nat.zero_le _

namespace InOrder

variable {taken received : List Batch}

theorem tick (h : InOrder g taken received) (hphase : g.phase = .waiting)
    (hdue : g.due ≤ now) (union : Batch) :
    InOrder (g.tick now union) (taken ++ reports [union]) received := by
  have hfewer := h.fewer hphase
  have hwhole := h.whole
  rw [hphase] at hwhole
  rw [tick_of_due hphase hdue]
  cases hunion : union.isEmpty with
  | true =>
      rw [reports_of_isEmpty hunion, List.append_nil]
      exact ⟨h.order, hwhole, nofun, h.gone, h.few, fun _ => hfewer⟩
  | false =>
      rw [reports_of_not_isEmpty hunion]
      refine ⟨h.order.trans (List.prefix_append ..), fun hreceiving _ => ?_, ?_,
        h.gone, ?_, nofun⟩
      · rw [hwhole hreceiving nofun]
        simp [GeneratorPhase.waits]
      · intro batch hsending
        cases hsending
        exact List.mem_concat_self
      · rw [List.length_append]
        exact Nat.succ_le_succ hfewer

theorem shutDown (h : InOrder g taken received) :
    InOrder g.shutDown taken received where
  order := h.order
  whole _ hphase := absurd rfl hphase
  waits _ hphase := nomatch hphase
  gone := h.gone
  few := h.few
  fewer hphase := nomatch hphase

theorem offer (h : InOrder g taken received) :
    InOrder g.offer taken received := by
  cases hphase : g.phase with
  | waiting => simpa [Generator.offer, hphase] using h
  | stopped => simpa [Generator.offer, hphase] using h
  | sending batch =>
      cases hbuffer : g.buffer with
      | some other => simpa [offer_of_full hbuffer] using h
      | none =>
          cases hreceiving : g.receiving with
          | true =>
              -- With an empty channel the batch that waits is all that was not
              -- received.
              have hwhole : taken = received ++ [batch] := by
                simpa [hphase, hbuffer, GeneratorPhase.waits] using
                  h.whole hreceiving (by simp [hphase])
              rw [offer_of_room hphase hbuffer hreceiving]
              refine ⟨?_, fun _ _ => ?_, nofun, ?_, h.few, fun _ => ?_⟩
              · rw [hwhole]
                exact List.prefix_rfl
              · simpa [GeneratorPhase.waits] using hwhole
              · exact fun hgone => nomatch hreceiving.symm.trans hgone
              · simp [hwhole]
          | false =>
              rw [offer_of_gone hphase hbuffer hreceiving]
              exact h.shutDown

theorem receive (h : InOrder g taken received) :
    InOrder g.receive.2 taken (received ++ g.receive.1.toList) where
  order := by simpa [Generator.receive] using h.order
  whole hreceiving hphase := by
    simpa [Generator.receive] using h.whole hreceiving hphase
  waits := h.waits
  gone _ := rfl
  few := by
    rw [List.length_append]
    exact Nat.le_trans h.few (by omega)
  fewer hphase := by
    rw [List.length_append]
    exact Nat.le_trans (h.fewer hphase) (by omega)

theorem dropReceiver (h : InOrder g taken received) :
    InOrder g.dropReceiver taken received where
  order := by
    simpa [Generator.dropReceiver] using (List.prefix_append ..).trans h.order
  whole hreceiving := nomatch hreceiving
  waits := h.waits
  gone _ := rfl
  few := h.few
  fewer := h.fewer

end InOrder

end Generator

/-! ## Steps in any order -/

/-- Providers, a generator and its receiver, with the unions that were taken so
far and the batches that were received. -/
structure Exchange where
  providers : Providers
  generator : Generator
  now : Nat
  /-- Whether the shutdown was asked for. -/
  cancelled : Bool
  unions : List Batch
  received : List Batch

namespace Exchange

variable {x y : Exchange} {batch : Batch}

def start (providers : Providers) (interval now : Nat) : Exchange :=
  ⟨providers, .start interval now, now, false, [], []⟩

inductive Step (x : Exchange) : Exchange → Prop
  | poll (index : Nat) :
      Step x { x with providers := (x.providers.poll index).2 }
  | pass (later : Nat) (hlater : x.now ≤ later) : Step x { x with now := later }
  | tick (union : Batch) (providers : Providers)
      (hphase : x.generator.phase = .waiting) (hdue : x.generator.due ≤ x.now)
      (hreads : x.providers.Reads 0 union providers) :
    Step x
      { x with
        providers := providers
        generator := x.generator.tick x.now union
        unions := x.unions ++ [union] }
  | send (batch : Batch) (hphase : x.generator.phase = .sending batch) :
    Step x { x with generator := x.generator.offer }
  /-- The generator sees that it is to stop, whether it waits for a tick
  or for the channel. -/
  | notice (hcancelled : x.cancelled = true) :
      Step x { x with generator := x.generator.shutDown }
  | receive (hreceiving : x.generator.receiving = true) :
    Step x
      { x with
        generator := x.generator.receive.2
        received := x.received ++ x.generator.receive.1.toList }
  | dropReceiver : Step x { x with generator := x.generator.dropReceiver }
  | shutDown : Step x { x with cancelled := true }

abbrev Reaches : Exchange → Exchange → Prop := Relation.ReflTransGen Step

theorem reaches_offer (x : Exchange) :
    Reaches x { x with generator := x.generator.offer } := by
  cases hphase : x.generator.phase with
  | sending batch => exact .single (.send batch hphase)
  | waiting | stopped =>
      have hoffer : x.generator.offer = x.generator := by
        simp [Generator.offer, hphase]
      rw [hoffer]

theorem reaches_tick (x : Exchange) :
    ∃ unions, Reaches x
      { x with
        generator := x.generator.tick x.now x.providers.metrics
        unions } := by
  by_cases hdue : x.generator.phase = .waiting ∧ x.generator.due ≤ x.now
  · exact ⟨_, .single (.tick _ _ hdue.1 hdue.2 x.providers.reads_metrics)⟩
  · rw [Generator.tick, if_neg hdue]
    exact ⟨x.unions, .refl⟩

/-- What a generator does at one instant, if nothing comes
between, are steps. -/
theorem reaches_settle (x : Exchange) :
    ∃ unions, Reaches x
      { x with
        generator := x.generator.settle x.now x.providers.metrics
        unions } := by
  obtain ⟨unions, htick⟩ :=
    reaches_tick { x with generator := x.generator.offer }
  exact ⟨unions, ((reaches_offer x).trans htick).trans (reaches_offer _)⟩

def reports (x : Exchange) : List Batch := Generator.reports x.unions

def Sound (x : Exchange) : Prop := x.generator.InOrder x.reports x.received

theorem Sound.step (h : Sound x) (hstep : Step x y) : Sound y := by
  cases hstep with
  | poll | pass | shutDown => exact h
  | tick union providers hphase hdue hreads =>
      rw [Sound, reports, Generator.reports_concat]
      exact h.tick hphase hdue union
  | send batch hphase => exact h.offer
  | notice hcancelled => exact h.shutDown
  | receive hreceiving => exact h.receive
  | dropReceiver => exact h.dropReceiver

theorem sound_of_reaches {providers : Providers} {interval now : Nat}
    (h : Reaches (start providers interval now) x) : Sound x := by
  induction h with
  | refl => exact Generator.inOrder_start interval now
  | tail _ hstep ih => exact ih.step hstep

/-- While a batch waits for the channel no union is taken. -/
theorem unions_of_sending (hphase : x.generator.phase = .sending batch)
    (hstep : Step x y) :
    y.unions = x.unions := by
  cases hstep with
  | tick union providers hwaiting => exact nomatch hphase.symm.trans hwaiting
  | poll | pass | send | notice | receive | dropReceiver | shutDown => rfl

theorem unions_grow (h : Reaches x y) : x.unions <+: y.unions := by
  induction h with
  | refl => exact List.prefix_rfl
  | tail _ hstep ih =>
      refine ih.trans ?_
      cases hstep with
      | tick union => exact List.prefix_append ..
      | poll | pass | send | notice | receive | dropReceiver | shutDown =>
          exact List.prefix_rfl

theorem reports_length_le (h : Reaches x y) :
    x.reports.length ≤ y.reports.length :=
  ((unions_grow h).filter _).length_le

theorem Sound.nonempty (h : Sound x) (hbatch : batch ∈ x.received ∨
    x.generator.buffer = some batch ∨ x.generator.phase = .sending batch) :
      batch ≠ [] := by
  have hmem : batch ∈ x.reports := by
    rcases hbatch with hreceived | hbuffer | hphase
    · exact h.order.subset (List.mem_append_left _ hreceived)
    · exact h.order.subset (List.mem_append_right _ (by simp [hbuffer]))
    · exact h.waits batch hphase
  rintro rfl
  exact nomatch (List.mem_filter.mp hmem).2

/-! ## After the shutdown -/

/-- A step by which the next tick does not become due while a shutdown
has not been seen. -/
def Prompt (x y : Exchange) : Prop :=
  Step x y ∧
    (x.cancelled = true → x.generator.phase ≠ .stopped →
      x.now < x.generator.due →
    y.now < x.generator.due)

/-- The shutdown was asked for, and no tick is due before it is seen. -/
def IsQuiet (x : Exchange) : Prop :=
  x.cancelled = true ∧ (x.generator.phase = .stopped ∨ x.now < x.generator.due)

theorem IsQuiet.step (h : IsQuiet x) (hprompt : Prompt x y) :
    IsQuiet y ∧ y.unions = x.unions := by
  obtain ⟨hstep, hseen⟩ := hprompt
  obtain ⟨hcancelled, hquiet⟩ := h
  cases hstep with
  | poll | receive | dropReceiver => exact ⟨⟨hcancelled, hquiet⟩, rfl⟩
  | shutDown => exact ⟨⟨rfl, hquiet⟩, rfl⟩
  | notice => exact ⟨⟨hcancelled, .inl rfl⟩, rfl⟩
  | pass later hlater =>
      refine ⟨⟨hcancelled, ?_⟩, rfl⟩
      by_cases hphase : x.generator.phase = .stopped
      · exact .inl hphase
      · exact .inr (hseen hcancelled hphase (hquiet.resolve_left hphase))
  | tick union providers hphase hdue =>
      rcases hquiet with hstopped | hquiet
      · exact nomatch hphase.symm.trans hstopped
      · exact absurd hdue (Nat.not_le.mpr hquiet)
  | send batch hphase =>
      rcases hquiet with hstopped | hquiet
      · exact nomatch hphase.symm.trans hstopped
      · refine ⟨⟨hcancelled, .inr ?_⟩, rfl⟩
        rwa [Generator.due_offer]

theorem unions_of_quiet (h : IsQuiet x)
    (hreaches : Relation.ReflTransGen Prompt x y) :
    y.unions = x.unions := by
  suffices hboth : IsQuiet y ∧ y.unions = x.unions from hboth.2
  induction hreaches with
  | refl => exact ⟨h, rfl⟩
  | tail _ hprompt ih =>
      obtain ⟨hquiet, hunions⟩ := ih.1.step hprompt
      exact ⟨hquiet, hunions.trans ih.2⟩

/-! ## After the generator has stopped -/

/-- The generator has stopped after some unions, and a receiver that is still
there has received or will find in the channel the same batches as ever. -/
structure Ended (unions received : List Batch) (x : Exchange) : Prop where
  stopped : x.generator.phase = .stopped
  unions : x.unions = unions
  received : x.generator.receiving = true →
    x.received ++ x.generator.buffer.toList = received

theorem Ended.step {unions received : List Batch} (h : Ended unions received x)
    (hstep : Step x y) : Ended unions received y := by
  cases hstep with
  | poll | pass | shutDown => exact ⟨h.stopped, h.unions, h.received⟩
  | tick union providers hphase => exact nomatch hphase.symm.trans h.stopped
  | send batch hphase => exact nomatch hphase.symm.trans h.stopped
  | notice => exact ⟨rfl, h.unions, h.received⟩
  | receive hreceiving =>
      refine ⟨h.stopped, h.unions, fun _ => ?_⟩
      simpa [Generator.receive] using h.received hreceiving
  | dropReceiver => exact ⟨h.stopped, h.unions, nofun⟩

theorem ended_of_stopped (hphase : x.generator.phase = .stopped)
    (h : Reaches x y) :
    Ended x.unions (x.received ++ x.generator.buffer.toList) y := by
  induction h with
  | refl => exact ⟨hphase, rfl, fun _ => rfl⟩
  | tail _ hstep ih => exact ih.step hstep

/-! ## After the receiver has gone -/

/-- Nobody receives, and the generator has at most so many
reports when it stops. -/
structure Leaving (count : Nat) (x : Exchange) : Prop where
  gone : x.generator.receiving = false
  empty : x.generator.buffer = none
  few : x.reports.length ≤ count
  fewer : x.generator.phase = .waiting → x.reports.length < count

theorem Leaving.step {count : Nat} (h : Leaving count x) (hstep : Step x y) :
    Leaving count y := by
  cases hstep with
  | poll | pass | shutDown => exact ⟨h.gone, h.empty, h.few, h.fewer⟩
  | tick union providers hphase hdue =>
      have hfewer := h.fewer hphase
      rw [Generator.tick_of_due hphase hdue]
      cases hunion : union.isEmpty with
      | true =>
          have hreports :
              Generator.reports (x.unions ++ [union]) = x.reports := by
            rw [Generator.reports_concat, Generator.reports_of_isEmpty hunion,
              List.append_nil, reports]
          refine ⟨h.gone, h.empty, ?_, fun _ => ?_⟩
          · rw [reports, hreports]
            exact h.few
          · rw [reports, hreports]
            exact hfewer
      | false =>
          refine ⟨h.gone, h.empty, ?_, nofun⟩
          rw [reports, Generator.reports_concat,
            Generator.reports_of_not_isEmpty hunion, List.length_append]
          exact hfewer
  | send batch hphase =>
      rw [Generator.offer_of_gone hphase h.empty h.gone]
      exact ⟨h.gone, h.empty, h.few, nofun⟩
  | notice => exact ⟨h.gone, h.empty, h.few, nofun⟩
  | receive => exact ⟨h.gone, rfl, h.few, h.fewer⟩
  | dropReceiver => exact ⟨rfl, rfl, h.few, h.fewer⟩

/-- A batch that waits for the channel then waits in vain, and
the generator stops. -/
theorem Leaving.offer {count : Nat} (h : Leaving count x)
    (hphase : x.generator.phase ≠ .waiting) :
    x.generator.offer.phase = .stopped := by
  cases hx : x.generator.phase with
  | waiting => exact absurd hx hphase
  | sending batch => rw [Generator.offer_of_gone hx h.empty h.gone]
  | stopped => rw [Generator.offer_of_stopped hx, hx]

theorem Leaving.reaches {count : Nat} (h : Leaving count x)
    (hreaches : Reaches x y) :
    Leaving count y := by
  induction hreaches with
  | refl => exact h
  | tail _ hstep ih => exact ih.step hstep

theorem Sound.leaving (h : Sound x) (hgone : x.generator.receiving = false) :
    Leaving (x.reports.length + 1) x :=
  ⟨hgone, h.gone hgone, Nat.le_succ _, fun _ => Nat.lt_succ_self _⟩

theorem Sound.leaving_of_not_waiting (h : Sound x)
    (hgone : x.generator.receiving = false)
    (hphase : x.generator.phase ≠ .waiting) : Leaving x.reports.length x :=
  ⟨hgone, h.gone hgone, Nat.le_refl _, fun hwaiting => absurd hwaiting hphase⟩

/-! ## The channel at any time -/

/-- What is true of the channel at any time, whatever comes after it. -/
structure Orderly (x : Exchange) : Prop where
  /-- The reports are received in order, without loss or repetition. -/
  order : x.received <+: x.reports
  whole : x.generator.receiving = true → x.generator.phase ≠ .stopped →
    x.reports = x.received ++ x.generator.buffer.toList ++
      x.generator.phase.waits
  few : x.reports.length ≤ x.received.length + 2
  nonempty : ∀ batch, batch ∈ x.received ∨ x.generator.buffer = some batch ∨
    x.generator.phase = .sending batch → batch ≠ []
  /-- What the generator does at an instant, as it runs, are steps. -/
  runs : ∃ unions, Reaches x
    { x with generator := x.generator.settle x.now x.providers.metrics, unions }
  /-- While a batch waits for the channel no union is taken. -/
  held : ∀ batch y, x.generator.phase = .sending batch → Step x y →
    y.unions = x.unions
  /-- After a shutdown that is seen before a tick is due no union is taken. -/
  quiet : x.cancelled = true → x.now < x.generator.due →
    ∀ y, Relation.ReflTransGen Prompt x y → y.unions = x.unions
  /-- Without a receiver there is one report more at most, with which
  the generator stops. -/
  leaves : x.generator.receiving = false → ∀ y, Reaches x y →
    y.reports.length ≤ x.reports.length + 1 ∧
      (x.generator.phase ≠ .waiting ∨ x.reports.length < y.reports.length →
        y.generator.phase ≠ .waiting ∧ y.generator.offer.phase = .stopped)
  /-- When the generator has stopped, the batch in the channel is the
  last to be received. -/
  closes : x.generator.phase = .stopped → ∀ y, Reaches x y →
    y.unions = x.unions ∧
    (y.generator.receiving = true →
      y.received ++ y.generator.buffer.toList = x.received ++
        x.generator.buffer.toList) ∧
    ∀ unionAt later,
      (∀ batch, y.generator.buffer = some batch →
        y.generator.await unionAt y.now later =
        (.batch batch, y.now, { y.generator with buffer := none })) ∧
      (y.generator.buffer = none →
        y.generator.await unionAt y.now later = (.closed, y.now, y.generator))

theorem orderly_of_reaches {providers : Providers} {interval now : Nat}
    (h : Reaches (start providers interval now) x) : Orderly x := by
  have hsound := sound_of_reaches h
  refine
    { order := (List.prefix_append ..).trans hsound.order
      whole := hsound.whole
      few := hsound.few
      nonempty := fun _ => hsound.nonempty
      runs := reaches_settle x
      held := fun _ _ => unions_of_sending
      quiet := fun hcancelled hdue _ => unions_of_quiet ⟨hcancelled, .inr hdue⟩
      leaves := fun hgone y hreaches => ?_
      closes := fun hphase y hreaches => ?_ }
  · have hleaving := (hsound.leaving hgone).reaches hreaches
    refine ⟨hleaving.few, fun hlast => ?_⟩
    have hphase : y.generator.phase ≠ .waiting := by
      intro hwaiting
      -- A generator that still waits for a tick could take a report beyond the
      -- last one.
      rcases hlast with hphase | hmore
      · have hless :=
          ((hsound.leaving_of_not_waiting hgone hphase).reaches hreaches).fewer
            hwaiting
        exact Nat.not_lt.mpr (reports_length_le hreaches) hless
      · exact Nat.not_lt.mpr hmore (hleaving.fewer hwaiting)
    exact ⟨hphase, hleaving.offer hphase⟩
  · have hended := ended_of_stopped hphase hreaches
    refine ⟨hended.unions, hended.received, fun unionAt later =>
      ⟨fun batch hbuffer => ?_, ?_⟩⟩
    · exact Generator.await_of_buffered hbuffer unionAt y.now later
    · exact fun hbuffer =>
        Generator.await_of_stopped hended.stopped hbuffer unionAt y.now later

def counting : Providers :=
  .new 1
    [⟨"count", fun polls =>
      .ok (.ofLists [] [("PollCount", Int64.ofNat (polls + 1))])⟩]

/-- A generator that was shut down after two reports, of which the first
was received late. -/
def stalled : Exchange where
  providers := ((counting.poll 0).2.poll 0).2
  generator := ⟨5, 15, .stopped, some [.counter "PollCount" 2], true⟩
  now := 10
  cancelled := true
  unions := [[.counter "PollCount" 1], [.counter "PollCount" 2]]
  received := [[.counter "PollCount" 1]]

theorem reaches_stalled : Reaches (start counting 5 0) stalled := by
  have h : Reaches (start counting 5 0) (start counting 5 0) := .refl
  have h := h.tail (.poll 0)
  have h := h.tail (.pass 5 (by decide))
  have h := h.tail (.tick _ _ rfl (by decide) (Providers.reads_metrics _))
  have h := h.tail (.send _ rfl)
  have h := h.tail (.poll 0)
  have h := h.tail (.pass 10 (by decide))
  have h := h.tail (.tick _ _ rfl (by decide) (Providers.reads_metrics _))
  have h := h.tail (.receive rfl)
  have h := h.tail (.send _ rfl)
  have h := h.tail .shutDown
  have h := h.tail (.notice rfl)
  exact h

theorem orderly_stalled :
    Reaches (start counting 5 0) stalled ∧ Orderly stalled :=
  ⟨reaches_stalled, orderly_of_reaches reaches_stalled⟩

end Exchange

end Telemetry
