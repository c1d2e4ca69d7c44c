import Telemetry.Proofs.List
import Telemetry.Proofs.Service.Record

/-!
# Requests at the same time

A request that is accepted takes at most two steps that nothing interrupts: its
gauges are replaced, and then its counters are added to.  Steps of other
requests may come in between.  Only the order of the gauge steps can be seen in
the samples, because additions may come in any order, and a request replaces
gauges in one step; so the samples are those of the requests one after the other
in the order of their gauge steps.
-/

namespace Telemetry.Service

/-! ## Writes -/

theorem gaugesOf_flatMap {α : Type} (as : List α) (f : α → List Write) :
    gaugesOf (as.flatMap f) = as.flatMap fun a => gaugesOf (f a) :=
  List.filterMap_flatMap

theorem countersOf_flatMap {α : Type} (as : List α) (f : α → List Write) :
    countersOf (as.flatMap f) = as.flatMap fun a => countersOf (f a) :=
  List.filterMap_flatMap

theorem countersOf_perm {ws ws' : List Write} (h : ws.Perm ws') :
    (countersOf ws).Perm (countersOf ws') := h.filterMap _

/-- Writes leave the same samples if they replace gauges in the same order and
add the same to counters in any order. -/
theorem foldl_apply_congr {ws ws' : List Write}
    (hgauges : gaugesOf ws = gaugesOf ws')
    (hcounters : (countersOf ws).Perm (countersOf ws')) (s : Samples) :
    ws.foldl Write.apply s = ws'.foldl Write.apply s := by
  rw [foldl_apply_eq, foldl_apply_eq, hgauges]
  exact Samples.addCounters_perm hcounters _

/-- A step of a request that nothing interrupts. -/
inductive Step where
  | replaceGauges (gauges : List (String × Binary64))
  | addCounters (counters : List (String × Int64))

namespace Step

/-- The store after the step, which is taken under the lock for writing. -/
def perform (m : MemoryStore) : Step → MemoryStore
  | .replaceGauges gauges => (MemoryStore.updateGauges gauges m).2
  | .addCounters counters => (MemoryStore.updateCounters counters m).2

def writes : Step → List Write
  | .replaceGauges gauges => gauges.map fun g => .gauge g.1 g.2
  | .addCounters counters => counters.map fun c => .counter c.1 c.2

def isGauges : Step → Bool
  | .replaceGauges _ => true
  | .addCounters _ => false

theorem samples_perform (m : MemoryStore) (step : Step) :
    (step.perform m).samples = step.writes.foldl Write.apply m.samples := by
  cases step with
  | replaceGauges gauges =>
      rw [writes, List.foldl_map]
      cases gauges with
      | nil => rfl
      | cons g gauges => exact MemoryStore.samples_write _ m
  | addCounters counters =>
      rw [writes, List.foldl_map]
      cases counters with
      | nil => rfl
      | cons c counters => exact MemoryStore.samples_write _ m

@[simp] theorem gaugesOf_replaceGauges (gauges : List (String × Binary64)) :
    gaugesOf (replaceGauges gauges).writes = gauges := by
  simp [gaugesOf, writes, List.filterMap_map]

@[simp] theorem gaugesOf_addCounters (counters : List (String × Int64)) :
    gaugesOf (addCounters counters).writes = [] := by
  simp [gaugesOf, writes, List.filterMap_map]

@[simp] theorem countersOf_replaceGauges (gauges : List (String × Binary64)) :
    countersOf (replaceGauges gauges).writes = [] := by
  simp [countersOf, writes, List.filterMap_map]

@[simp] theorem countersOf_addCounters (counters : List (String × Int64)) :
    countersOf (addCounters counters).writes = counters := by
  simp [countersOf, writes, List.filterMap_map]

end Step

/-! ## Steps of a request -/

/-- A store that only notes down what it is asked to write. -/
structure Tape where
  steps : List Step

def Tape.note (step : Step) : StoreM Tape Unit :=
  modify fun tape => ⟨tape.steps ++ [step]⟩

instance : SampleStore Tape where
  updateGauge id value := do
    Tape.note (.replaceGauges [(id, value)])
    return value
  updateCounter id delta := do
    Tape.note (.addCounters [(id, delta)])
    return delta
  updateGauges gauges := Tape.note (.replaceGauges gauges)
  updateCounters counters := Tape.note (.addCounters counters)
  gauge id := throw (.notFound .gauge id)
  counter id := throw (.notFound .counter id)
  gauges := return []
  counters := return []
  ping := return

/-- The steps that write gauges and counters; an empty list takes none. -/
def stepsOf (ws : List Write) : List Step :=
  (if (gaugesOf ws).isEmpty then [] else [.replaceGauges (gaugesOf ws)]) ++
    (if (countersOf ws).isEmpty then [] else [.addCounters (countersOf ws)])

theorem writeAll_changesOf (ws : List Write) (m : MemoryStore) :
    m.writeAll (changesOf ws) = (stepsOf ws).foldl Step.perform m := by
  unfold changesOf stepsOf
  generalize gaugesOf ws = gauges
  generalize countersOf ws = counters
  cases gauges <;> cases counters <;> rfl

theorem store_tape (ws : List Write) :
    store ws (Tape.mk []) = (.ok (), ⟨stepsOf ws⟩) := by
  unfold store stepsOf
  dsimp only
  generalize gaugesOf ws = gauges
  generalize countersOf ws = counters
  cases gauges <;> cases counters <;> rfl

theorem update_tape {metric : Metric} (h : Storable metric) :
    (update metric (Tape.mk [])).2.steps = stepsOf (write? metric).toList := by
  unfold update
  rw [Metric.verify_eq_ok_iff.mpr h]
  rcases h.exists_write with ⟨v, -, -, hw⟩ | ⟨d, -, hw⟩
  · rw [hw]
    rfl
  · rw [hw]
    rfl

theorem updateBatch_tape {batch : Batch}
    (h : ∀ metric ∈ batch, Storable metric) :
    (updateBatch batch (Tape.mk [])).2.steps =
      stepsOf (batch.filterMap write?) := by
  have hrequire : require (.ok ()) (Tape.mk []) = (.ok (), Tape.mk []) := rfl
  unfold updateBatch
  rw [verify_eq_ok h, writes_eq_ok h, run_bind_of_eq_ok hrequire]
  change ((store (batch.filterMap write?) >>= fun _ => pure batch.length)
    (Tape.mk [])).2.steps = _
  rw [run_bind_of_eq_ok (store_tape _)]
  rfl

namespace Request

/-- The steps of a request: what it asks a store to write. -/
def steps : Request → List Step
  | .update metric => (Service.update metric (Tape.mk [])).2.steps
  | .updateBatch batch => (Service.updateBatch batch (Tape.mk [])).2.steps

def writes (r : Request) : List Write :=
  if ∀ metric ∈ r.metrics, Storable metric then r.metrics.filterMap write?
    else []

/-- Whether a step of the request replaces gauges. -/
def takesGauges (r : Request) : Bool := r.steps.any Step.isGauges

theorem metrics_update_writes (metric : Metric) :
    (update metric).metrics.filterMap write? = (write? metric).toList := by
  simp only [metrics, List.filterMap_cons, List.filterMap_nil]
  cases write? metric <;> rfl

theorem steps_eq (r : Request) : r.steps = stepsOf r.writes := by
  by_cases h : ∀ metric ∈ r.metrics, Storable metric
  · rw [writes, if_pos h]
    cases r with
    | update metric =>
        rw [metrics_update_writes]
        exact update_tape (h metric List.mem_cons_self)
    | updateBatch batch => exact updateBatch_tape h
  · rw [writes, if_neg h]
    cases r with
    | update metric =>
        have hmetric : ¬ Storable metric :=
          fun hm => h (by simpa [metrics] using hm)
        rw [steps, update_of_not_storable hmetric]
        rfl
    | updateBatch batch =>
        have hbatch : ¬ ∀ metric ∈ batch, Storable metric := h
        rw [steps, updateBatch_of_not_storable hbatch]
        rfl

/-- A request by itself takes its steps. -/
theorem perform_eq_steps (r : Request) (m : MemoryStore) :
    (r.perform m).2 = r.steps.foldl Step.perform m := by
  rw [perform_eq, steps_eq]
  unfold writes changes
  split
  · cases r with
    | updateBatch batch => exact writeAll_changesOf _ m
    | update metric =>
        rw [metrics_update_writes]
        change m.writeAll ((write? metric).toList.map fun w => w.apply) = _
        cases write? metric with
        | none => rfl
        | some w => cases w <;> rfl
  · rfl

theorem apply_eq_writes (s : Samples) (r : Request) :
    Request.apply s r = r.writes.foldl Write.apply s := by
  rw [apply_eq, writes]
  split
  · exact foldl_record _ s
  · rfl

theorem countersOf_steps (r : Request) :
    r.steps.flatMap (fun step => countersOf step.writes) =
      countersOf r.writes := by
  rw [steps_eq]
  unfold stepsOf
  generalize gaugesOf r.writes = gauges
  generalize countersOf r.writes = counters
  cases gauges <;> cases counters <;> simp

/-- A request replaces gauges in at most one step, and this step
replaces all of them. -/
theorem filter_isGauges_steps (r : Request) :
    r.steps.filter Step.isGauges =
      if r.takesGauges then [.replaceGauges (gaugesOf r.writes)] else [] := by
  rw [takesGauges, steps_eq]
  unfold stepsOf
  generalize gaugesOf r.writes = gauges
  generalize countersOf r.writes = counters
  cases gauges <;> cases counters <;> rfl

theorem gaugesOf_writes_of_not_takesGauges {r : Request}
    (h : r.takesGauges = false) :
    gaugesOf r.writes = [] := by
  rw [takesGauges, steps_eq] at h
  unfold stepsOf at h
  generalize gaugesOf r.writes = gauges at h ⊢
  cases gauges with
  | nil => rfl
  | cons g gauges => simp [Step.isGauges] at h

end Request

/-! ## Requests on their way -/

/-- A request on its way, with the steps that it has still to take. -/
structure Visit where
  request : Request
  left : List Step

/-- Requests on their way to a store, with the steps that were taken so far, in
their order, and the requests that took them. -/
structure Traffic where
  store : MemoryStore
  visits : List Visit
  taken : List (Request × Step)

def Visit.pending (v : Visit) : List (Request × Step) :=
  v.left.map (Prod.mk v.request)

def Request.moves (r : Request) : List (Request × Step) :=
  r.steps.map (Prod.mk r)

namespace Traffic

def start (store : MemoryStore) (requests : List Request) : Traffic :=
  ⟨store, requests.map fun r => ⟨r, r.steps⟩, []⟩

/-- The next step of a request, by its place; one that has
returned takes none. -/
def step (t : Traffic) (i : Nat) : Traffic :=
  match t.visits[i]? with
  | some ⟨request, next :: left⟩ =>
    ⟨next.perform t.store, t.visits.set i ⟨request, left⟩,
      t.taken ++ [(request, next)]⟩
  | _ => t

def run (t : Traffic) (schedule : List Nat) : Traffic := schedule.foldl step t

def isOver (t : Traffic) : Bool := t.visits.all (·.left.isEmpty)

/-- The requests that have replaced gauges, in the order in which they did. -/
def gaugeOrder (t : Traffic) : List Request :=
  (t.taken.filter fun move => move.2.isGauges).map (·.1)

/-- Without others at the same time the steps of a request are the request. -/
theorem run_alone (m : MemoryStore) (r : Request) :
    ((start m [r]).run (List.replicate r.steps.length 0)).store =
      (r.perform m).2 := by
  have hrun (steps : List Step) (m : MemoryStore)
    (taken : List (Request × Step)) :
      ((Traffic.mk m [⟨r, steps⟩] taken).run
        (List.replicate steps.length 0)).store =
        steps.foldl Step.perform m := by
    induction steps generalizing m taken with
    | nil => rfl
    | cons step steps ih => exact ih (step.perform m) (taken ++ [(r, step)])
  rw [r.perform_eq_steps]
  exact hrun r.steps m []

/-- What is true at any time: the samples are those that the steps taken so far
leave, and each step of each request is either taken or still to come. -/
structure Sound (m : MemoryStore) (requests : List Request)
    (t : Traffic) : Prop where
  samples : t.store.samples =
    (t.taken.flatMap fun move => move.2.writes).foldl Write.apply m.samples
  once : (t.taken ++ t.visits.flatMap Visit.pending).Perm
    (requests.flatMap Request.moves)

variable {m : MemoryStore} {requests : List Request} {t : Traffic}

theorem sound_start (m : MemoryStore) (requests : List Request) :
    Sound m requests (start m requests) where
  samples := rfl
  once := by
    rw [start, List.flatMap_map, List.nil_append]
    exact List.Perm.refl _

/-- Every step of every request keeps the traffic sound. -/
theorem Sound.step (h : Sound m requests t) (i : Nat) :
    Sound m requests (t.step i) := by
  unfold Traffic.step
  split
  · next request next left hvisit =>
      refine ⟨?_, ?_⟩
      · change (next.perform t.store).samples = _
        rw [Step.samples_perform, h.samples, List.flatMap_append,
          List.foldl_append]
        simp
      · -- the step that is taken was the first of those to come at its place
        have hpending : (Visit.mk request (next :: left)).pending =
            (request, next) :: (Visit.mk request left).pending := rfl
        refine List.Perm.trans ?_ h.once
        rw [List.append_assoc]
        exact (flatMap_set_perm hvisit hpending).append_left t.taken
  · exact h

theorem Sound.run (h : Sound m requests t) (schedule : List Nat) :
    Sound m requests (t.run schedule) := by
  induction schedule generalizing t with
  | nil => exact h
  | cons i schedule ih => exact ih (h.step i)

theorem Sound.taken_perm (h : Sound m requests t) (hover : t.isOver = true) :
    t.taken.Perm (requests.flatMap Request.moves) := by
  have hpending : t.visits.flatMap Visit.pending = [] := by
    rw [List.flatMap_eq_nil_iff]
    intro visit hvisit
    have hleft : visit.left = [] := by
      simpa using List.all_eq_true.mp hover visit hvisit
    rw [Visit.pending, hleft, List.map_nil]
  have honce := h.once
  rwa [hpending, List.append_nil] at honce

end Traffic

/-! ## One request after the other -/

/-- A store after requests, one after the other. -/
def performAll (requests : List Request) (m : MemoryStore) : MemoryStore :=
  requests.foldl (fun m r => (r.perform m).2) m

theorem samples_performAll (requests : List Request) (m : MemoryStore) :
    (performAll requests m).samples =
      (requests.flatMap Request.writes).foldl Write.apply m.samples := by
  induction requests generalizing m with
  | nil => rfl
  | cons r requests ih =>
      have hrest := ih (r.perform m).2
      rw [Request.samples_perform, Request.apply_eq_writes] at hrest
      rw [List.flatMap_cons, List.foldl_append]
      exact hrest

/-- The metrics of the requests that are accepted. -/
def acceptedMetrics (requests : List Request) : Batch :=
  (requests.filter Request.isAccepted).flatMap Request.metrics

theorem flatMap_writes (requests : List Request) :
    requests.flatMap Request.writes =
      (acceptedMetrics requests).filterMap write? := by
  unfold acceptedMetrics
  induction requests with
  | nil => rfl
  | cons r requests ih =>
      rw [List.flatMap_cons, ih, Request.writes]
      by_cases haccepted : r.isAccepted = true
      · rw [if_pos (r.isAccepted_iff.mp haccepted),
          List.filter_cons_of_pos haccepted, List.flatMap_cons,
          List.filterMap_append]
      · rw [if_neg (r.isAccepted_iff.not.mp haccepted),
          List.filter_cons_of_neg haccepted, List.nil_append]

/-- A counter holds the sum of the increments of the requests
that are accepted. -/
theorem total_performAll (requests : List Request) (m : MemoryStore)
    (id : String) :
    (performAll requests m).samples.total id =
      sumFrom (m.samples.total id)
        (counterWrites id (acceptedMetrics requests)) := by
  rw [samples_performAll, flatMap_writes, ← foldl_record]
  exact total_foldl_record (acceptedMetrics requests) m.samples id

theorem counterWrites_acceptedMetrics_perm {requests requests' : List Request}
    (h : requests.Perm requests') (id : String) :
    (counterWrites id (acceptedMetrics requests)).Perm
      (counterWrites id (acceptedMetrics requests')) :=
  ((h.filter _).flatMap_right _).filterMap _

/-! ## The order of the gauge steps -/

namespace Traffic

variable {m : MemoryStore} {requests order : List Request} {t : Traffic}

/-- An order of the requests in which those that replace gauges come as they did
it; the others may come anywhere. -/
def Explains (t : Traffic) (requests order : List Request) : Prop :=
  order.Perm requests ∧ order.filter Request.takesGauges = t.gaugeOrder

theorem gaugesOf_of_mem_steps {r : Request} {step : Step} (h : step ∈ r.steps) :
    gaugesOf step.writes = if step.isGauges then gaugesOf r.writes else [] := by
  cases step with
  | addCounters counters => exact Step.gaugesOf_addCounters counters
  | replaceGauges gauges =>
      have hmem : Step.replaceGauges gauges ∈ r.steps.filter Step.isGauges :=
        List.mem_filter.mpr ⟨h, rfl⟩
      rw [r.filter_isGauges_steps] at hmem
      split at hmem
      · rw [List.mem_singleton.mp hmem]
        exact Step.gaugesOf_replaceGauges _
      · cases hmem

/-- A request replaces all its gauges in one step, so that the order of these
steps tells what is written to gauges. -/
theorem gaugesOf_flatMap_moves (taken : List (Request × Step))
    (h : ∀ move ∈ taken, move.2 ∈ move.1.steps) :
    gaugesOf (taken.flatMap fun move => move.2.writes) =
      ((taken.filter fun move => move.2.isGauges).map (·.1)).flatMap fun r =>
        gaugesOf r.writes := by
  induction taken with
  | nil => rfl
  | cons move taken ih =>
      have hmove := gaugesOf_of_mem_steps (h move List.mem_cons_self)
      have hrest := ih fun move hmove => h move (List.mem_cons_of_mem _ hmove)
      rw [gaugesOf_flatMap] at hrest ⊢
      rw [List.flatMap_cons, hmove, hrest]
      by_cases hgauges : move.2.isGauges = true
      · simp [hgauges]
      · simp [hgauges]

/-- A request that takes no gauge step writes no gauge, wherever it comes. -/
theorem gaugesOf_flatMap_writes (order : List Request) :
    gaugesOf (order.flatMap Request.writes) =
      (order.filter Request.takesGauges).flatMap fun r =>
        gaugesOf r.writes := by
  rw [gaugesOf_flatMap]
  induction order with
  | nil => rfl
  | cons r order ih =>
      rw [List.flatMap_cons, ih]
      by_cases hgauges : r.takesGauges = true
      · rw [List.filter_cons_of_pos hgauges, List.flatMap_cons]
      · rw [List.filter_cons_of_neg hgauges,
          Request.gaugesOf_writes_of_not_takesGauges
          (eq_false_of_ne_true hgauges), List.nil_append]

theorem gaugeOrder_moves (requests : List Request) :
    ((requests.flatMap Request.moves).filter fun move => move.2.isGauges).map
      (·.1) = requests.filter Request.takesGauges := by
  induction requests with
  | nil => rfl
  | cons r requests ih =>
      have hmoves : (r.moves.filter fun move => move.2.isGauges) =
          (r.steps.filter Step.isGauges).map (Prod.mk r) := by
        rw [Request.moves, List.filter_map]
        rfl
      rw [List.flatMap_cons, List.filter_append, List.map_append, ih, hmoves,
        r.filter_isGauges_steps]
      by_cases hgauges : r.takesGauges = true
      · simp [hgauges]
      · simp [hgauges]

theorem Sound.gaugeOrder_perm (h : Sound m requests t)
    (hover : t.isOver = true) :
    t.gaugeOrder.Perm (requests.filter Request.takesGauges) := by
  rw [← gaugeOrder_moves]
  exact ((h.taken_perm hover).filter _).map _

theorem Sound.exists_explains (h : Sound m requests t)
    (hover : t.isOver = true) :
    ∃ order, t.Explains requests order := by
  have hgauges := h.gaugeOrder_perm hover
  have htakes : ∀ r ∈ t.gaugeOrder, r.takesGauges = true := fun r hr =>
    (List.mem_filter.mp (hgauges.mem_iff.mp hr)).2
  -- requests without a gauge step may as well come last
  refine ⟨t.gaugeOrder ++ requests.filter fun r => !r.takesGauges, ?_, ?_⟩
  · exact (hgauges.append_right _).trans (List.filter_append_perm _ requests)
  · rw [List.filter_append, List.filter_eq_self.mpr htakes, List.filter_filter]
    simp

/-- The counters of all steps are those of all requests. -/
theorem countersOf_flatMap_moves (requests : List Request) :
    countersOf ((requests.flatMap Request.moves).flatMap fun move =>
      move.2.writes) = requests.flatMap fun r => countersOf r.writes := by
  rw [countersOf_flatMap, List.flatMap_assoc]
  apply List.flatMap_congr
  intro r _
  rw [Request.moves, List.flatMap_map]
  exact r.countersOf_steps

theorem Sound.countersOf_taken (h : Sound m requests t)
    (hover : t.isOver = true) (horder : order.Perm requests) :
    (countersOf (t.taken.flatMap fun move => move.2.writes)).Perm
      (countersOf (order.flatMap Request.writes)) := by
  have htaken := countersOf_perm ((h.taken_perm hover).flatMap_right fun move =>
    move.2.writes)
  have hserial := (horder.flatMap_right fun r => countersOf r.writes).symm
  rw [countersOf_flatMap_moves] at htaken
  rw [countersOf_flatMap order]
  exact htaken.trans hserial

theorem Sound.samples_performAll (h : Sound m requests t)
    (hover : t.isOver = true) (horder : t.Explains requests order) :
    t.store.samples = (performAll order m).samples := by
  have hsteps : ∀ move ∈ t.taken, move.2 ∈ move.1.steps := by
    intro move hmove
    have hmem := (h.taken_perm hover).mem_iff.mp hmove
    obtain ⟨r, -, hmoves⟩ := List.mem_flatMap.mp hmem
    obtain ⟨step, hstep, rfl⟩ := List.mem_map.mp hmoves
    exact hstep
  have hgauges : gaugesOf (t.taken.flatMap fun move => move.2.writes) =
      gaugesOf (order.flatMap Request.writes) := by
    rw [gaugesOf_flatMap_moves t.taken hsteps, gaugesOf_flatMap_writes,
      horder.2]
    rfl
  have hcounters := h.countersOf_taken hover horder.1
  rw [h.samples, Service.samples_performAll]
  exact foldl_apply_congr hgauges hcounters m.samples

/-- What requests at the same time leave. -/
structure Serialised (m : MemoryStore) (requests : List Request)
    (t : Traffic) : Prop where
  exists_order : ∃ order, t.Explains requests order
  /-- The samples are those of the requests one after the other. -/
  samples : ∀ order, t.Explains requests order →
    t.store.samples = (performAll order m).samples
  /-- Every increment of every request that is accepted counts once. -/
  total : ∀ id, t.store.samples.total id =
    sumFrom (m.samples.total id) (counterWrites id (acceptedMetrics requests))

/-- Requests at the same time, of which all have returned, leave what they would
leave one after the other in the order of their gauge steps. -/
theorem serialised_run (m : MemoryStore) (requests : List Request)
    (schedule : List Nat)
    (hover : ((start m requests).run schedule).isOver = true) :
    Serialised m requests ((start m requests).run schedule) where
  exists_order := ((sound_start m requests).run schedule).exists_explains hover
  samples := by
    intro order horder
    exact ((sound_start m requests).run schedule).samples_performAll
      hover horder
  total := by
    intro id
    have hsound := (sound_start m requests).run schedule
    obtain ⟨order, horder⟩ := hsound.exists_explains hover
    rw [hsound.samples_performAll hover horder, total_performAll]
    exact sumFrom_perm (counterWrites_acceptedMetrics_perm horder.1 id) _

/-- Two batches for the same gauge and counter, a metric that is refused and one
that makes the counter wrap around: the second batch is first to replace the
gauge and last to add to the counter. -/
theorem serialised_run_batches :
    let first : Request :=
      .updateBatch [.counter "PollCount" 2, .gauge "Alloc" ⟨0x3FF8000000000000⟩]
    let second : Request :=
      .updateBatch [.gauge "Alloc" ⟨0x4004000000000000⟩, .counter "PollCount" 3]
    let refused : Request := .update (.gauge "Alloc" .nan)
    let single : Request := .update (.counter "PollCount" Int64.maxValue)
    let requests := [first, second, refused, single]
    let t := (start (.ephemeral .empty) requests).run [1, 0, 2, 0, 3, 1]
    t.isOver = true ∧
      t.store.samples =
        (performAll [second, first, refused, single]
          (.ephemeral .empty)).samples ∧
      t.store.samples.gauges.find? "Alloc" = some ⟨0x3FF8000000000000⟩ ∧
      t.store.samples.total "PollCount" = Int64.minValue + 4 := by
  intro first second refused single requests t
  have hover : t.isOver = true := by decide +kernel
  have hserialised : Serialised (.ephemeral .empty) requests t :=
    serialised_run _ _ _ hover
  have horder : t.Explains requests [second, first, refused, single] :=
    ⟨List.Perm.swap _ _ _, by rfl⟩
  refine ⟨hover, hserialised.samples _ horder, by decide +kernel, ?_⟩
  rw [hserialised.total]
  decide +kernel

end Traffic

end Telemetry.Service
