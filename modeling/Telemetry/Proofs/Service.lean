import Telemetry.Service
import Telemetry.Store.Memory
import Telemetry.Proofs.Result
import Mathlib.Data.List.Basic

/-!
# What a request does to a store in memory

A request that breaks a rule is answered with its rejection and leaves the store
alone.  Every other request is stored, and although a batch is stored as its
gauges followed by its counters, the samples are those of its metrics stored one
after the other.
-/

namespace Telemetry

namespace Metric

variable {rules : List Rule} {m : Metric}

theorem verify_eq_ok_iff :
    m.verify rules = .ok () ↔ m.violations rules = [] := by
  unfold verify
  split
  · next hnil => simp [hnil]
  · next hbroken => exact iff_of_false (fun h => nomatch h) hbroken

theorem verify_eq_error (h : m.violations rules ≠ []) :
    m.verify rules = .error ⟨[.broken none m.id (m.violations rules)]⟩ := by
  unfold verify
  split
  · next hnil => exact absurd hnil h
  · rfl

end Metric

namespace Service

theorem ask_of_ok {σ α : Type} {op : StoreM σ α} {s s' : σ} {a : α}
    (h : op s = (.ok a, s')) :
    ask op s = (.ok a, s') := by
  rw [ask, h]
  rfl

/-! ## Metrics that break no rule -/

/-- The metric breaks no rule for metrics that are stored. -/
def Storable (m : Metric) : Prop := m.violations updateRules = []

instance (m : Metric) : Decidable (Storable m) :=
  inferInstanceAs (Decidable (m.violations updateRules = []))

/-- What a metric that breaks no rule writes; a gauge that is
written is finite. -/
theorem Storable.exists_write {m : Metric} (h : Storable m) :
    (∃ v, m.value = some v ∧ v.isFinite = true ∧
      write? m = some (.gauge m.id v)) ∨
      ∃ d, m.delta = some d ∧ write? m = some (.counter m.id d) := by
  obtain ⟨id, kind, delta, value⟩ := m
  simp only [Storable, Metric.violations, updateRules,
    List.filterMap_eq_nil_iff, List.mem_cons, List.not_mem_nil, or_false,
    forall_eq_or_imp, forall_eq] at h
  obtain ⟨-, hkind, hdelta, hvalue⟩ := h
  cases kind with
  | gauge =>
      refine Or.inl ?_
      cases value with
      | none => simp [Rule.violation?] at hvalue
      | some v => exact ⟨v, rfl, by simpa [Rule.violation?] using hvalue, rfl⟩
  | counter =>
      refine Or.inr ?_
      cases delta with
      | none => simp [Rule.violation?] at hdelta
      | some d => exact ⟨d, rfl, rfl⟩
  | unknown => simp [Rule.violation?] at hkind

theorem failuresFrom_eq_nil_iff {batch : Batch} {start : Nat} :
    Batch.failuresFrom updateRules start batch = [] ↔
      ∀ m ∈ batch, Storable m := by
  induction batch generalizing start with
  | nil => simp [Batch.failuresFrom]
  | cons m rest ih =>
      unfold Batch.failuresFrom
      split
      · next hm => simp [ih, Storable, hm]
      · next hm =>
          have hbroken : ¬ Storable m := hm
          exact iff_of_false (List.cons_ne_nil _ _) fun h =>
            hbroken (h m List.mem_cons_self)

theorem verify_eq_ok {batch : Batch} (h : ∀ m ∈ batch, Storable m) :
    Batch.verify updateRules batch = .ok () := by
  simp [Batch.verify, failuresFrom_eq_nil_iff.mpr h]

theorem verify_eq_error {batch : Batch} (h : ¬ ∀ m ∈ batch, Storable m) :
    Batch.verify updateRules batch =
      .error ⟨Batch.failuresFrom updateRules 0 batch⟩ := by
  unfold Batch.verify
  split
  · next hnil => exact absurd (failuresFrom_eq_nil_iff.mp hnil) h
  · rfl

theorem writes_eq_ok {batch : Batch} (h : ∀ m ∈ batch, Storable m) :
    writes batch = .ok (batch.filterMap write?) := by
  unfold writes
  induction batch with
  | nil => rfl
  | cons m rest ih =>
      have hrest := ih fun m hm => h m (List.mem_cons_of_mem _ hm)
      rcases (h m List.mem_cons_self).exists_write
        with ⟨v, -, -, hw⟩ | ⟨d, -, hw⟩
      · simp [hrest, hw, bind, Except.bind, pure, Except.pure]
      · simp [hrest, hw, bind, Except.bind, pure, Except.pure]

/-! ## Requests that are rejected -/

theorem updateBatch_of_not_storable {σ : Type} [SampleStore σ] {batch : Batch}
    (h : ¬ ∀ m ∈ batch, Storable m) (s : σ) :
    updateBatch batch s =
      (.error (.rejected ⟨Batch.failuresFrom updateRules 0 batch⟩), s) := by
  unfold updateBatch
  rw [verify_eq_error h]
  rfl

theorem update_of_not_storable {σ : Type} [SampleStore σ] {m : Metric}
    (h : ¬ Storable m) (s : σ) :
    update m s =
      (.error (.rejected ⟨[.broken none m.id (m.violations updateRules)]⟩),
        s) := by
  unfold update
  rw [Metric.verify_eq_error h]
  rfl

/-! ## What is written -/

def Write.apply (s : Samples) : Write → Samples
  | .gauge id value => s.setGauge id value
  | .counter id delta => s.addCounter id delta

theorem addCounters_setGauge (counters : List (String × Int64)) (s : Samples)
    (id : String) (value : Binary64) :
    (s.setGauge id value).addCounters counters =
      (s.addCounters counters).setGauge id value := by
  induction counters generalizing s with
  | nil => rfl
  | cons c counters ih => exact ih (s.addCounter c.1 c.2)

theorem addCounters_setGauges (gauges : List (String × Binary64))
    (counters : List (String × Int64)) (s : Samples) :
    (s.setGauges gauges).addCounters counters =
      (s.addCounters counters).setGauges gauges := by
  induction gauges generalizing s with
  | nil => rfl
  | cons g gauges ih =>
      refine (ih (s.setGauge g.1 g.2)).trans ?_
      rw [addCounters_setGauge]
      rfl

/-- Storing the gauges and then the counters is storing everything in order. -/
theorem foldl_apply_eq (ws : List Write) (s : Samples) :
    ws.foldl Write.apply s = (s.setGauges (gaugesOf ws)).addCounters
      (countersOf ws) := by
  induction ws generalizing s with
  | nil => rfl
  | cons w ws ih =>
      rw [List.foldl_cons, ih]
      cases w with
      | gauge id value => rfl
      | counter id delta =>
          change ((s.addCounter id delta).setGauges (gaugesOf ws)).addCounters
            (countersOf ws) =
            ((s.setGauges (gaugesOf ws)).addCounter id delta).addCounters
              (countersOf ws)
          have hswap := addCounters_setGauges (gaugesOf ws) [(id, delta)] s
          exact congrArg (Samples.addCounters · (countersOf ws)) hswap.symm

def record (s : Samples) (m : Metric) : Samples :=
  ((write? m).map (Write.apply s)).getD s

theorem foldl_record (batch : Batch) (s : Samples) :
    batch.foldl record s = (batch.filterMap write?).foldl Write.apply s := by
  rw [List.foldl_filterMap]
  refine congrFun (congrArg (fun f => List.foldl f s) (funext₂ fun s m => ?_))
    batch
  unfold record
  cases write? m <;> rfl

/-- The changes that a store in memory makes for what is written. -/
def changesOf (ws : List Write) : List (Samples → Samples) :=
  (if (gaugesOf ws).isEmpty then []
    else [fun s => s.setGauges (gaugesOf ws)]) ++
    (if (countersOf ws).isEmpty then []
      else [fun s => s.addCounters (countersOf ws)])

theorem foldl_changesOf (ws : List Write) (s : Samples) :
    (changesOf ws).foldl (fun s change => change s) s =
      ws.foldl Write.apply s := by
  rw [foldl_apply_eq]
  unfold changesOf
  cases gaugesOf ws <;> cases countersOf ws <;> rfl

end Service

namespace MemoryStore

/-- The store after changes, each of which is saved if every change is. -/
def writeAll (changes : List (Samples → Samples)) (m : MemoryStore) :
    MemoryStore :=
  changes.foldl (fun m change => (write change m).2) m

theorem samples_save (m : MemoryStore) : (save m).2.samples = m.samples := by
  unfold save replace
  cases hfile : m.file with
  | none => rfl
  | some file =>
      dsimp only
      cases hsave : file.save m.capture m.site.disk <;> rfl

theorem samples_write (change : Samples → Samples) (m : MemoryStore) :
    (write change m).2.samples = change m.samples := by
  unfold write
  dsimp only
  split
  · exact samples_save _
  · rfl

theorem exists_updateGauges (gauges : List (String × Binary64))
    (m : MemoryStore) :
    ∃ m', updateGauges gauges m = (.ok (), m') ∧
      m'.samples = m.samples.setGauges gauges := by
  cases gauges with
  | nil => exact ⟨m, rfl, rfl⟩
  | cons g rest =>
      exact ⟨(write (·.setGauges (g :: rest)) m).2, rfl, samples_write _ m⟩

theorem exists_updateCounters (counters : List (String × Int64))
    (m : MemoryStore) :
    ∃ m', updateCounters counters m = (.ok (), m') ∧
      m'.samples = m.samples.addCounters counters := by
  cases counters with
  | nil => exact ⟨m, rfl, rfl⟩
  | cons c rest =>
      exact ⟨(write (·.addCounters (c :: rest)) m).2, rfl, samples_write _ m⟩

theorem samples_writeAll (changes : List (Samples → Samples))
    (m : MemoryStore) :
    (m.writeAll changes).samples = changes.foldl
      (fun s change => change s) m.samples := by
  induction changes generalizing m with
  | nil => rfl
  | cons change changes ih =>
      have hrest := ih (write change m).2
      rw [samples_write] at hrest
      exact hrest

end MemoryStore

namespace Service

theorem store_eq (ws : List Write) (m : MemoryStore) :
    store ws m = (.ok (), m.writeAll (changesOf ws)) := by
  unfold store changesOf MemoryStore.writeAll
  dsimp only
  generalize gaugesOf ws = gauges
  generalize countersOf ws = counters
  cases gauges <;> cases counters <;> rfl

/-- A batch without a broken rule is stored. -/
theorem updateBatch_of_storable {batch : Batch} (h : ∀ m ∈ batch, Storable m)
    (m : MemoryStore) :
    updateBatch batch m =
      (.ok batch.length, m.writeAll (changesOf (batch.filterMap write?))) := by
  unfold updateBatch
  rw [verify_eq_ok h, writes_eq_ok h]
  have hrequire : require (.ok ()) m = (.ok (), m) := rfl
  rw [run_bind_of_eq_ok hrequire]
  exact run_bind_of_eq_ok (store_eq (batch.filterMap write?) m) _

/-- The samples of a stored batch are those of its metrics stored
one after the other. -/
theorem samples_updateBatch {batch : Batch} (h : ∀ m ∈ batch, Storable m)
    (m : MemoryStore) :
    ∃ m', updateBatch batch m = (.ok batch.length, m') ∧
      m'.samples = batch.foldl record m.samples := by
  refine ⟨_, updateBatch_of_storable h m, ?_⟩
  rw [MemoryStore.samples_writeAll, foldl_changesOf, foldl_record]

/-- A metric that breaks no rule is stored. -/
theorem update_of_storable {metric : Metric} (h : Storable metric)
    (m : MemoryStore) :
    ∃ w answer, write? metric = some w ∧
      update metric m = (.ok answer, m.writeAll [fun s => w.apply s]) := by
  unfold update
  rw [Metric.verify_eq_ok_iff.mpr h]
  rcases h.exists_write with ⟨v, -, -, hw⟩ | ⟨d, -, hw⟩
  · exact ⟨_, _, hw, by rw [hw]; rfl⟩
  · exact ⟨_, _, hw, by rw [hw]; rfl⟩

end Service

end Telemetry
