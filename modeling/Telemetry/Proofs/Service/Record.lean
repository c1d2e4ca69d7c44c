import Telemetry.Proofs.Samples
import Telemetry.Proofs.Store.Request

/-!
# What recorded metrics leave

A gauge holds the last value that metrics write to it, and a counter the sum of
the increments that they add to it.  A request records its metrics if none of
them breaks a rule, and none of them otherwise.
-/

namespace Telemetry.Service

def gaugeWrite? (id : String) (metric : Metric) : Option Binary64 :=
  if metric.kind = .gauge ∧ metric.id = id then metric.value else none

def counterWrite? (id : String) (metric : Metric) : Option Int64 :=
  if metric.kind = .counter ∧ metric.id = id then metric.delta else none

def gaugeWrites (id : String) (batch : Batch) : List Binary64 :=
  batch.filterMap (gaugeWrite? id)

def counterWrites (id : String) (batch : Batch) : List Int64 :=
  batch.filterMap (counterWrite? id)

/-- The sum of increments over a total; it wraps around at the
ends of the range. -/
def sumFrom (total : Int64) (deltas : List Int64) : Int64 :=
  deltas.foldl (· + ·) total

/-! ## One metric -/

theorem write?_eq_some_iff (metric : Metric) (w : Write) :
    write? metric = some w ↔
      match w with
      | .gauge id v =>
        metric.kind = .gauge ∧ metric.id = id ∧ metric.value = some v
      | .counter id d =>
        metric.kind = .counter ∧ metric.id = id ∧ metric.delta = some d := by
  obtain ⟨name, kind, delta, value⟩ := metric
  cases kind with
  | gauge => cases value <;> cases w <;> simp [write?]
  | counter => cases delta <;> cases w <;> simp [write?]
  | unknown => cases w <;> simp [write?]

theorem write?_eq_gauge_iff {metric : Metric} {id : String} {v : Binary64} :
    write? metric = some (.gauge id v) ↔
      metric.kind = .gauge ∧ metric.id = id ∧ metric.value = some v :=
  write?_eq_some_iff metric (.gauge id v)

theorem write?_eq_counter_iff {metric : Metric} {id : String} {d : Int64} :
    write? metric = some (.counter id d) ↔
      metric.kind = .counter ∧ metric.id = id ∧ metric.delta = some d :=
  write?_eq_some_iff metric (.counter id d)

theorem Storable.exists_value {metric : Metric} (h : Storable metric)
    (hkind : metric.kind = .gauge) :
    ∃ v, metric.value = some v ∧ v.isFinite = true := by
  rcases h.exists_write with ⟨v, hvalue, hfinite, -⟩ | ⟨d, -, hw⟩
  · exact ⟨v, hvalue, hfinite⟩
  · rw [(write?_eq_counter_iff.mp hw).1] at hkind
    cases hkind

theorem Storable.exists_delta {metric : Metric} (h : Storable metric)
    (hkind : metric.kind = .counter) : ∃ d, metric.delta = some d := by
  rcases h.exists_write with ⟨v, -, -, hw⟩ | ⟨d, hdelta, -⟩
  · rw [(write?_eq_gauge_iff.mp hw).1] at hkind
    cases hkind
  · exact ⟨d, hdelta⟩

theorem find?_gauges_record (s : Samples) (metric : Metric) (id : String) :
    (record s metric).gauges.find? id = (gaugeWrite? id metric).or
      (s.gauges.find? id) := by
  obtain ⟨name, kind, delta, value⟩ := metric
  cases kind with
  | gauge =>
      cases value with
      | none => simp [gaugeWrite?, record, write?]
      | some v =>
          have hstored : (record s ⟨name, .gauge, delta, some v⟩).gauges =
              s.gauges.insert name v := rfl
          rw [hstored, NameMap.find?_insert]
          by_cases hname : name = id
          · simp [gaugeWrite?, hname]
          · simp [gaugeWrite?, hname]
  | counter =>
      have hkept :
          (record s ⟨name, .counter, delta, value⟩).gauges = s.gauges := by
        cases delta <;> rfl
      simp [gaugeWrite?, hkept]
  | unknown => simp [gaugeWrite?, record, write?]

theorem find?_counters_record (s : Samples) (metric : Metric) (id : String) :
    (record s metric).counters.find? id =
      ((counterWrite? id metric).map (s.total id + ·)).or
        (s.counters.find? id) := by
  obtain ⟨name, kind, delta, value⟩ := metric
  cases kind with
  | gauge =>
      have hkept :
          (record s ⟨name, .gauge, delta, value⟩).counters = s.counters := by
        cases value <;> rfl
      simp [counterWrite?, hkept]
  | counter =>
      cases delta with
      | none => simp [counterWrite?, record, write?]
      | some d =>
          have hstored : record s ⟨name, .counter, some d, value⟩ =
              s.addCounter name d := rfl
          rw [hstored, Samples.find?_addCounter]
          by_cases hname : name = id
          · simp [counterWrite?, hname]
          · simp [counterWrite?, hname]
  | unknown => simp [counterWrite?, record, write?]

theorem total_record (s : Samples) (metric : Metric) (id : String) :
    (record s metric).total id = s.total id +
      (counterWrite? id metric).getD 0 := by
  unfold Samples.total
  rw [find?_counters_record]
  cases counterWrite? id metric with
  | none => simp
  | some d => rfl

/-! ## Metrics one after the other -/

/-- A gauge holds the last value that was written to it. -/
theorem find?_gauges_foldl_record (batch : Batch) (s : Samples) (id : String) :
    (batch.foldl record s).gauges.find? id =
      (gaugeWrites id batch).getLast?.or (s.gauges.find? id) := by
  induction batch generalizing s with
  | nil => rfl
  | cons metric rest ih =>
      rw [List.foldl_cons, ih, find?_gauges_record, ← Option.or_assoc]
      cases hwrite : gaugeWrite? id metric with
      | none => simp [gaugeWrites, hwrite]
      | some v => simp [gaugeWrites, hwrite, List.getLast?_cons]

theorem total_foldl_record (batch : Batch) (s : Samples) (id : String) :
    (batch.foldl record s).total id = sumFrom (s.total id)
      (counterWrites id batch) := by
  induction batch generalizing s with
  | nil => rfl
  | cons metric rest ih =>
      rw [List.foldl_cons, ih, total_record]
      cases hwrite : counterWrite? id metric with
      | none => simp [counterWrites, hwrite]
      | some d => simp [counterWrites, hwrite, sumFrom]

/-- A counter that something was added to holds the sum of the increments. -/
theorem find?_counters_foldl_record (batch : Batch) (s : Samples)
    (id : String) :
    (batch.foldl record s).counters.find? id =
      if counterWrites id batch = [] then s.counters.find? id
      else some (sumFrom (s.total id) (counterWrites id batch)) := by
  induction batch generalizing s with
  | nil => rfl
  | cons metric rest ih =>
      rw [List.foldl_cons, ih, find?_counters_record, total_record]
      cases hwrite : counterWrite? id metric with
      | none => simp [counterWrites, hwrite]
      | some d =>
          have hcons : counterWrites id (metric :: rest) =
              d :: counterWrites id rest := by
            simp [counterWrites, hwrite]
          rw [hcons, if_neg (List.cons_ne_nil _ _)]
          by_cases hrest : counterWrites id rest = []
          · simp [hrest, sumFrom]
          · simp [hrest, sumFrom]

/-- Increments may be summed in any order. -/
theorem sumFrom_perm {deltas deltas' : List Int64} (h : deltas.Perm deltas')
    (total : Int64) :
    sumFrom total deltas = sumFrom total deltas' := by
  apply h.foldl_eq'
  intro d _ e _ total
  rw [Int64.add_assoc, Int64.add_comm d e, ← Int64.add_assoc]

/-! ## Requests -/

/-- What a request does to samples: its metrics are recorded,
or none of them is. -/
theorem Request.apply_eq (s : Samples) (r : Request) :
    Request.apply s r = if ∀ metric ∈ r.metrics, Storable metric then
      r.metrics.foldl record s
      else s := by
  unfold Request.apply Request.changes
  split
  · next hstorable =>
      cases r with
      | update metric =>
          change ((write? metric).toList.map fun w s => w.apply s).foldl _ s =
            record s metric
          unfold record
          cases write? metric <;> rfl
      | updateBatch batch =>
          change _ = batch.foldl record s
          rw [foldl_changesOf, foldl_record]
  · rfl

end Telemetry.Service
