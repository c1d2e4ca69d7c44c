import Telemetry.Proofs.Service.Record
import Telemetry.Proofs.Text

/-!
# What a store remembers

Whatever was asked of a store in memory that held nothing at first, its samples
are those of the metrics that were accepted, in their order.  So a gauge reads
as the last value that was accepted for it, a counter as the sum of its accepted
increments, and nothing else is found.
-/

namespace Telemetry

namespace MemoryStore

theorem gauge_eq (name : String) (m : MemoryStore) :
    gauge name m =
      (match m.samples.gauges.find? name with
        | some value => .ok value
        | none => .error (.notFound .gauge name), m) := by
  change ((match m.samples.gauges.find? name with
    | some value => return value
    | none =>
      throw (.notFound .gauge name) : StoreM MemoryStore Binary64) m) = _
  cases m.samples.gauges.find? name <;> rfl

theorem counter_eq (name : String) (m : MemoryStore) :
    counter name m =
      (match m.samples.counters.find? name with
        | some total => .ok total
        | none => .error (.notFound .counter name), m) := by
  change ((match m.samples.counters.find? name with
    | some total => return total
    | none => throw (.notFound .counter name) : StoreM MemoryStore Int64) m) = _
  cases m.samples.counters.find? name <;> rfl

end MemoryStore

namespace Service

/-! ## Reading -/

theorem run_ask {σ α β : Type} (op : StoreM σ α) (f : α → β) (s : σ) :
    (do return f (← ask op) : ServiceM σ β) s =
      (((op s).1.mapError ServiceError.ofStorage).map f, (op s).2) := by
  cases hop : op s with
  | mk result s' =>
      have hask : ask op s = (result.mapError ServiceError.ofStorage, s') := by
        unfold ask
        rw [hop]
      cases result with
      | ok a => exact run_bind_of_eq_ok hask _
      | error e => exact run_bind_of_eq_error hask _

theorem read_of_verified {α : Type} {key : Metric} {m : MemoryStore}
    (hkey : key.verify readRules = .ok ()) (answer : α → Metric)
    {op : StoreM MemoryStore α} {result : Except StorageError α}
    (hop : op m = (result, m))
    (hread : (read key : ServiceM MemoryStore Metric) =
      (do
        require (key.verify readRules)
        return answer (← ask op))) :
    read key m =
      ((result.mapError ServiceError.ofStorage).map answer, m) := by
  have hrequire : require (.ok ()) m = (.ok (), m) := rfl
  rw [hread, hkey, run_bind_of_eq_ok hrequire, run_ask, hop]

theorem read_gauge {key : Metric} (hkey : key.verify readRules = .ok ())
    (hkind : key.kind = .gauge) (m : MemoryStore) :
    read key m =
      (match m.samples.gauges.find? key.id with
        | some value => .ok (.gauge key.id value)
        | none => .error (.notFound .gauge key.id), m) := by
  refine (read_of_verified hkey (.gauge key.id)
    (MemoryStore.gauge_eq key.id m) ?_).trans ?_
  · unfold read
    rw [hkind]
    rfl
  · cases m.samples.gauges.find? key.id <;> rfl

theorem read_counter {key : Metric} (hkey : key.verify readRules = .ok ())
    (hkind : key.kind = .counter) (m : MemoryStore) :
    read key m =
      (match m.samples.counters.find? key.id with
        | some total => .ok (.counter key.id total)
        | none => .error (.notFound .counter key.id), m) := by
  refine (read_of_verified hkey (.counter key.id)
    (MemoryStore.counter_eq key.id m) ?_).trans ?_
  · unfold read
    rw [hkind]
    rfl
  · cases m.samples.counters.find? key.id <;> rfl

theorem read_of_rejected {key : Metric} {rejection : Rejection}
    (h : key.verify readRules = .error rejection) (m : MemoryStore) :
    read key m = (.error (.rejected rejection), m) := by
  unfold read
  rw [h]
  rfl

/-- A key can be read if its id holds more than blanks and its kind is known. -/
theorem verify_readRules_iff {key : Metric} :
    key.verify readRules = .ok () ↔
      Text.trim key.id ≠ "" ∧ key.kind ≠ .unknown := by
  rw [Metric.verify_eq_ok_iff, Ne, Text.trim_eq_empty_iff]
  simp [Metric.violations, readRules, Rule.violation?]

theorem Storable.named {metric : Metric} (h : Storable metric) :
    Text.trim metric.id ≠ "" ∧ metric.kind ≠ .unknown := by
  rw [Ne, Text.trim_eq_empty_iff]
  simp only [Storable, Metric.violations, updateRules,
    List.filterMap_eq_nil_iff, List.mem_cons, List.not_mem_nil, or_false,
    forall_eq_or_imp, forall_eq] at h
  obtain ⟨hid, hkind, -, -⟩ := h
  constructor
  · intro hblank
    simp [Rule.violation?, hblank] at hid
  · intro hunknown
    simp [Rule.violation?, hunknown] at hkind

/-- Reading leaves a store alone. -/
theorem read_snd (key : Metric) (m : MemoryStore) : (read key m).2 = m := by
  cases hkey : key.verify readRules with
  | error rejection => rw [read_of_rejected hkey]
  | ok _ =>
      cases hkind : key.kind with
      | gauge => rw [read_gauge hkey hkind]
      | counter => rw [read_counter hkey hkind]
      | unknown => exact absurd hkind (verify_readRules_iff.mp hkey).2

/-! ## Reading what was just stored -/

theorem update_gauge {metric : Metric} (h : Storable metric) {id : String}
    {v : Binary64} (hw : write? metric = some (.gauge id v)) (m : MemoryStore) :
    update metric m =
      (.ok (.gauge id v), (MemoryStore.write (·.setGauge id v) m).2) := by
  unfold update
  rw [Metric.verify_eq_ok_iff.mpr h, hw]
  rfl

theorem update_counter {metric : Metric} (h : Storable metric) {id : String}
    {d : Int64} (hw : write? metric = some (.counter id d)) (m : MemoryStore) :
    update metric m =
      (.ok (.counter id ((m.samples.addCounter id d).total id)),
        (MemoryStore.write (·.addCounter id d) m).2) := by
  rw [← MemoryStore.samples_write (·.addCounter id d) m]
  unfold update
  rw [Metric.verify_eq_ok_iff.mpr h, hw]
  rfl

/-- A metric that is stored is answered with what a read of it
finds right after. -/
theorem read_of_update {metric answer key : Metric} {m m' : MemoryStore}
    (h : update metric m = (.ok answer, m')) (hkind : key.kind = metric.kind)
    (hid : key.id = metric.id) : read key m' = (.ok answer, m') := by
  have hstorable : Storable metric := by
    by_contra hbroken
    rw [update_of_not_storable hbroken] at h
    cases h
  have hkey : key.verify readRules = .ok () := by
    rw [verify_readRules_iff, hid, hkind]
    exact hstorable.named
  cases hmetric : metric.kind with
  | gauge =>
      obtain ⟨v, hvalue, -⟩ := hstorable.exists_value hmetric
      rw [update_gauge hstorable
        (write?_eq_gauge_iff.mpr ⟨hmetric, rfl, hvalue⟩)] at h
      cases h
      rw [read_gauge hkey (hkind.trans hmetric), MemoryStore.samples_write, hid]
      simp [Samples.setGauge]
  | counter =>
      obtain ⟨d, hdelta⟩ := hstorable.exists_delta hmetric
      rw [update_counter hstorable
        (write?_eq_counter_iff.mpr ⟨hmetric, rfl, hdelta⟩)] at h
      cases h
      rw [read_counter hkey (hkind.trans hmetric), MemoryStore.samples_write,
        hid]
      simp [Samples.addCounter, Samples.total]
  | unknown => exact absurd hmetric hstorable.named.2

/-! ## Histories -/

inductive Operation where
  | request (r : Request)
  | read (key : Metric)

/-- A store in memory, with the metrics that it has accepted so
far, in their order. -/
structure History where
  store : MemoryStore
  accepted : Batch

namespace History

def step (h : History) : Operation → History
  | .request r =>
    let (served, store) := r.perform h.store
    ⟨store, if served then h.accepted ++ r.metrics else h.accepted⟩
  | .read key => { h with store := (Service.read key h.store).2 }

theorem step_request (h : History) (r : Request) :
    h.step (.request r) =
      ⟨(r.perform h.store).2,
        if (r.perform h.store).1 then h.accepted ++ r.metrics
        else h.accepted⟩ := rfl

def run (store : MemoryStore) (ops : List Operation) : History :=
  ops.foldl step ⟨store, []⟩

/-- The samples are those of the metrics that were accepted, none of
which breaks a rule. -/
structure Sound (m : MemoryStore) (h : History) : Prop where
  samples : h.store.samples = h.accepted.foldl record m.samples
  storable : ∀ metric ∈ h.accepted, Storable metric

variable {m : MemoryStore} {h : History}

theorem Sound.step (hsound : Sound m h) (op : Operation) :
    Sound m (h.step op) := by
  cases op with
  | read key =>
      have hstore : h.step (.read key) = h := by
        rw [History.step, read_snd]
      rw [hstore]
      exact hsound
  | request r =>
      have hsamples := r.samples_perform h.store
      have hserved :
          (r.perform h.store).1 =
          decide (∀ metric ∈ r.metrics, Storable metric) := by
        rw [Request.perform_eq]
      rw [step_request, hserved]
      rw [Request.apply_eq, hsound.samples] at hsamples
      by_cases hr : ∀ metric ∈ r.metrics, Storable metric
      · rw [if_pos hr, ← List.foldl_append] at hsamples
        rw [decide_eq_true hr, if_pos rfl]
        refine ⟨hsamples, fun metric hmetric => ?_⟩
        rcases List.mem_append.mp hmetric with hmetric | hmetric
        · exact hsound.storable metric hmetric
        · exact hr metric hmetric
      · rw [if_neg hr] at hsamples
        rw [decide_eq_false hr, if_neg Bool.false_ne_true]
        exact ⟨hsamples, hsound.storable⟩

theorem sound_run (m : MemoryStore) (ops : List Operation) :
    Sound m (run m ops) := by
  have hfold (h : History) (hsound : Sound m h) :
      Sound m (ops.foldl History.step h) := by
    induction ops generalizing h with
    | nil => exact hsound
    | cons op ops ih => exact ih (h.step op) (hsound.step op)
  exact hfold ⟨m, []⟩ ⟨rfl, fun _ hmetric => nomatch hmetric⟩

theorem Sound.find?_gauges (hsound : Sound m h) (hempty : m.samples = .empty)
    (id : String) :
    h.store.samples.gauges.find? id = (gaugeWrites id h.accepted).getLast? := by
  rw [hsound.samples, hempty, find?_gauges_foldl_record]
  exact Option.or_none

theorem Sound.find?_counters (hsound : Sound m h) (hempty : m.samples = .empty)
    (id : String) :
    h.store.samples.counters.find? id =
      if counterWrites id h.accepted = [] then none
      else some (sumFrom 0 (counterWrites id h.accepted)) := by
  rw [hsound.samples, hempty, find?_counters_foldl_record]
  rfl

end History

/-! ## What was accepted -/

variable {accepted : Batch} {id : String}

/-- A field that every accepted metric of a kind has: nothing is written to it
exactly if no metric of the kind and the id was accepted. -/
theorem filterMap_field_eq_nil_iff {β : Type} {kind : Kind}
    {field : Metric → Option β}
    (h : ∀ metric ∈ accepted, metric.kind = kind → ∃ b, field metric = some b) :
    accepted.filterMap (fun metric =>
        if metric.kind = kind ∧ metric.id = id then field metric else none) =
        [] ↔
      ∀ metric ∈ accepted, ¬ (metric.kind = kind ∧ metric.id = id) := by
  rw [List.filterMap_eq_nil_iff]
  refine forall₂_congr fun metric hmetric => ?_
  by_cases hmine : metric.kind = kind ∧ metric.id = id
  · obtain ⟨b, hb⟩ := h metric hmetric hmine.1
    simp [hmine, hb]
  · simp [hmine]

theorem gaugeWrites_eq_nil_iff (h : ∀ metric ∈ accepted, Storable metric) :
    gaugeWrites id accepted = [] ↔
      ∀ metric ∈ accepted, ¬ (metric.kind = .gauge ∧ metric.id = id) :=
  filterMap_field_eq_nil_iff fun metric hmetric hkind =>
    ((h metric hmetric).exists_value hkind).imp fun _ hvalue => hvalue.1

theorem counterWrites_eq_nil_iff (h : ∀ metric ∈ accepted, Storable metric) :
    counterWrites id accepted = [] ↔
      ∀ metric ∈ accepted, ¬ (metric.kind = .counter ∧ metric.id = id) :=
  filterMap_field_eq_nil_iff fun metric hmetric =>
    (h metric hmetric).exists_delta

theorem isFinite_of_mem_gaugeWrites (h : ∀ metric ∈ accepted, Storable metric)
    {v : Binary64} (hv : v ∈ gaugeWrites id accepted) : v.isFinite = true := by
  obtain ⟨metric, hmetric, hwrite⟩ := List.mem_filterMap.mp hv
  by_cases hgauge : metric.kind = .gauge ∧ metric.id = id
  · obtain ⟨w, hvalue, hfinite⟩ := (h metric hmetric).exists_value hgauge.1
    rw [gaugeWrite?, if_pos hgauge, hvalue] at hwrite
    exact Option.some.inj hwrite ▸ hfinite
  · rw [gaugeWrite?, if_neg hgauge] at hwrite
    cases hwrite

/-- Something is accepted only for an id that is not blank. -/
theorem named_of_not_forall {kind : Kind}
    (h : ∀ metric ∈ accepted, Storable metric)
    (hsome : ¬ ∀ metric ∈ accepted,
      ¬ (metric.kind = kind ∧ metric.id = id)) : Text.trim id ≠ "" := by
  push Not at hsome
  obtain ⟨metric, hmetric, -, rfl⟩ := hsome
  exact (h metric hmetric).named.1

/-! ## What is recalled -/

/-- What a store answers after metrics were accepted, in their order. -/
structure Recalls (m : MemoryStore) (accepted : Batch) : Prop where
  /-- A gauge reads as the last value that was accepted for it. -/
  gauge : ∀ key : Metric, key.kind = .gauge → Text.trim key.id ≠ "" →
    read key m =
      (match (gaugeWrites key.id accepted).getLast? with
        | some value => .ok (.gauge key.id value)
        | none => .error (.notFound .gauge key.id), m)
  /-- A counter reads as the sum of the increments that were accepted for it. -/
  counter : ∀ key : Metric, key.kind = .counter → Text.trim key.id ≠ "" →
    read key m =
      (if counterWrites key.id accepted = []
        then .error (.notFound .counter key.id)
        else .ok (.counter key.id (sumFrom 0 (counterWrites key.id accepted))),
       m)
  /-- A key with an id is not found exactly if nothing was accepted
  for its kind and id. -/
  notFound_iff : ∀ key : Metric, key.kind ≠ .unknown → Text.trim key.id ≠ "" →
    ((read key m).1 = .error (.notFound key.kind key.id) ↔
      ∀ metric ∈ accepted, ¬ (metric.kind = key.kind ∧ metric.id = key.id))
  /-- A key without an id is rejected. -/
  blank : ∀ key : Metric, Text.trim key.id = "" → ∃ rejection,
    key.verify readRules = .error rejection ∧
      read key m = (.error (.rejected rejection), m)
  /-- A metric that is accepted next is answered with what a read
  finds right after. -/
  echo : ∀ metric answer m', update metric m = (.ok answer, m') →
    ∀ key : Metric, key.kind = metric.kind → key.id = metric.id →
      read key m' = (.ok answer, m')
  finite : ∀ entry ∈ m.samples.gauges.entries, entry.2.isFinite = true
  named_gauge : ∀ entry ∈ m.samples.gauges.entries, Text.trim entry.1 ≠ ""
  named_counter : ∀ entry ∈ m.samples.counters.entries, Text.trim entry.1 ≠ ""

theorem History.Sound.recalls {m : MemoryStore} {h : History}
    (hsound : Sound m h) (hempty : m.samples = .empty) :
    Recalls h.store h.accepted where
  gauge := by
    intro key hkind hid
    have hkey : key.verify readRules = .ok () :=
      verify_readRules_iff.mpr ⟨hid, by simp [hkind]⟩
    rw [read_gauge hkey hkind, hsound.find?_gauges hempty]
  counter := by
    intro key hkind hid
    have hkey : key.verify readRules = .ok () :=
      verify_readRules_iff.mpr ⟨hid, by simp [hkind]⟩
    rw [read_counter hkey hkind, hsound.find?_counters hempty]
    by_cases hwrites : counterWrites key.id h.accepted = []
    · rw [if_pos hwrites, if_pos hwrites]
    · rw [if_neg hwrites, if_neg hwrites]
  notFound_iff := by
    intro key hknown hid
    have hkey : key.verify readRules = .ok () :=
      verify_readRules_iff.mpr ⟨hid, hknown⟩
    cases hkind : key.kind with
    | gauge =>
        rw [← gaugeWrites_eq_nil_iff hsound.storable, read_gauge hkey hkind,
          hsound.find?_gauges hempty, ← List.getLast?_eq_none_iff]
        cases (gaugeWrites key.id h.accepted).getLast? <;> simp
    | counter =>
        rw [← counterWrites_eq_nil_iff hsound.storable, read_counter hkey hkind,
          hsound.find?_counters hempty]
        by_cases hwrites : counterWrites key.id h.accepted = [] <;>
          simp [hwrites]
    | unknown => exact absurd hkind hknown
  blank := by
    intro key hid
    cases hkey : key.verify readRules with
    | ok _ => exact absurd hid (verify_readRules_iff.mp hkey).1
    | error rejection => exact ⟨rejection, rfl, read_of_rejected hkey _⟩
  echo := by
    intro metric answer m' hupdate key hkind hid
    exact read_of_update hupdate hkind hid
  finite := by
    rintro ⟨id, v⟩ hentry
    have hlast := NameMap.find?_of_mem_entries hentry
    rw [hsound.find?_gauges hempty] at hlast
    exact isFinite_of_mem_gaugeWrites hsound.storable
      (List.mem_of_getLast? hlast)
  named_gauge := by
    rintro ⟨id, v⟩ hentry
    have hlast := NameMap.find?_of_mem_entries hentry
    rw [hsound.find?_gauges hempty] at hlast
    apply named_of_not_forall hsound.storable
    refine mt (gaugeWrites_eq_nil_iff hsound.storable).mpr ?_
    intro hnil
    rw [hnil] at hlast
    cases hlast
  named_counter := by
    rintro ⟨id, total⟩ hentry
    have hsum := NameMap.find?_of_mem_entries hentry
    rw [hsound.find?_counters hempty] at hsum
    apply named_of_not_forall hsound.storable
    refine mt (counterWrites_eq_nil_iff hsound.storable).mpr ?_
    intro hnil
    rw [if_pos hnil] at hsum
    cases hsum

/-- A store that held nothing at first recalls what it has accepted, whatever
it was asked for. -/
theorem recalls_run {m : MemoryStore} (hempty : m.samples = .empty)
    (ops : List Operation) :
    Recalls (History.run m ops).store (History.run m ops).accepted :=
  (History.sound_run m ops).recalls hempty

/-- A gauge and a counter with the same id: the total of the counter
wraps around, and the gauge keeps its value when one that is not a
number is refused. -/
theorem recalls_run_wrapping :
    let ops : List Operation :=
      [.request (.updateBatch
          [.counter "Alloc" Int64.maxValue,
            .gauge "Alloc" ⟨0x3FF8000000000000⟩]),
        .request (.update (.gauge "Alloc" .nan)), .read (.key "Alloc" .gauge),
        .request (.update (.counter "Alloc" 1))]
    let h := History.run (.ephemeral .empty) ops
    (MemoryStore.ephemeral .empty).samples = .empty ∧
      read (.key "Alloc" .counter) h.store =
        (.ok (.counter "Alloc" Int64.minValue), h.store) ∧
      read (.key "Alloc" .gauge) h.store =
        (.ok (.gauge "Alloc" ⟨0x3FF8000000000000⟩), h.store) ∧
      (read (.key "PollCount" .counter) h.store).1 =
        .error (.notFound .counter "PollCount") := by
  intro ops h
  have hempty : (MemoryStore.ephemeral .empty).samples = .empty := rfl
  have hrecalls : Recalls h.store h.accepted := recalls_run hempty ops
  have haccepted : h.accepted = [.counter "Alloc" Int64.maxValue,
      .gauge "Alloc" ⟨0x3FF8000000000000⟩, .counter "Alloc" 1] := by
        decide +kernel
  have hcounter := hrecalls.counter (.key "Alloc" .counter) rfl (by decide)
  have hgauge := hrecalls.gauge (.key "Alloc" .gauge) rfl (by decide)
  have hmissing :=
    hrecalls.notFound_iff (.key "PollCount" .counter) (by decide) (by decide)
  rw [haccepted] at hcounter hgauge hmissing
  exact ⟨hempty, hcounter, hgauge, hmissing.mpr (by decide)⟩

/-- A key that is blank is rejected, although nothing was ever accepted for it,
and so it is not reported as missing. -/
theorem read_blank_key :
    let h := History.run (.ephemeral .empty) []
    (∀ metric ∈ h.accepted, ¬ (metric.kind = .gauge ∧ metric.id = " ")) ∧
      (read (.key " " .gauge) h.store).1 =
        .error (.rejected ⟨[.broken none " " [.emptyId]]⟩) ∧
      (read (.key " " .gauge) h.store).1 ≠ .error (.notFound .gauge " ") := by
  intro h
  have hanswer : (read (.key " " .gauge) h.store).1 =
      .error (.rejected ⟨[.broken none " " [.emptyId]]⟩) := rfl
  refine ⟨?_, hanswer, ?_⟩
  · intro metric hmetric
    cases hmetric
  · rw [hanswer]
    intro hmissing
    cases hmissing

end Service

end Telemetry
