import Telemetry.Proofs.Service.History
import Telemetry.Proofs.Store.Tables
import Telemetry.Proofs.Store.Relational
import Mathlib.Data.List.Forall2
import Mathlib.Data.List.Infix

/-!
# The stores answer alike

A store in memory and a store in a database that is empty when it starts give
the same answers to the same operations, in any order and with any names, and
hold the same maps afterwards.  This is so for finite gauges and for totals that
stay in their range, and as long as the database itself does not fail.  Both
stores are compared with samples that the operations change: the first one holds
them, and the tables of the second one are the tables of these samples.
-/

namespace Telemetry

inductive Operation where
  | updateGauge (name : String) (value : Binary64)
  | updateCounter (name : String) (delta : Int64)
  | updateGauges (gauges : List (String × Binary64))
  | updateCounters (counters : List (String × Int64))
  | gauge (name : String)
  | counter (name : String)
  | gauges
  | counters
  deriving DecidableEq, Repr

inductive Reply where
  | value (x : Binary64)
  | total (n : Int64)
  | done
  | values (gauges : List (String × Binary64))
  | totals (counters : List (String × Int64))
  deriving DecidableEq, Repr

namespace Operation

section Performing

variable {σ : Type} [SampleStore σ]

def perform : Operation → StoreM σ Reply
  | .updateGauge name value =>
    Reply.value <$> SampleStore.updateGauge name value
  | .updateCounter name delta =>
    Reply.total <$> SampleStore.updateCounter name delta
  | .updateGauges written =>
    (fun _ => .done) <$> SampleStore.updateGauges written
  | .updateCounters added =>
    (fun _ => .done) <$> SampleStore.updateCounters added
  | .gauge name => Reply.value <$> SampleStore.gauge name
  | .counter name => Reply.total <$> SampleStore.counter name
  | .gauges => Reply.values <$> SampleStore.gauges
  | .counters => Reply.totals <$> SampleStore.counters

/-- The answers to operations one after the other, and the store afterwards. -/
def answers : List Operation → σ → List (Except StorageError Reply) × σ
  | [], s => ([], s)
  | op :: ops, s =>
    let (answer, s) := op.perform s
    let (later, s) := answers ops s
    (answer :: later, s)

end Performing

def writes : Operation → List (String × Binary64)
  | .updateGauge name value => [(name, value)]
  | .updateGauges written => written
  | _ => []

def increments : Operation → List (String × Int64)
  | .updateCounter name delta => [(name, delta)]
  | .updateCounters added => added
  | _ => []

end Operation

/-! ## Answers that are the same -/

/-- The same names with the same numbers. -/
def SameValues (xs ys : List (String × Binary64)) : Prop :=
  List.Forall₂ (fun x y => x.1 = y.1 ∧ x.2.SameNumber y.2) xs ys

inductive Reply.Agrees : Reply → Reply → Prop
  | value {x y : Binary64} (h : x.SameNumber y) : Agrees (.value x) (.value y)
  | total (n : Int64) : Agrees (.total n) (.total n)
  | done : Agrees .done .done
  | values {xs ys : List (String × Binary64)} (h : SameValues xs ys) :
    Agrees (.values xs) (.values ys)
  | totals (xs : List (String × Int64)) : Agrees (.totals xs) (.totals xs)

/-- Two stores answer the same, or both do not find the same. -/
inductive Agree : Except StorageError Reply → Except StorageError Reply → Prop
  | ok {a b : Reply} (h : a.Agrees b) : Agree (.ok a) (.ok b)
  | notFound (kind : Kind) (id : String) :
    Agree (.error (.notFound kind id)) (.error (.notFound kind id))

/-- The tables are maps with the same numbers and totals as the samples. -/
structure SameMaps (s : Samples) (t : Tables) : Prop where
  gauges : ∃ gauges, t.gauges = some gauges ∧
    SameValues s.gauges.entries gauges.entries
  counters : t.counters = some (s.counters.map .integer)

/-! ## Totals that stay in their range -/

/-- The sum of what is added to a counter, without a bound. -/
def exactTotal (name : String) (increments : List (String × Int64)) : Int :=
  increments.foldl (fun total c => if c.1 = name then total + c.2.toInt
    else total) 0

/-- No counter leaves the range of totals while these increments are
added in their order. -/
def StaysInRange (increments : List (String × Int64)) : Prop :=
  ∀ before ∈ increments.inits, ∀ c ∈ before, InRange (exactTotal c.1 before)

instance (increments : List (String × Int64)) :
    Decidable (StaysInRange increments) :=
  inferInstanceAs (Decidable (∀ before ∈ increments.inits, ∀ c ∈ before, _))

theorem exactTotal_concat (name : String) (increments : List (String × Int64))
    (c : String × Int64) :
    exactTotal name (increments ++ [c]) =
      if c.1 = name then exactTotal name increments + c.2.toInt
      else exactTotal name increments := by
  rw [exactTotal, List.foldl_append]
  rfl

theorem StaysInRange.inRange {before after : List (String × Int64)}
    {c : String × Int64} (h : StaysInRange (before ++ c :: after)) :
    InRange (exactTotal c.1 before + c.2.toInt) := by
  have hprefix : before ++ [c] ∈ (before ++ c :: after).inits := by
    rw [List.mem_inits]
    exact ⟨after, (List.append_cons before c after).symm⟩
  have hrange := h _ hprefix c (List.mem_append_right _ List.mem_cons_self)
  rwa [exactTotal_concat, if_pos rfl] at hrange

theorem StaysInRange.of_append {before after : List (String × Int64)}
    (h : StaysInRange (before ++ after)) : StaysInRange before := by
  intro first hfirst
  apply h
  rw [List.mem_inits] at hfirst ⊢
  exact hfirst.trans (List.prefix_append before after)

namespace Samples

/-- The samples of a store that was given only finite gauges and increments
that stay in range. -/
structure Sound (done : List (String × Int64)) (s : Samples) : Prop where
  finite : ∀ name v, s.gauges.find? name = some v → v.isFinite = true
  totals : ∀ name, (s.total name).toInt = exactTotal name done

variable {s : Samples} {done : List (String × Int64)}

theorem sound_empty : Sound [] empty where
  finite _ _ h := nomatch h
  totals _ := rfl

theorem Sound.setGauge (h : Sound done s) {name : String} {v : Binary64}
    (hv : v.isFinite = true) : Sound done (s.setGauge name v) := by
  refine ⟨?_, h.totals⟩
  intro other w hw
  have hfind : (s.setGauge name v).gauges.find? other =
      if name = other then some v else s.gauges.find? other :=
        NameMap.find?_insert _ _ _ _
  rw [hfind] at hw
  by_cases hname : name = other
  · rw [if_pos hname, Option.some.injEq] at hw
    rwa [← hw]
  · rw [if_neg hname] at hw
    exact h.finite other w hw

theorem Sound.setGauges (h : Sound done s) {gauges : List (String × Binary64)}
    (hgauges : ∀ g ∈ gauges, g.2.isFinite = true) :
    Sound done (s.setGauges gauges) := by
  induction gauges generalizing s with
  | nil => exact h
  | cons g gauges ih =>
      obtain ⟨hg, hrest⟩ := List.forall_mem_cons.mp hgauges
      exact ih (h.setGauge hg) hrest

/-- A counter goes on as exact as it was, if its total stays in range. -/
theorem Sound.addCounter (h : Sound done s) {c : String × Int64}
    (hc : InRange ((s.total c.1).toInt + c.2.toInt)) :
    Sound (done ++ [c]) (s.addCounter c.1 c.2) := by
  refine ⟨h.finite, ?_⟩
  intro name
  rw [total_addCounter, exactTotal_concat]
  by_cases hname : c.1 = name
  · rw [if_pos hname, if_pos hname, ← h.totals, ← hname,
      toInt_add_of_inRange hc]
  · rw [if_neg hname, if_neg hname, h.totals]

theorem Sound.inRange (h : Sound done s) {c : String × Int64}
    {later : List (String × Int64)}
    (hrange : StaysInRange (done ++ c :: later)) :
    InRange ((s.total c.1).toInt + c.2.toInt) := by
  rw [h.totals]
  exact hrange.inRange

end Samples

namespace Tables

variable {s : Samples} {done : List (String × Int64)}

/-- Counters that are added to one after the other stay exact, and the tables
are those of the samples. -/
theorem afterAll_counterStatements_ofSamples (h : s.Sound done)
    {counters : List (String × Int64)}
    (hrange : StaysInRange (done ++ counters)) :
    (s.addCounters counters).Sound (done ++ counters) ∧
      (ofSamples s).afterAll (counterStatements counters) =
        .ok (ofSamples (s.addCounters counters)) := by
  induction counters generalizing s done with
  | nil =>
      rw [List.append_nil]
      exact ⟨h, rfl⟩
  | cons c counters ih =>
      have hc := h.inRange hrange
      rw [List.append_cons] at hrange
      obtain ⟨hsound, hafter⟩ := ih (h.addCounter hc) hrange
      refine ⟨?_, ?_⟩
      · rw [List.append_cons]
        exact hsound
      · rw [afterAll_counterStatements_cons (upsertCounter_ofSamples hc)]
        exact hafter

theorem sameValues_unsigned (h : s.Sound done) :
    SameValues s.gauges.entries (s.gauges.map unsigned).entries := by
  rw [SameValues, NameMap.map, List.forall₂_map_right_iff, List.forall₂_same]
  intro entry hentry
  refine ⟨rfl, Binary64.sameNumber_unsigned ?_⟩
  exact h.finite entry.1 entry.2 (NameMap.mem_entries_iff.mp hentry)

/-- The tables of samples are the same maps as the samples. -/
theorem sameMaps_ofSamples (h : s.Sound done) : SameMaps s (ofSamples s) :=
  ⟨⟨_, rfl, sameValues_unsigned h⟩, rfl⟩

end Tables

/-! ## One operation -/

namespace Operation

def change (op : Operation) (s : Samples) : Samples :=
  (s.setGauges op.writes).addCounters op.increments

/-- What an operation is answered that leaves these samples. -/
def reply : Operation → Samples → Except StorageError Reply
  | .updateGauge _ value, _ => .ok (.value value)
  | .updateCounter name _, s => .ok (.total (s.total name))
  | .updateGauges _, _ => .ok .done
  | .updateCounters _, _ => .ok .done
  | .gauge name, s =>
    match s.gauges.find? name with
    | some value => .ok (.value value)
    | none => .error (.notFound .gauge name)
  | .counter name, s =>
    match s.counters.find? name with
    | some total => .ok (.total total)
    | none => .error (.notFound .counter name)
  | .gauges, s => .ok (.values s.gauges.entries)
  | .counters, s => .ok (.totals s.counters.entries)

def WritesFinite (op : Operation) : Prop := ∀ g ∈ op.writes, g.2.isFinite = true

instance (op : Operation) : Decidable op.WritesFinite :=
  inferInstanceAs (Decidable (∀ g ∈ op.writes, _))

theorem sound_change (op : Operation) {s : Samples}
    {done : List (String × Int64)} (h : s.Sound done)
    (hwrites : op.WritesFinite)
    (hrange : StaysInRange (done ++ op.increments)) :
    (op.change s).Sound (done ++ op.increments) :=
  (Tables.afterAll_counterStatements_ofSamples (h.setGauges hwrites) hrange).1

/-- A store in memory holds the changed samples and answers from them. -/
theorem perform_memory (op : Operation) (m : MemoryStore) :
    ∃ m', op.perform m = (op.reply (op.change m.samples), m') ∧
      m'.samples = op.change m.samples := by
  cases op with
  | updateGauge name value =>
      exact ⟨(MemoryStore.write (·.setGauge name value) m).2, rfl,
        MemoryStore.samples_write _ m⟩
  | updateCounter name delta =>
      have hsamples := MemoryStore.samples_write (·.addCounter name delta) m
      refine ⟨(MemoryStore.write (·.addCounter name delta) m).2, ?_, hsamples⟩
      exact congrArg (fun s => (Except.ok (Reply.total (s.total name)), _))
        hsamples
  | updateGauges written =>
      obtain ⟨m', hstore, hsamples⟩ := MemoryStore.exists_updateGauges written m
      exact ⟨m', run_map_of_eq hstore _, hsamples⟩
  | updateCounters added =>
      obtain ⟨m', hstore, hsamples⟩ := MemoryStore.exists_updateCounters added m
      exact ⟨m', run_map_of_eq hstore _, hsamples⟩
  | gauge name =>
      have hread := run_map_of_eq (MemoryStore.gauge_eq name m) Reply.value
      refine ⟨m, hread.trans ?_, rfl⟩
      change _ = (reply (.gauge name) m.samples, m)
      rw [reply]
      cases m.samples.gauges.find? name <;> rfl
  | counter name =>
      have hread := run_map_of_eq (MemoryStore.counter_eq name m) Reply.total
      refine ⟨m, hread.trans ?_, rfl⟩
      change _ = (reply (.counter name) m.samples, m)
      rw [reply]
      cases m.samples.counters.find? name <;> rfl
  | gauges => exact ⟨m, rfl, rfl⟩
  | counters => exact ⟨m, rfl, rfl⟩

end Operation

/-- A database that serves and holds the tables of samples. -/
structure RelationalStore.Mirrors (r : RelationalStore)
    (s : Samples) : Prop where
  serves : r.database.Serves
  tables : r.database.tables = .ofSamples s

namespace Operation

variable {r : RelationalStore} {s : Samples} {done : List (String × Int64)}

/-- A store in a database holds the tables of the changed samples and
answers the same. -/
theorem perform_relational (op : Operation) (hr : r.Mirrors s)
    (hs : s.Sound done) (hwrites : op.WritesFinite)
    (hrange : StaysInRange (done ++ op.increments)) :
    ∃ answer r', op.perform r = (answer, r') ∧
      Agree (op.reply (op.change s)) answer ∧
      r'.Mirrors (op.change s) := by
  obtain ⟨hserves, htables⟩ := hr
  have hread : (r.attempted r.database.tables).Mirrors s :=
    ⟨hserves.attempted _, htables⟩
  cases op with
  | updateGauge name value =>
      have hfinite : value.isFinite = true := hwrites _ List.mem_cons_self
      have hrun : r.database.tables.upsertGauge name value =
          .ok (Tables.unsigned value, .ofSamples (s.setGauge name value)) := by
        rw [htables]
        exact Tables.upsertGauge_ofSamples hfinite
      have hstore : SampleStore.updateGauge name value r = _ :=
        RelationalStore.statement_of_ok hserves (·.upsertGauge name value) hrun
      exact ⟨_, _, run_map_of_eq hstore Reply.value,
        .ok (.value (Binary64.sameNumber_unsigned hfinite)),
        ⟨hserves.attempted _, rfl⟩⟩
  | updateCounter name delta =>
      have hrun : r.database.tables.upsertCounter name delta =
          .ok (.integer ((s.addCounter name delta).total name),
            .ofSamples (s.addCounter name delta)) := by
        rw [htables]
        exact Tables.upsertCounter_ofSamples
          (hs.inRange (c := (name, delta)) hrange)
      have hstore : SampleStore.updateCounter name delta r = _ :=
        RelationalStore.updateCounter_of_ok hserves hrun
      exact ⟨_, _, run_map_of_eq hstore Reply.total, .ok (.total _),
        ⟨hserves.attempted _, rfl⟩⟩
  | updateGauges written =>
      have hall := Tables.afterAll_gaugeStatements_ofSamples s hwrites
      rw [← htables] at hall
      obtain ⟨r', hstore, htables', hserves'⟩ :=
        RelationalStore.transaction_of_ok hserves hall
      exact ⟨_, r', run_map_of_eq hstore _, .ok .done, ⟨hserves', htables'⟩⟩
  | updateCounters added =>
      have hall := (Tables.afterAll_counterStatements_ofSamples hs hrange).2
      rw [← htables] at hall
      obtain ⟨r', hstore, htables', hserves'⟩ :=
        RelationalStore.transaction_of_ok hserves hall
      exact ⟨_, r', run_map_of_eq hstore _, .ok .done, ⟨hserves', htables'⟩⟩
  | gauge name =>
      have hrun : r.database.tables.selectGauge name =
          .ok ((s.gauges.find? name).map Tables.unsigned) := by
        rw [htables]
        exact Tables.selectGauge_ofSamples
      have hstore : SampleStore.gauge name r = _ :=
        RelationalStore.lookup_of_ok hserves .gauge name
          (·.selectGauge name) hrun
      refine ⟨_, _, run_map_of_eq hstore Reply.value, ?_, hread⟩
      change Agree (reply (.gauge name) s) _
      rw [reply]
      cases hfound : s.gauges.find? name with
      | none => exact .notFound .gauge name
      | some v =>
          exact .ok (.value
            (Binary64.sameNumber_unsigned (hs.finite name v hfound)))
  | counter name =>
      have hrun : r.database.tables.selectCounter name =
          .ok (s.counters.find? name) := by
        rw [htables]
        exact Tables.selectCounter_ofSamples
      have hstore : SampleStore.counter name r = _ :=
        RelationalStore.lookup_of_ok hserves .counter name
          (·.selectCounter name) hrun
      refine ⟨_, _, run_map_of_eq hstore Reply.total, ?_, hread⟩
      change Agree (reply (.counter name) s) _
      rw [reply]
      cases s.counters.find? name with
      | none => exact .notFound .counter name
      | some total => exact .ok (.total total)
  | gauges =>
      have hrun : r.database.tables.allGauges =
          .ok (s.gauges.map Tables.unsigned).entries := by
        rw [htables]
        exact Tables.allGauges_ofSamples
      have hstore : SampleStore.gauges r = _ :=
        RelationalStore.query_of_ok hserves hrun
      exact ⟨_, _, run_map_of_eq hstore Reply.values,
        .ok (.values (Tables.sameValues_unsigned hs)), hread⟩
  | counters =>
      have hrun : r.database.tables.allCounters = .ok s.counters.entries := by
        rw [htables]
        exact Tables.allCounters_ofSamples
      have hstore : SampleStore.counters r = _ :=
        RelationalStore.query_of_ok hserves hrun
      exact ⟨_, _, run_map_of_eq hstore Reply.totals, .ok (.totals _), hread⟩

/-! ## Any operations -/

theorem forall₂_answers {ops : List Operation} {m : MemoryStore}
    (hr : r.Mirrors m.samples) (hs : m.samples.Sound done)
    (hwrites : ∀ op ∈ ops, op.WritesFinite)
    (hrange : StaysInRange (done ++ ops.flatMap increments)) :
    List.Forall₂ Agree (answers ops m).1 (answers ops r).1 ∧
      SameMaps (answers ops m).2.samples (answers ops r).2.database.tables := by
  -- by induction on the operations; the samples stay sound and the tables stay
  -- their tables
  induction ops generalizing m r done with
  | nil =>
      refine ⟨.nil, ?_⟩
      change SameMaps m.samples r.database.tables
      rw [hr.tables]
      exact Tables.sameMaps_ofSamples hs
  | cons op ops ih =>
      obtain ⟨hop, hops⟩ := List.forall_mem_cons.mp hwrites
      rw [List.flatMap_cons, ← List.append_assoc] at hrange
      have hhere := hrange.of_append
      obtain ⟨m', hm, hsamples⟩ := perform_memory op m
      obtain ⟨answer, r', hr', hagree, hmirrors⟩ :=
        perform_relational op hr hs hop hhere
      rw [← hsamples] at hmirrors
      have hsound := sound_change op hs hop hhere
      rw [← hsamples] at hsound
      obtain ⟨hanswers, hmaps⟩ := ih hmirrors hsound hops hrange
      rw [answers, answers, hm, hr']
      exact ⟨.cons hagree hanswers, hmaps⟩

end Operation

/-- A store in memory and a store on an empty database answer alike and end
with the same maps. -/
theorem answers_agree_of_start_empty (site : Site) (r₀ : RelationalStore)
    {r : RelationalStore}
    (hempty : r₀.database.tables.migrate = ⟨some .empty, some .empty⟩)
    (hcalm : ∀ attempt, r₀.database.trouble attempt = .none)
    (hstart : RelationalStore.start r₀ = (.ok (), r)) {ops : List Operation}
    (hfinite : ∀ op ∈ ops, op.WritesFinite)
    (hrange : StaysInRange (ops.flatMap Operation.increments)) :
    List.Forall₂ Agree (Operation.answers ops (MemoryStore.ephemeral site)).1
        (Operation.answers ops r).1 ∧
      SameMaps (Operation.answers ops (MemoryStore.ephemeral site)).2.samples
        (Operation.answers ops r).2.database.tables := by
  obtain ⟨hopen, rfl⟩ := RelationalStore.of_start hstart
  have hmirrors : (r₀.changeTables Tables.migrate).Mirrors
      (MemoryStore.ephemeral site).samples :=
    ⟨⟨hopen, hcalm⟩, hempty⟩
  exact Operation.forall₂_answers hmirrors Samples.sound_empty hfinite hrange

/-- Operations on names that a list repeats and that both kinds share, with a
zero that has a sign, a total at the end of its range, empty lists and names
that nothing was written to. -/
def Operation.overlapping : List Operation :=
  [.gauge "a", .updateGauges [], .updateCounters [], .updateCounter "a" 7,
    .updateGauges [("a", ⟨0x3FF0000000000000⟩), ("b", .zero),
      ("a", Binary64.zero.negate)],
    .updateCounters [("a", -9), ("b", Int64.maxValue), ("a", 1), ("b", -1)],
    .updateGauge "c" ⟨0x4000000000000000⟩, .gauge "a", .counter "a",
    .counter "c", .gauges, .counters]

def RelationalStore.migrated : RelationalStore :=
  (ofTables "" .none .empty).changeTables Tables.migrate

theorem answers_agree_of_overlapping :
    List.Forall₂ Agree
        (Operation.answers Operation.overlapping
          (MemoryStore.ephemeral .empty)).1
        (Operation.answers Operation.overlapping RelationalStore.migrated).1 ∧
      SameMaps
        (Operation.answers Operation.overlapping
          (MemoryStore.ephemeral .empty)).2.samples
        (Operation.answers Operation.overlapping
          RelationalStore.migrated).2.database.tables :=
  answers_agree_of_start_empty .empty (RelationalStore.ofTables "" .none .empty)
    rfl (fun _ => rfl) rfl (by decide) (by decide)

end Telemetry
