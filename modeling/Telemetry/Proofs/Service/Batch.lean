import Telemetry.Proofs.Service
import Mathlib.Data.List.Pairwise

/-!
# A batch is stored as a whole or not at all

A batch without violations leaves the samples that its metrics leave when they
are stored one by one.  Any other batch leaves the store alone, and its
rejection names the metrics that break a rule, each at its place and with what
it breaks when it is verified alone.
-/

namespace Telemetry

/-- The place in a batch that a failure is about. -/
def Failure.place? : Failure → Option Nat
  | .broken index _ _ => index
  | .malformed _ => none

namespace Batch

variable {rules : List Rule}

/-- The failures name the metrics of the batch that break a rule, in the order
of their places and each with what it breaks, in the order of the rules, when it
is verified alone. -/
structure Blames (rules : List Rule) (batch : Batch)
    (failures : List Failure) : Prop where
  ascending : (failures.filterMap Failure.place?).Pairwise (· < ·)
  mem_iff : ∀ failure, failure ∈ failures ↔
    ∃ i metric violations, batch[i]? = some metric ∧
      metric.verify rules = .error ⟨[.broken none metric.id violations]⟩ ∧
      violations = rules.filterMap (Rule.violation? metric) ∧
      failure = .broken (some i) metric.id violations

theorem mem_failuresFrom_iff {start : Nat} {batch : Batch} {failure : Failure} :
    failure ∈ failuresFrom rules start batch ↔
      ∃ i metric, batch[i]? = some metric ∧ metric.violations rules ≠ [] ∧
        failure = .broken (some (start + i)) metric.id
          (metric.violations rules) := by
  induction batch generalizing start with
  | nil => simp [failuresFrom]
  | cons first rest ih =>
      have hrest : failure ∈ failuresFrom rules (start + 1) rest ↔
          ∃ i metric, (first :: rest)[i + 1]? = some metric ∧
            metric.violations rules ≠ [] ∧
            failure = .broken (some (start + (i + 1))) metric.id
            (metric.violations rules) := by
        simp only [ih, List.getElem?_cons_succ, Nat.add_assoc, Nat.add_comm 1]
      rw [failuresFrom]
      split
      · next hnil =>
          rw [hrest]
          constructor
          · rintro ⟨i, metric, hi, hbroken, rfl⟩
            exact ⟨i + 1, metric, hi, hbroken, rfl⟩
          · rintro ⟨i, metric, hi, hbroken, rfl⟩
            cases i with
            | zero =>
                obtain rfl : first = metric := by simpa using hi
                exact absurd hnil hbroken
            | succ i => exact ⟨i, metric, hi, hbroken, rfl⟩
      · next hbroken =>
          rw [List.mem_cons, hrest]
          constructor
          · rintro (rfl | ⟨i, metric, hi, hmetric, rfl⟩)
            · exact ⟨0, first, rfl, hbroken, rfl⟩
            · exact ⟨i + 1, metric, hi, hmetric, rfl⟩
          · rintro ⟨i, metric, hi, hmetric, rfl⟩
            cases i with
            | zero =>
                obtain rfl : first = metric := by simpa using hi
                exact Or.inl rfl
            | succ i => exact Or.inr ⟨i, metric, hi, hmetric, rfl⟩

theorem ascending_failuresFrom (start : Nat) (batch : Batch) :
    ((failuresFrom rules start batch).filterMap Failure.place?).Pairwise
      (· < ·) := by
  induction batch generalizing start with
  | nil => exact List.Pairwise.nil
  | cons first rest ih =>
      rw [failuresFrom]
      split
      · exact ih (start + 1)
      · refine List.pairwise_cons.mpr ⟨fun place hplace => ?_, ih (start + 1)⟩
        obtain ⟨failure, hfailure, heq⟩ := List.mem_filterMap.mp hplace
        obtain ⟨i, metric, -, -, rfl⟩ := mem_failuresFrom_iff.mp hfailure
        obtain rfl : start + 1 + i = place := Option.some.inj heq
        omega

theorem blames_failuresFrom (batch : Batch) :
    Blames rules batch (failuresFrom rules 0 batch) where
  ascending := ascending_failuresFrom 0 batch
  mem_iff := by
    intro failure
    rw [mem_failuresFrom_iff]
    constructor
    · rintro ⟨i, metric, hi, hbroken, rfl⟩
      refine ⟨i, metric, _, hi, Metric.verify_eq_error hbroken, rfl, ?_⟩
      rw [Nat.zero_add]
    · rintro ⟨i, metric, violations, hi, hverify, rfl, rfl⟩
      refine ⟨i, metric, hi, ?_, ?_⟩
      · intro hnil
        rw [Metric.verify_eq_ok_iff.mpr hnil] at hverify
        cases hverify
      · rw [Nat.zero_add]
        rfl

end Batch

namespace Service

/-- The store after the metrics of a batch are put to it one by
one, in their order. -/
def updateEach (batch : Batch) (m : MemoryStore) : MemoryStore :=
  batch.foldl (fun m metric => (update metric m).2) m

theorem samples_update {metric : Metric} (h : Storable metric)
    (m : MemoryStore) :
    (update metric m).2.samples = record m.samples metric := by
  obtain ⟨w, answer, hw, hupdate⟩ := update_of_storable h m
  rw [hupdate, record, hw]
  exact MemoryStore.samples_writeAll _ _

theorem samples_updateEach {batch : Batch}
    (h : ∀ metric ∈ batch, Storable metric) (m : MemoryStore) :
    (updateEach batch m).samples = batch.foldl record m.samples := by
  induction batch generalizing m with
  | nil => rfl
  | cons metric rest ih =>
      have hrest :=
        ih (fun other hother => h other (List.mem_cons_of_mem _ hother))
          (update metric m).2
      rw [samples_update (h metric List.mem_cons_self)] at hrest
      exact hrest

/-- A batch is its metrics stored one by one, or nothing.  If every metric
passes the rules, the batch is stored and leaves the samples that its metrics
leave one after the other; otherwise the store stays as it was and the failures
of the rejection are those of the metrics.  Once the rules are passed, no metric
is refused because it does not say what to write. -/
theorem updateBatch_all_or_nothing (batch : Batch) (m : MemoryStore) :
    ((∀ metric ∈ batch, metric.verify updateRules = .ok ()) ∧
          (updateBatch batch m).1 = .ok batch.length ∧
          (updateBatch batch m).2.samples = (updateEach batch m).samples ∨
        (∃ metric ∈ batch, metric.verify updateRules ≠ .ok ()) ∧
          ∃ failures, Batch.Blames updateRules batch failures ∧
            updateBatch batch m = (.error (.rejected ⟨failures⟩), m)) ∧
      (∀ id, (updateBatch batch m).1 ≠ .error (.rejected (unstorable id))) ∧
      ∀ metric id,
        (update metric m).1 ≠ .error (.rejected (unstorable id)) := by
  have hupdate : ∀ metric id,
      (update metric m).1 ≠ .error (.rejected (unstorable id)) := by
    intro metric id
    by_cases hmetric : Storable metric
    · obtain ⟨w, answer, -, hupdate⟩ := update_of_storable hmetric m
      rw [hupdate]
      exact fun h => nomatch h
    · rw [update_of_not_storable hmetric]
      exact fun h => nomatch h
  by_cases hbatch : ∀ metric ∈ batch, Storable metric
  · obtain ⟨m', hstored, hsamples⟩ := samples_updateBatch hbatch m
    rw [hstored]
    refine ⟨Or.inl ⟨fun metric hmetric => ?_, rfl, ?_⟩, ?_, hupdate⟩
    · exact Metric.verify_eq_ok_iff.mpr (hbatch metric hmetric)
    · rw [hsamples, samples_updateEach hbatch]
    · intro id h
      cases h
  · have hblames : Batch.Blames updateRules batch _ :=
      Batch.blames_failuresFrom batch
    rw [updateBatch_of_not_storable hbatch]
    refine ⟨Or.inr ⟨?_, _, hblames, rfl⟩, fun id h => ?_, hupdate⟩
    · obtain ⟨metric, hmetric, hbroken⟩ : ∃ metric ∈ batch,
          ¬ Storable metric := by
        simpa using hbatch
      exact ⟨metric, hmetric,
        fun hok => hbroken (Metric.verify_eq_ok_iff.mp hok)⟩
    · -- every failure of the rejection is about a metric, unlike the one that
      -- `unstorable` has
      have hrejection := ServiceError.rejected.inj (Except.error.inj h)
      have hmem :
          Failure.malformed s!"metric {Text.quote id} cannot be stored" ∈
          Batch.failuresFrom updateRules 0 batch := by
        rw [Rejection.mk.inj hrejection]
        exact List.mem_singleton_self _
      obtain ⟨i, metric, -, -, hfailure⟩ := Batch.mem_failuresFrom_iff.mp hmem
      cases hfailure

end Service

end Telemetry
