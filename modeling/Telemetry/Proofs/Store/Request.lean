import Telemetry.Proofs.Metric.Document
import Telemetry.Proofs.Store.Saving

/-!
# Requests

A request is one metric or a batch.  Whatever the store in memory that it is put
to, it makes the same changes of samples: none if a rule is broken, and
otherwise what its metrics write.
-/

namespace Telemetry

namespace Service

inductive Request where
  | update (metric : Metric)
  | updateBatch (batch : Batch)

namespace Request

def metrics : Request → Batch
  | .update metric => [metric]
  | .updateBatch batch => batch

/-- Whether the request is served, and the store afterwards. -/
def perform (r : Request) (m : MemoryStore) : Bool × MemoryStore :=
  match r with
  | .update metric =>
      let (answer, m) := Service.update metric m; (answer.isOk, m)
  | .updateBatch batch =>
      let (answer, m) := Service.updateBatch batch m; (answer.isOk, m)

/-- Whether a store that saves nothing serves the request. -/
def isAccepted (r : Request) : Bool := (r.perform (.ephemeral .empty)).1

/-- The samples of a store that saves nothing after requests. -/
def samplesAfter (rs : List Request) : Samples :=
  (rs.foldl (fun m r => (perform r m).2) (MemoryStore.ephemeral .empty)).samples

def changes (r : Request) : List (Samples → Samples) :=
  if ∀ m ∈ r.metrics, Storable m then
    match r with
    | .update metric => (write? metric).toList.map fun w s => w.apply s
    | .updateBatch batch => changesOf (batch.filterMap write?)
  else []

def apply (s : Samples) (r : Request) : Samples :=
  r.changes.foldl (fun s change => change s) s

theorem perform_eq (r : Request) (m : MemoryStore) :
    r.perform m = (decide (∀ m ∈ r.metrics, Storable m),
      m.writeAll r.changes) := by
  by_cases h : ∀ m ∈ r.metrics, Storable m
  · cases r with
    | update metric =>
        have hmetric : Storable metric := h metric (by simp [metrics])
        obtain ⟨w, answer, hw, hupdate⟩ := update_of_storable hmetric m
        simp only [perform, hupdate, changes, if_pos h, hw, decide_eq_true h,
          Option.toList_some, List.map_cons, List.map_nil]
        rfl
    | updateBatch batch =>
        have hbatch : ∀ m ∈ batch, Storable m := h
        simp only [perform, updateBatch_of_storable hbatch, changes, if_pos h,
          decide_eq_true h]
        rfl
  · cases r with
    | update metric =>
        have hmetric : ¬ Storable metric :=
          fun hm => h (by simpa [metrics] using hm)
        have hupdate := update_of_not_storable hmetric m
        simp only [perform, hupdate, changes, if_neg h, decide_eq_false h]
        rfl
    | updateBatch batch =>
        have hbatch : ¬ ∀ m ∈ batch, Storable m := h
        have hupdate := updateBatch_of_not_storable hbatch m
        simp only [perform, hupdate, changes, if_neg h, decide_eq_false h]
        rfl

/-- A request is served if none of its metrics breaks a rule. -/
theorem isAccepted_iff (r : Request) :
    r.isAccepted = true ↔ ∀ m ∈ r.metrics, Storable m := by
  rw [isAccepted, perform_eq, decide_eq_true_iff]

theorem samples_perform (r : Request) (m : MemoryStore) :
    (r.perform m).2.samples = apply m.samples r := by
  rw [perform_eq]
  exact MemoryStore.samples_writeAll r.changes m

theorem samplesAfter_eq (rs : List Request) :
    samplesAfter rs = rs.foldl apply .empty := by
  have hfold (m : MemoryStore) :
      (rs.foldl (fun m r => (r.perform m).2) m).samples =
      rs.foldl apply m.samples := by
    induction rs generalizing m with
    | nil => rfl
    | cons r rs ih =>
        rw [List.foldl_cons, ih, samples_perform]
        rfl
  exact hfold _

/-- A request that is not accepted changes nothing. -/
theorem foldl_apply_filter (rs : List Request) (s : Samples) :
    (rs.filter isAccepted).foldl apply s = rs.foldl apply s := by
  induction rs generalizing s with
  | nil => rfl
  | cons r rs ih =>
      by_cases h : r.isAccepted = true
      · rw [List.filter_cons_of_pos h]
        exact ih _
      · have hbroken : ¬ ∀ m ∈ r.metrics, Storable m := by
          rwa [isAccepted_iff] at h
        have hsame : apply s r = s := by simp [apply, changes, hbroken]
        rw [List.filter_cons_of_neg h, ih, List.foldl_cons, hsame]

/-- Every value of a request that is finite reads back. -/
def Legible (r : Request) : Prop := ∀ m ∈ r.metrics, m.HasReadableValue

theorem tame_apply {metric : Metric} (h : Storable metric)
    (hreadable : metric.HasReadableValue) {w : Write}
    (hw : write? metric = some w) : Samples.Tame fun s => w.apply s := by
  intro s hs
  rcases h.exists_write with ⟨v, hv, hfinite, hw'⟩ | ⟨d, -, hw'⟩
  · obtain rfl : Write.gauge metric.id v = w := by simpa [hw'] using hw
    exact hs.setGauge ⟨hfinite, hreadable v hv hfinite⟩
  · obtain rfl : Write.counter metric.id d = w := by simpa [hw'] using hw
    exact hs.addCounter metric.id d

theorem mem_gaugesOf {batch : Batch} (h : ∀ m ∈ batch, Storable m)
    (hreadable : ∀ m ∈ batch, m.HasReadableValue) :
    ∀ g ∈ gaugesOf (batch.filterMap write?), g.2.isFinite = true ∧
      Json.Readable g.2 := by
  intro g hg
  obtain ⟨w, hw, heq⟩ := List.mem_filterMap.mp hg
  obtain ⟨metric, hmetric, hwrite⟩ := List.mem_filterMap.mp hw
  rcases (h metric hmetric).exists_write
    with ⟨v, hv, hfinite, hw'⟩ | ⟨d, -, hw'⟩
  · obtain rfl : Write.gauge metric.id v = w := by simpa [hw'] using hwrite
    obtain rfl : (metric.id, v) = g := by simpa using heq
    exact ⟨hfinite, hreadable metric hmetric v hv hfinite⟩
  · obtain rfl : Write.counter metric.id d = w := by simpa [hw'] using hwrite
    simp at heq

/-- A request whose values read back keeps samples legible. -/
theorem Legible.tame {r : Request} (h : r.Legible) :
    ∀ change ∈ r.changes, Samples.Tame change := by
  unfold changes
  split
  · next hstorable =>
      cases r with
      | update metric =>
          intro change hchange
          obtain ⟨w, hw, rfl⟩ := List.mem_map.mp hchange
          have hmem : metric ∈ (Request.update metric).metrics := by
            simp [metrics]
          exact tame_apply (hstorable metric hmem) (h metric hmem)
            (by simpa using hw)
      | updateBatch batch =>
          have hbatch : ∀ m ∈ batch, Storable m := hstorable
          have hgauges := mem_gaugesOf hbatch h
          intro change hchange
          simp only [changesOf, List.mem_append] at hchange
          rcases hchange with hchange | hchange
          · split at hchange
            · simp at hchange
            · obtain rfl := List.mem_singleton.mp hchange
              exact fun s hs => hs.setGauges hgauges
          · split at hchange
            · simp at hchange
            · obtain rfl := List.mem_singleton.mp hchange
              exact fun s hs => hs.addCounters _
  · simp

theorem legible_foldl {rs : List Request} (hrs : ∀ r ∈ rs, r.Legible)
    {s : Samples} (h : s.Legible) : (rs.foldl apply s).Legible := by
  have hchanges {changes : List (Samples → Samples)}
      (htame : ∀ change ∈ changes, Samples.Tame change) {s : Samples}
      (h : s.Legible) :
      (changes.foldl (fun s change => change s) s).Legible := by
    induction changes generalizing s with
    | nil => exact h
    | cons change changes ih =>
        exact ih
          (fun change hchange => htame change (List.mem_cons_of_mem _ hchange))
          (htame change List.mem_cons_self s h)
  induction rs generalizing s with
  | nil => exact h
  | cons r rs ih =>
      have hr := hchanges (hrs r List.mem_cons_self).tame h
      exact ih (fun r hr => hrs r (List.mem_cons_of_mem _ hr)) hr

end Request

end Service

end Telemetry
