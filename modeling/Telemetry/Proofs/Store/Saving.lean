import Telemetry.Proofs.Service
import Telemetry.Proofs.Disk
import Telemetry.Proofs.Store.Snapshot

/-!
# What the snapshot file holds

A store that was started on a snapshot file keeps it open at its place.  With an
interval of zero the file holds the samples after every change; otherwise it
holds what it held until a saver saves.
-/

namespace Telemetry

namespace Samples

open Service

/-- A change that keeps samples legible. -/
def Tame (change : Samples → Samples) : Prop :=
  ∀ s : Samples, s.Legible → (change s).Legible

theorem legible_empty : empty.Legible := by
  intro entry hentry
  simp [empty, NameMap.empty] at hentry

theorem Legible.setGauge {s : Samples} (h : s.Legible) {name : String}
    {value : Binary64} (hvalue : value.isFinite = true ∧ Json.Readable value) :
    (s.setGauge name value).Legible := by
  intro entry hentry
  rcases NameMap.mem_insertEntry hentry with rfl | hentry
  · exact hvalue
  · exact h entry hentry

theorem Legible.addCounter {s : Samples} (h : s.Legible) (name : String)
    (delta : Int64) :
    (s.addCounter name delta).Legible := h

theorem Legible.setGauges {s : Samples} (h : s.Legible)
    {gauges : List (String × Binary64)}
    (hgauges : ∀ g ∈ gauges, g.2.isFinite = true ∧ Json.Readable g.2) :
    (s.setGauges gauges).Legible := by
  induction gauges generalizing s with
  | nil => exact h
  | cons g gauges ih =>
      exact ih (h.setGauge (hgauges g List.mem_cons_self))
        fun g hg => hgauges g (List.mem_cons_of_mem _ hg)

theorem Legible.addCounters {s : Samples} (h : s.Legible)
    (counters : List (String × Int64)) :
    (s.addCounters counters).Legible := by
  induction counters generalizing s with
  | nil => exact h
  | cons c counters ih => exact ih (h.addCounter c.1 c.2)

end Samples

namespace MemoryStore

/-- A snapshot is restored to what its document is read as. -/
theorem restored_eq {counters : List (String × Int64)}
    {gauges : List (String × Binary64)} {back : Samples}
    (h : Samples.ofJson (Samples.writeJson counters gauges) = .ok back)
    (before : Samples) :
    restored before (Samples.writeJson counters gauges) = .ok back := by
  have hblank :
      (Samples.writeJson counters gauges).all isBlankByte = false := by
    have hopen : Json.literal "\x7b\"counter\":" =
        0x7B :: (Json.writeText "counter" ++ [0x3A]) := by decide
    simp only [Samples.writeJson, hopen, List.cons_append, List.all_cons]
    rfl
  simp [restored, hblank, h, mapError_ok]

/-- What a snapshot of legible samples is restored to. -/
theorem restored_toJson {s : Samples} (h : s.Legible) (before : Samples) :
    restored before s.toJson = .ok s :=
  restored_eq (Samples.ofJson_toJson h) before

/-- What the file of a store holds is restored to the samples. -/
def Holds (site : Site) (f : SnapshotFile) (s : Samples) : Prop :=
  restored .empty ((site.disk.contents? f.place).getD []) = .ok s

/-- The store has the file open and saves at the given interval since
the instant zero. -/
structure Running (path : String) (f : SnapshotFile) (interval : Nat)
    (m : MemoryStore) : Prop where
  file : m.file = some f
  settled : f.Settled m.site.disk path
  interval_eq : m.interval = interval
  saver : m.saver = if interval = 0 then none else some 0
  abandoned : m.abandoned = []
  running : m.isShutDown = false
  legible : m.samples.Legible

variable {path : String} {f : SnapshotFile} {interval : Nat} {m : MemoryStore}

theorem save_eq (hfile : m.file = some f) (hopen : f.isOpen = true) :
    save m = (.ok (),
      { m with
        site := { m.site with
          disk := m.site.disk.put f.place (.file m.capture) } }) := by
  simp [save, replace, hfile, SnapshotFile.save_eq, hopen]

/-- A save makes the file hold the samples and changes nothing else. -/
theorem Running.save (h : Running path f interval m) :
    Running path f interval (save m).2 ∧
      (MemoryStore.save m).2.samples = m.samples ∧
      Holds (MemoryStore.save m).2.site f m.samples := by
  rw [save_eq h.file h.settled.isOpen]
  refine ⟨⟨h.file, h.settled.put _, h.interval_eq, h.saver, h.abandoned,
      h.running, h.legible⟩, rfl, ?_⟩
  simp [Holds, h.settled.contents?_put, capture, restored_toJson h.legible]

theorem Running.mutate (h : Running path f interval m)
    {change : Samples → Samples} (htame : Samples.Tame change) :
    Running path f interval (m.mutate change) :=
  ⟨h.file, h.settled, h.interval_eq, h.saver, h.abandoned, h.running,
    htame _ h.legible⟩

/-- After a change the file holds the samples if every change is saved, and what
it held before otherwise. -/
theorem Running.write (h : Running path f interval m)
    {change : Samples → Samples} (htame : Samples.Tame change) :
    Running path f interval (write change m).2 ∧
      (interval = 0 →
        Holds (MemoryStore.write change m).2.site f (change m.samples)) ∧
      (interval ≠ 0 → (MemoryStore.write change m).2.site = m.site) := by
  have hmutated := h.mutate htame
  obtain ⟨hrunning, -, hholds⟩ := hmutated.save
  unfold MemoryStore.write
  dsimp only
  by_cases hzero : interval = 0
  · have hsync : (m.mutate change).isSync = true := by
      simp [isSync, hmutated.interval_eq, hzero]
    rw [if_pos hsync]
    exact ⟨hrunning, fun _ => hholds, fun hne => absurd hzero hne⟩
  · have hsync : ¬ (m.mutate change).isSync = true := by
      simp [isSync, hmutated.interval_eq, hzero]
    rw [if_neg hsync]
    exact ⟨hmutated, fun heq => absurd heq hzero, fun _ => rfl⟩

theorem Running.writeAll (h : Running path f interval m)
    {changes : List (Samples → Samples)}
    (htame : ∀ change ∈ changes, Samples.Tame change) :
    Running path f interval (m.writeAll changes) ∧
      (interval = 0 → Holds m.site f m.samples →
        Holds (m.writeAll changes).site f (m.writeAll changes).samples) ∧
      (interval ≠ 0 → (m.writeAll changes).site = m.site) := by
  induction changes generalizing m with
  | nil => exact ⟨h, fun _ hholds => hholds, fun _ => rfl⟩
  | cons change changes ih =>
      obtain ⟨hrunning, hzero, hne⟩ := h.write (htame change List.mem_cons_self)
      obtain ⟨hrunning', hzero', hne'⟩ :=
        ih hrunning fun change hchange =>
          htame change (List.mem_cons_of_mem _ hchange)
      refine ⟨hrunning', fun heq _ => hzero' heq ?_, fun hinterval => ?_⟩
      · rw [samples_write]
        exact hzero heq
      · exact (hne' hinterval).trans (hne hinterval)

/-- While time passes the saver saves if an interval ends. -/
theorem Running.elapse (h : Running path f interval m) (before now : Nat) :
    m.elapse before now =
      if (before - 1) / interval < (now - 1) / interval then
        (MemoryStore.save m).2 else m := by
  unfold MemoryStore.elapse
  simp only [h.saver, h.abandoned, h.running, h.interval_eq, List.append_nil]
  by_cases hzero : interval = 0
  · simp [hzero]
  · have hpos : 0 < interval := Nat.pos_of_ne_zero hzero
    simp [hzero, isDue, hpos]

end MemoryStore

end Telemetry
