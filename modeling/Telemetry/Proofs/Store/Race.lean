import Telemetry.Proofs.List
import Telemetry.Proofs.Store.Durability

/-!
# Changes at the same time

A change that is saved at once takes three steps, each of which nothing
interrupts: the samples are changed, a copy of them is taken, and the bytes of
the file are replaced by the copy.  Other changes may come between the steps, so
a copy that was taken early may replace one that was taken late.  In the end the
file holds the samples as the last save has seen them.
-/

namespace Telemetry

inductive Stage where
  | begun
  | changed
  /-- The bytes that are about to be saved, and the number of
  changes they hold. -/
  | captured (bytes : Bytes) (seen : Nat)
  | returned
  deriving DecidableEq, Repr

structure Call where
  change : Samples → Samples
  stage : Stage

/-- Changes on their way to a store, with those that were made so far, in order,
and the number of them that the last save has seen. -/
structure Race where
  store : MemoryStore
  calls : List Call
  history : List (Samples → Samples)
  saved : Option Nat

namespace Race

def start (store : MemoryStore) (changes : List (Samples → Samples)) : Race :=
  ⟨store, changes.map fun change => ⟨change, .begun⟩, [], none⟩

/-- The next step of a call, by its place; the failure of a
save is passed over. -/
def step (r : Race) (i : Nat) : Race :=
  match r.calls[i]? with
  | some ⟨change, .begun⟩ =>
    { r with
      store := r.store.mutate change
      calls :=
        r.calls.set i ⟨change, if r.store.isSync then .changed else .returned⟩
      history := r.history ++ [change] }
  | some ⟨change, .changed⟩ =>
    { r with
      calls := r.calls.set i
        ⟨change, .captured r.store.capture r.history.length⟩ }
  | some ⟨change, .captured bytes seen⟩ =>
    match r.store.replace bytes with
    | .ok store =>
      { r with
        store
        calls := r.calls.set i ⟨change, .returned⟩
        saved := some seen }
    | .error _ => { r with calls := r.calls.set i ⟨change, .returned⟩ }
  | some ⟨_, .returned⟩ | none => r

def run (r : Race) (schedule : List Nat) : Race := schedule.foldl step r

def isOver (r : Race) : Bool := r.calls.all fun call => call.stage == .returned

/-- Without others at the same time the three steps are a
change of the store. -/
theorem run_alone (m : MemoryStore) (change : Samples → Samples) :
    ((start m [change]).run [0, 0, 0]).store =
      (MemoryStore.write change m).2 := by
  unfold MemoryStore.write MemoryStore.save
  by_cases hsync : m.isSync = true
  · have hsync' : (m.mutate change).isSync = true := hsync
    simp only [hsync', if_true]
    cases hreplace : (m.mutate change).replace (m.mutate change).capture with
    | ok m' => simp [run, start, step, hsync, hreplace]
    | error e => simp [run, start, step, hsync, hreplace]
  · have hsync' : ¬ (m.mutate change).isSync = true := hsync
    simp [run, start, step, hsync, hsync']

/-! ## What a save has seen -/

def applied (s : Samples) (changes : List (Samples → Samples)) : Samples :=
  changes.foldl (fun s change => change s) s

/-- The samples that the first changes of the history make of
those at the start. -/
def seenBy (r : Race) (s : Samples) (seen : Nat) : Samples :=
  applied s (r.history.take seen)

/-- The change of a call that has not begun. -/
def Call.pending? (call : Call) : Option (Samples → Samples) :=
  if call.stage = .begun then some call.change else none

/-- What is true at any time: each change is made once, a copy holds the samples
that it has seen, and the file holds what the last save has seen. -/
structure Sound (m : MemoryStore) (f : SnapshotFile)
    (changes : List (Samples → Samples)) (r : Race) : Prop where
  file : r.store.file = some f
  sync : r.store.isSync = true
  samples : r.store.samples = applied m.samples r.history
  once : (r.history ++ r.calls.filterMap Call.pending?).Perm changes
  captured : ∀ call ∈ r.calls, ∀ bytes seen, call.stage = .captured bytes seen →
    seen ≤ r.history.length ∧ bytes = (r.seenBy m.samples seen).toJson
  saved : ∀ seen, r.saved = some seen → seen ≤ r.history.length ∧
    r.store.site.disk.contents? f.place = some (r.seenBy m.samples seen).toJson
  returned : (∃ call ∈ r.calls, call.stage = .returned) → r.saved ≠ none

/-- Samples that were seen stay the same while the history grows. -/
theorem take_history {r r' : Race} {changes : List (Samples → Samples)}
    (h : r'.history = r.history ++ changes) {seen : Nat}
    (hseen : seen ≤ r.history.length) (s : Samples) :
    r'.seenBy s seen = r.seenBy s seen := by
  rw [seenBy, h, List.take_append_of_le_length hseen, seenBy]

variable {m : MemoryStore} {f : SnapshotFile}
  {changes : List (Samples → Samples)} {r : Race}
  {i : Nat} {change : Samples → Samples}

theorem sound_start (hfile : m.file = some f) (hsync : m.isSync = true) :
    Sound m f changes (start m changes) where
  file := hfile
  sync := hsync
  samples := rfl
  once := by
    have hpending :
        (changes.map fun change => (⟨change, .begun⟩ : Call)).filterMap
          Call.pending? = changes := by
      induction changes with
      | nil => rfl
      | cons change changes ih => simp [Call.pending?, ih]
    simp [start, hpending]
  captured := by
    intro call hcall bytes seen hstage
    obtain ⟨change, -, rfl⟩ := List.mem_map.mp hcall
    cases hstage
  saved := by
    intro seen hseen
    cases hseen
  returned := by
    rintro ⟨call, hcall, hstage⟩
    obtain ⟨change, -, rfl⟩ := List.mem_map.mp hcall
    cases hstage

theorem step_begun (hcall : r.calls[i]? = some ⟨change, .begun⟩)
    (hsync : r.store.isSync = true) :
    r.step i = { r with
      store := r.store.mutate change
      calls := r.calls.set i ⟨change, .changed⟩
      history := r.history ++ [change] } := by
  simp [step, hcall, hsync]

theorem step_changed (hcall : r.calls[i]? = some ⟨change, .changed⟩) :
    r.step i =
      { r with
        calls := r.calls.set i
          ⟨change, .captured r.store.capture r.history.length⟩ } := by
  simp [step, hcall]

theorem step_captured {bytes : Bytes} {seen : Nat}
    (hcall : r.calls[i]? = some ⟨change, .captured bytes seen⟩)
    (hfile : r.store.file = some f) (hopen : f.isOpen = true) :
    r.step i = { r with
      store := { r.store with
        site := { r.store.site with
          disk := r.store.site.disk.put f.place (.file bytes) } }
      calls := r.calls.set i ⟨change, .returned⟩
      saved := some seen } := by
  simp [step, hcall, MemoryStore.replace, hfile, SnapshotFile.save_eq, hopen]

theorem Sound.mutate (h : Sound m f changes r)
    (hcall : r.calls[i]? = some ⟨change, .begun⟩) :
    Sound m f changes (r.step i) := by
  have hgrown : (r.step i).history = r.history ++ [change] := by
    rw [step_begun hcall h.sync]
  have hlength : r.history.length ≤ (r.step i).history.length := by
    rw [hgrown, List.length_append]
    exact Nat.le_add_right _ _
  rw [step_begun hcall h.sync] at hgrown hlength ⊢
  refine ⟨h.file, h.sync, ?_, ?_, ?_, ?_, ?_⟩
  · change change r.store.samples = applied m.samples (r.history ++ [change])
    rw [h.samples, applied, applied, List.foldl_concat]
  · refine List.Perm.trans ?_ h.once
    rw [List.append_assoc]
    exact (filterMap_set_perm (g := Call.pending?) hcall rfl rfl).append_left
      r.history
  · intro call hmem bytes seen hstage
    rcases List.mem_or_eq_of_mem_set hmem with hmem | rfl
    · obtain ⟨hseen, hbytes⟩ := h.captured call hmem bytes seen hstage
      exact ⟨Nat.le_trans hseen hlength, by
        rw [hbytes, take_history hgrown hseen]⟩
    · cases hstage
  · intro seen hsaved
    obtain ⟨hseen, hcontents⟩ := h.saved seen hsaved
    exact ⟨Nat.le_trans hseen hlength, by
      rw [take_history hgrown hseen]; exact hcontents⟩
  · rintro ⟨call, hmem, hstage⟩
    rcases List.mem_or_eq_of_mem_set hmem with hmem | rfl
    · exact h.returned ⟨call, hmem, hstage⟩
    · cases hstage

theorem Sound.capture (h : Sound m f changes r)
    (hcall : r.calls[i]? = some ⟨change, .changed⟩) :
    Sound m f changes (r.step i) := by
  rw [step_changed hcall]
  refine ⟨h.file, h.sync, h.samples, ?_, ?_, h.saved, ?_⟩
  · have hsame : (r.calls.set i
        ⟨change, .captured r.store.capture r.history.length⟩).filterMap
        Call.pending? = r.calls.filterMap Call.pending? :=
          filterMap_set_of_none hcall rfl rfl
    rw [hsame]
    exact h.once
  · intro call hmem bytes seen hstage
    rcases List.mem_or_eq_of_mem_set hmem with hmem | rfl
    · exact h.captured call hmem bytes seen hstage
    · cases hstage
      refine ⟨Nat.le_refl _, ?_⟩
      rw [seenBy, List.take_length, MemoryStore.capture, h.samples]
  · rintro ⟨call, hmem, hstage⟩
    rcases List.mem_or_eq_of_mem_set hmem with hmem | rfl
    · exact h.returned ⟨call, hmem, hstage⟩
    · cases hstage

theorem Sound.replace (h : Sound m f changes r) (hopen : f.isOpen = true)
    (hplace : f.place ≠ []) {bytes : Bytes} {seen : Nat}
    (hcall : r.calls[i]? = some ⟨change, .captured bytes seen⟩) :
    Sound m f changes (r.step i) := by
  obtain ⟨hseen, hbytes⟩ :=
    h.captured _ (List.mem_of_getElem? hcall) bytes seen rfl
  rw [step_captured hcall h.file hopen]
  refine ⟨h.file, h.sync, h.samples, ?_, ?_, ?_, fun _ => by simp⟩
  · have hsame : (r.calls.set i ⟨change, .returned⟩).filterMap Call.pending? =
        r.calls.filterMap Call.pending? := filterMap_set_of_none hcall rfl rfl
    rw [hsame]
    exact h.once
  · intro call hmem bytes' seen' hstage
    rcases List.mem_or_eq_of_mem_set hmem with hmem | rfl
    · exact h.captured call hmem bytes' seen' hstage
    · cases hstage
  · intro seen' hsaved
    obtain rfl : seen = seen' := by simpa using hsaved
    refine ⟨hseen, ?_⟩
    rw [Disk.contents?_put hplace, hbytes]
    rfl

/-- Every step of every call keeps the race sound. -/
theorem Sound.step (h : Sound m f changes r) (hopen : f.isOpen = true)
    (hplace : f.place ≠ []) (i : Nat) : Sound m f changes (r.step i) := by
  cases hcall : r.calls[i]? with
  | none => simpa [Race.step, hcall] using h
  | some call =>
      obtain ⟨change, stage⟩ := call
      cases stage with
      | begun => exact h.mutate hcall
      | changed => exact h.capture hcall
      | captured bytes seen => exact h.replace hopen hplace hcall
      | returned => simpa [Race.step, hcall] using h

theorem Sound.run (h : Sound m f changes r) (hopen : f.isOpen = true)
    (hplace : f.place ≠ []) (schedule : List Nat) :
    Sound m f changes (r.run schedule) := by
  induction schedule generalizing r with
  | nil => exact h
  | cons i schedule ih => exact ih (h.step hopen hplace i)

theorem length_step (r : Race) (i : Nat) :
    (r.step i).calls.length = r.calls.length := by
  unfold Race.step
  split
  · simp
  · simp
  · split <;> simp
  · rfl
  · rfl

theorem length_run (r : Race) (schedule : List Nat) :
    (r.run schedule).calls.length = r.calls.length := by
  induction schedule generalizing r with
  | nil => rfl
  | cons i schedule ih => exact (ih (r.step i)).trans (length_step r i)

/-- What a snapshot holds after changes at the same time.  When all of them have
returned, each was made once, and the file holds the samples after those that
the last save has seen; so it is read back as the samples of the store exactly
when the changes that this save has missed make no difference. -/
theorem snapshot_after_race (hfile : m.file = some f) (hopen : f.isOpen = true)
    (hplace : f.place ≠ []) (hsync : m.isSync = true) (hne : changes ≠ [])
    {schedule : List Nat} (hrun : (start m changes).run schedule = r)
    (hover : r.isOver = true) :
    ∃ seen, r.saved = some seen ∧ r.history.Perm changes ∧
      r.store.samples = applied m.samples r.history ∧
      r.store.site.disk.contents? f.place =
      some (r.seenBy m.samples seen).toJson ∧
      ((r.seenBy m.samples seen).Legible →
        (Samples.ofJson (r.seenBy m.samples seen).toJson = .ok r.store.samples ↔
          r.seenBy m.samples seen = r.store.samples)) := by
  have hsound : Sound m f changes r :=
    hrun ▸ (sound_start hfile hsync).run hopen hplace schedule
  have hstages : ∀ call ∈ r.calls, call.stage = .returned := by
    intro call hcall
    simpa using List.all_eq_true.mp hover call hcall
  have hcalls : r.calls ≠ [] := by
    have hlength : r.calls.length = changes.length := by
      rw [← hrun, length_run, start, List.length_map]
    intro hnil
    rw [hnil] at hlength
    exact hne (List.eq_nil_of_length_eq_zero hlength.symm)
  obtain ⟨call, rest, hfirst⟩ := List.exists_cons_of_ne_nil hcalls
  have hmem : call ∈ r.calls := by simp [hfirst]
  obtain ⟨seen, hseen⟩ :=
    Option.ne_none_iff_exists'.mp
      (hsound.returned ⟨call, hmem, hstages call hmem⟩)
  have hpending : r.calls.filterMap Call.pending? = [] := by
    refine List.filterMap_eq_nil_iff.mpr fun call hcall => ?_
    simp [Call.pending?, hstages call hcall]
  have honce := hsound.once
  rw [hpending, List.append_nil] at honce
  refine ⟨seen, hseen, honce, hsound.samples, (hsound.saved seen hseen).2,
    fun hlegible => ?_⟩
  rw [Samples.ofJson_toJson hlegible]
  exact ⟨fun heq => Except.ok.inj heq, fun heq => congrArg Except.ok heq⟩

/-- The first change takes its copy, the second is made and saved, and then the
copy of the first replaces the file: two polls are missing in the snapshot. -/
theorem snapshot_misses_change :
    ∃ m r, Session.launch "metrics-db.json" 0 .empty = .ok m ∧
      (start m [fun s => s.addCounter "PollCount" 1,
          fun s => s.addCounter "PollCount" 2]).run [0, 0, 1, 1, 1, 0] = r ∧
      r.isOver = true ∧ r.store.samples = .ofLists [] [("PollCount", 3)] ∧
      ∃ bytes, r.store.site.disk.contents? ["metrics-db.json"] = some bytes ∧
        Samples.ofJson bytes = .ok (.ofLists [] [("PollCount", 1)]) :=
  ⟨_, _, rfl, rfl, by decide, by decide, _, rfl, rfl⟩

/-- Two changes that come one after the other are both in the snapshot. -/
theorem snapshot_after_race_in_turn :
    let f : SnapshotFile := ⟨"metrics-db.json", ["metrics-db.json"], true⟩
    let m :=
      MemoryStore.ofFile (some f) 0 true ⟨⟨[(f.place, .file [])]⟩, .empty⟩
    let changes : List (Samples → Samples) :=
      [fun s => s.addCounter "PollCount" 1,
        fun s => s.setGauges [("Alloc", .zero)]]
    let r := (start m changes).run [0, 0, 0, 1, 1, 1]
    m.file = some f ∧ f.isOpen = true ∧ f.place ≠ [] ∧ m.isSync = true ∧
      changes ≠ [] ∧
      r.isOver = true ∧ r.saved = some 2 ∧
      Samples.ofJson (r.seenBy m.samples 2).toJson = .ok r.store.samples := by
  intro f m changes r
  have hplace : f.place ≠ [] := by decide
  have hne : changes ≠ [] := List.cons_ne_nil _ _
  have hover : r.isOver = true := by decide +kernel
  have hsaved : r.saved = some 2 := by decide +kernel
  obtain ⟨seen, hseen, -, -, -, hiff⟩ :=
    snapshot_after_race (m := m) (f := f) rfl rfl hplace rfl hne
      (rfl : _ = r) hover
  obtain rfl : 2 = seen := Option.some.inj (hsaved.symm.trans hseen)
  have hzero : Json.Readable .zero := by decide +kernel
  have hlegible : (r.seenBy m.samples 2).Legible := by
    have hgauges : (r.seenBy m.samples 2).gauges.entries = [("Alloc", .zero)] :=
      rfl
    intro entry hentry
    rw [hgauges] at hentry
    obtain rfl := List.mem_singleton.mp hentry
    exact ⟨rfl, hzero⟩
  have hsame : r.seenBy m.samples 2 = r.store.samples := by decide +kernel
  exact ⟨rfl, rfl, hplace, rfl, hne, hover, hsaved, (hiff hlegible).mpr hsame⟩

end Race

end Telemetry
