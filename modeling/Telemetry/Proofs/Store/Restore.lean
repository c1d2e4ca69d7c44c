import Telemetry.Store.Memory
import Telemetry.Proofs.Result
import Telemetry.Proofs.Disk
import Telemetry.Proofs.Store.Saving
import Telemetry.Proofs.Supervisor.Refusal

/-!
# Restoring a snapshot

A restore takes over all that a document holds or nothing at all, and the file
stays as it is.  A store whose file cannot be read therefore refuses to start;
it is not stopped either, and so its empty samples are never saved over a
damaged snapshot, whatever runs beside it.
-/

namespace Telemetry

namespace Json.Cursor

/-- The reader of an object passes the members with the given keys, up to the
end of the object. -/
inductive Passes {σ : Type}
    (step : σ → String → Cursor → Except Failure (σ × Cursor)) :
    Bool → σ → Cursor → List String → σ → Cursor → Prop
  | done {first : Bool} {s : σ} {c last : Cursor}
      (hend : c.nextKey first = .ok (none, last)) :
      Passes step first s c [] s last
  | next {first : Bool} {s t u : σ} {c quote after value rest last : Cursor}
      {key : String} {keys : List String}
      (hquote : c.nextKey first = .ok (some quote, after))
      (hkey : quote.advance.readText = .ok (key, value))
      (hvalue : step s key value = .ok (t, rest))
      (more : Passes step false t rest keys u last) :
      Passes step first s c (key :: keys) u last

theorem exists_passes {σ : Type}
    {step : σ → String → Cursor → Except Failure (σ × Cursor)} {fuel : Nat}
    {first : Bool} {s u : σ} {c last : Cursor}
    (h : members step fuel first s c = .ok (u, last)) :
    ∃ keys, Passes step first s c keys u last := by
  induction fuel generalizing first s c with
  | zero => nomatch h
  | succ fuel ih =>
      unfold members at h
      obtain ⟨⟨quote?, after⟩, hquote, h⟩ := exists_of_bind_eq_ok h
      have hnext := mapError_eq_ok_iff.mp hquote
      cases quote? with
      | none =>
          obtain ⟨rfl, rfl⟩ := Prod.mk.inj (Except.ok.inj h)
          exact ⟨[], .done hnext⟩
      | some quote =>
          obtain ⟨⟨key, value⟩, hkey, h⟩ := exists_of_bind_eq_ok h
          obtain ⟨⟨t, rest⟩, hvalue, h⟩ := exists_of_bind_eq_ok h
          obtain ⟨keys, hkeys⟩ := ih h
          exact ⟨key :: keys,
            .next hnext (mapError_eq_ok_iff.mp hkey) hvalue hkeys⟩

/-- A refusal is no value. -/
theorem refuse_ne_ok {α : Type} (c : Cursor) (expected : String) (a : α) :
    c.refuse expected ≠ .ok a := by
  intro h
  unfold refuse at h
  repeat' split at h
  all_goals first
    | (obtain ⟨x, -, h⟩ := exists_of_bind_eq_ok h; nomatch h)
    | nomatch h

theorem exists_of_within_eq_ok {α : Type} {after : Cursor → Cursor}
    {close : Cursor → Except Error Cursor}
    {contents : Except Failure (α × Cursor)} {a : α} {last : Cursor}
    (h : within after close contents = .ok (a, last)) :
    ∃ c, contents = .ok (a, c) := by
  unfold within at h
  split at h
  · next c =>
      obtain ⟨c', -, h⟩ := exists_of_bind_eq_ok h
      obtain ⟨rfl, -⟩ := Prod.mk.inj (Except.ok.inj h)
      exact ⟨c, rfl⟩
  · nomatch h
  · nomatch h

end Json.Cursor

namespace Samples

open Json Cursor

/-- A section is there after a member if it was there before or the
member is the section. -/
theorem isSome_step {s t : Sections} {key : String} {c rest : Cursor}
    (h : s.step key c = .ok (t, rest)) :
    (t.counters.isSome ↔ s.counters.isSome ∨ key = "counter") ∧
      (t.gauges.isSome ↔ s.gauges.isSome ∨ key = "gauge") := by
  unfold Sections.step at h
  split at h
  · next hkey =>
      obtain ⟨⟨counters, c'⟩, -, h⟩ := exists_of_bind_eq_ok h
      obtain ⟨rfl, -⟩ := Prod.mk.inj (Except.ok.inj h)
      simp [hkey]
  · next hcounter =>
      split at h
      · next hkey =>
          obtain ⟨⟨gauges, c'⟩, -, h⟩ := exists_of_bind_eq_ok h
          obtain ⟨rfl, -⟩ := Prod.mk.inj (Except.ok.inj h)
          simp [hkey]
      · next hgauge =>
          obtain ⟨c', -, h⟩ := exists_of_bind_eq_ok h
          obtain ⟨rfl, -⟩ := Prod.mk.inj (Except.ok.inj h)
          simp [hcounter, hgauge]

theorem isSome_of_passes {first : Bool} {s t : Sections} {c last : Cursor}
    {keys : List String} (h : Passes Sections.step first s c keys t last) :
    (t.counters.isSome ↔ s.counters.isSome ∨ "counter" ∈ keys) ∧
      (t.gauges.isSome ↔ s.gauges.isSome ∨ "gauge" ∈ keys) := by
  induction h with
  | done => simp
  | next _ _ hvalue _ ih =>
      obtain ⟨hcounters, hgauges⟩ := isSome_step hvalue
      simp only [ih.1, ih.2, hcounters, hgauges, List.mem_cons, eq_comm,
        or_assoc, and_self]

/-- The sections of a snapshot document, which are absent where the
document lacks them: the members of an object by their keys, or the first
elements of a list. -/
inductive Document (bytes : Bytes) : Sections → Prop
  | object {s : Sections} {c last : Cursor} {keys : List String}
      (start : (Cursor.ofBytes bytes).token = .ok c)
      (brace : c.sees 0x7B = true)
      (members : Passes Sections.step true .none c.advance keys s last)
      (counters : s.counters.isSome ↔ "counter" ∈ keys)
      (gauges : s.gauges.isSome ↔ "gauge" ∈ keys) : Document bytes s
  | list {s : Sections} {c second last : Cursor}
      (start : (Cursor.ofBytes bytes).token = .ok c)
      (bracket : c.sees 0x5B = true)
      (counters : element true (readSection int64) c.advance =
        .ok (s.counters, second))
      (gauges : element false (readSection real) second =
        .ok (s.gauges, last)) :
      Document bytes s

/-- What a document is read as comes from its sections alone. -/
theorem exists_document {bytes : Bytes} {s : Samples}
    (h : Samples.ofJson bytes = .ok s) :
    ∃ sections, Document bytes sections ∧ s = sections.samples := by
  unfold Samples.ofJson document Samples.read at h
  obtain ⟨⟨s', last⟩, hread, h⟩ := exists_of_bind_eq_ok h
  obtain ⟨c, hstart, hread⟩ := exists_of_bind_eq_ok hread
  obtain rfl : s' = s := by
    dsimp only at h
    split at h
    · exact Except.ok.inj h
    · nomatch h
  by_cases hbracket : c.sees 0x5B = true
  · rw [if_pos hbracket] at hread
    obtain ⟨c', hitems⟩ := exists_of_within_eq_ok hread
    unfold readItems at hitems
    obtain ⟨⟨counters, second⟩, hcounters, hitems⟩ :=
      exists_of_bind_eq_ok hitems
    obtain ⟨⟨gauges, c''⟩, hgauges, hitems⟩ := exists_of_bind_eq_ok hitems
    obtain ⟨rfl, -⟩ := Prod.mk.inj (Except.ok.inj hitems)
    exact ⟨⟨counters, gauges⟩, .list hstart hbracket hcounters hgauges, rfl⟩
  · rw [if_neg hbracket] at hread
    by_cases hbrace : c.sees 0x7B = true
    · rw [if_pos hbrace] at hread
      obtain ⟨c', hobject⟩ := exists_of_within_eq_ok hread
      obtain ⟨⟨sections, c''⟩, hmembers, hfinish⟩ :=
        exists_of_bind_eq_ok hobject
      obtain ⟨rfl, -⟩ := Prod.mk.inj (Except.ok.inj hfinish)
      obtain ⟨keys, hkeys⟩ := exists_passes hmembers
      obtain ⟨hcounters, hgauges⟩ := isSome_of_passes hkeys
      exact ⟨sections,
        .object hstart hbrace hkeys (by simpa [Sections.none] using hcounters)
          (by simpa [Sections.none] using hgauges), rfl⟩
    · rw [if_neg hbrace] at hread
      exact absurd hread (refuse_ne_ok c _ _)

end Samples

namespace MemoryStore

/-! ## A restore -/

/-- The bytes of ASCII white space: the space, the tab, the line feed, the form
feed and the carriage return. -/
def asciiSpaces : Bytes := [0x20, 0x09, 0x0A, 0x0C, 0x0D]

def IsBlank (bytes : Bytes) : Prop := ∀ b ∈ bytes, b ∈ asciiSpaces

theorem all_isBlankByte_iff {bytes : Bytes} :
    bytes.all isBlankByte = true ↔ IsBlank bytes := by
  rw [List.all_eq_true]
  refine forall₂_congr fun b _ => ?_
  simp [isBlankByte, asciiSpaces, or_assoc]

/-- What a restore answers and what the samples are after it, for a file
with the given bytes. -/
inductive Restores (bytes : Bytes) (before : Samples) :
    Except StorageError Unit → Samples → Prop
  | blank (hblank : IsBlank bytes) : Restores bytes before (.ok ()) before
  | replaced {sections : Samples.Sections} (hblank : ¬ IsBlank bytes)
      (hdocument : Samples.Document bytes sections)
      (hdecoded : Samples.ofJson bytes = .ok sections.samples) :
      Restores bytes before (.ok ()) sections.samples
  | refused {e : Json.Error} (hblank : ¬ IsBlank bytes)
      (hrefused : Samples.ofJson bytes = .error e) :
      Restores bytes before (.error (.json e)) before

variable {m : MemoryStore} {f : SnapshotFile} {bytes : Bytes}

theorem exists_restores (hfile : m.file = some f) (hopen : f.isOpen = true)
    (hbytes : m.site.disk.contents? f.place = some bytes) :
    ∃ result samples, restore m = (result, { m with samples }) ∧
      Restores bytes m.samples result samples := by
  have hload : f.load m.site.disk = .ok bytes := by
    simp [SnapshotFile.load_eq, hopen, hbytes]
  by_cases hblank : IsBlank bytes
  · have hrestored : restored m.samples bytes = .ok m.samples :=
      if_pos (all_isBlankByte_iff.mpr hblank)
    refine ⟨.ok (), m.samples, ?_, .blank hblank⟩
    simp [restore, hfile, hload, hrestored]
  · have hrestored :
        restored m.samples bytes = (Samples.ofJson bytes).mapError .json :=
      if_neg fun hall => hblank (all_isBlankByte_iff.mp hall)
    cases hdecoded : Samples.ofJson bytes with
    | error e =>
        rw [hdecoded] at hrestored
        refine ⟨.error (.json e), m.samples, ?_, .refused hblank hdecoded⟩
        change restore m = (.error (.json e), m)
        simp [restore, hfile, hload, hrestored, Except.mapError]
    | ok samples =>
        rw [hdecoded, mapError_ok] at hrestored
        obtain ⟨sections, hdocument, rfl⟩ := Samples.exists_document hdecoded
        refine ⟨.ok (), sections.samples, ?_,
          .replaced hblank hdocument hdecoded⟩
        simp [restore, hfile, hload, hrestored]

/-! ## A start -/

variable {τ : Type}

/-- The store as a component of a world in which it stands beside others; it is
started at an instant. -/
def component (now : Nat) : Component (MemoryStore × τ) where
  name := "memory-storage"
  start := fun (m, others) =>
    let (result, m) := m.start now
    ⟨result.mapError StorageError.message, (m, others), none⟩
  stop := fun (m, others) =>
    let (result, m) := m.stop
    (result.mapError StorageError.message, (m, others))

/-- The store and the bytes of its file are as they were; everything else on the
site may have changed, and shutdown may have been requested. -/
structure Spared (f : SnapshotFile) (m m' : MemoryStore) : Prop where
  store_eq : m' = { m with isShutDown := m'.isShutDown, site := m'.site }
  contents_eq : m'.site.disk.contents? f.place = m.site.disk.contents? f.place

/-- A component that spares the store, whatever its starts and
stops do and answer. -/
def Spares (f : SnapshotFile) (c : Component (MemoryStore × τ)) : Prop :=
  ∀ world, Spared f world.1 (c.start world).world.1 ∧
    Spared f world.1 (c.stop world).2.1

theorem Spared.refl (f : SnapshotFile) (m : MemoryStore) :
    Spared f m m := ⟨rfl, rfl⟩

theorem Spared.trans {m m' m'' : MemoryStore} (h : Spared f m m')
    (h' : Spared f m' m'') :
    Spared f m m'' := by
  refine ⟨?_, h'.contents_eq.trans h.contents_eq⟩
  rw [h'.store_eq, h.store_eq]

/-- A store that restores does not start on a file that cannot be read,
and stays as it is. -/
theorem exists_start_eq_error (hfile : m.file = some f)
    (hopen : f.isOpen = true)
    (hbytes : m.site.disk.contents? f.place = some bytes)
    (hrestores : m.restores = true) (hblank : ¬ IsBlank bytes)
    (hrefused : ∀ s, Samples.ofJson bytes ≠ .ok s) (now : Nat) :
    ∃ e, m.start now = (.error (.json e), m) := by
  obtain ⟨result, samples, hrestore, hcase⟩ :=
    exists_restores hfile hopen hbytes
  cases hcase with
  | blank hall => exact absurd hall hblank
  | replaced _ _ hdecoded => exact absurd hdecoded (hrefused _)
  | @refused e _ _ =>
      refine ⟨e, ?_⟩
      have hget : (get : StoreM MemoryStore MemoryStore) m = (.ok m, m) := rfl
      unfold start
      rw [run_bind_of_eq_ok hget]
      simp only [hfile, hrestores, Option.isNone_some]
      exact run_bind_of_eq_error hrestore _

/-- While it is spared, the store refuses to start. -/
theorem refuses_component (hfile : m.file = some f) (hopen : f.isOpen = true)
    (hbytes : m.site.disk.contents? f.place = some bytes)
    (hrestores : m.restores = true) (hblank : ¬ IsBlank bytes)
    (hrefused : ∀ s, Samples.ofJson bytes ≠ .ok s) (now : Nat) :
    Supervisor.Refuses (fun world : MemoryStore × τ => Spared f m world.1)
      (component now) := by
  rintro ⟨m', others⟩ (hspared : Spared f m m')
  have hfile' : m'.file = some f := by
    rw [hspared.store_eq]
    exact hfile
  have hrestores' : m'.restores = true := by
    rw [hspared.store_eq]
    exact hrestores
  obtain ⟨e, he⟩ := exists_start_eq_error hfile' hopen
    (hspared.contents_eq.trans hbytes) hrestores' hblank hrefused now
  have hstart : (component now).start (m', others) =
      ⟨.error (StorageError.json e).message, (m', others), none⟩ := by
    simp only [component, he, Except.mapError]
  rw [hstart]
  exact ⟨hspared, _, rfl⟩

/-- A restore reads the file and changes nothing but the samples, which are all
those of the document if it can be read, and stay as they are if the file is
blank or cannot be read.  In the last case a run with the store among its
components ends with an error, and the samples and the file are as they were,
wherever the store stands and whatever the others answer. -/
theorem restored_whole_or_not_at_all (hfile : m.file = some f)
    (hopen : f.isOpen = true)
    (hbytes : m.site.disk.contents? f.place = some bytes) :
    (∃ result samples, restore m = (result, { m with samples }) ∧
      Restores bytes m.samples result samples) ∧
    (m.restores = true → ¬ IsBlank bytes → (∀ s, Samples.ofJson bytes ≠ .ok s) →
      ∀ {τ : Type} (components :
        List (Component (MemoryStore × τ))) (requested : Option Nat)
          (horizon : Nat) (others : τ),
          (∀ c ∈ components, (∃ now, c = component now) ∨ Spares f c) →
        (∃ now, component now ∈ components) →
        let r := Supervisor.run components requested horizon (m, others)
        (∃ e, r.result = some (.error e)) ∧
          r.state.world.1.samples = m.samples ∧
          r.state.world.1.site.disk.contents? f.place = some bytes) := by
  refine ⟨exists_restores hfile hopen hbytes, ?_⟩
  intro hrestores hblank hrefused τ components requested horizon others
    hall hmem
  have hrefuses (now : Nat) : Supervisor.Refuses
      (fun world : MemoryStore × τ => Spared f m world.1) (component now) :=
    refuses_component hfile hopen hbytes hrestores hblank hrefused now
  have hkeeps : ∀ c ∈ components,
      Supervisor.Keeps (fun world : MemoryStore × τ => Spared f m world.1) c ∨
        Supervisor.Refuses
          (fun world : MemoryStore × τ => Spared f m world.1) c := by
    intro c hc
    rcases hall c hc with ⟨now, rfl⟩ | hspares
    · exact .inr (hrefuses now)
    · refine .inl fun world hworld => ?_
      exact ⟨hworld.trans (hspares world).1, hworld.trans (hspares world).2⟩
  obtain ⟨now, hnow⟩ := hmem
  obtain ⟨herror, hspared⟩ := Supervisor.run_of_refuses hkeeps
    ⟨component now, hnow, hrefuses now⟩ requested horizon (m, others)
    (Spared.refl f m)
  refine ⟨herror, ?_, hspared.contents_eq.trans hbytes⟩
  rw [hspared.store_eq]

/-- A snapshot that breaks off, behind a component that asks for shutdown as
soon as it starts and cannot be stopped. -/
theorem restored_whole_or_not_at_all_damaged :
    let f : SnapshotFile := ⟨"metrics-db.json", ["metrics-db.json"], true⟩
    let bytes : Bytes := Json.literal "\x7b\"gauge\":"
    let m : MemoryStore :=
      { ofFile (some f) 5000 true ⟨⟨[(f.place, .file bytes)]⟩, .empty⟩ with
        samples := .ofLists [] [("PollCount", 7)] }
    let gate : Component (MemoryStore × Nat) :=
      ⟨"gate", fun (m, n) => ⟨.ok (), (m, n + 1), some 0⟩,
        fun world => (.error "busy", world)⟩
    m.file = some f ∧ f.isOpen = true ∧
      m.site.disk.contents? f.place = some bytes ∧
      m.restores = true ∧ ¬ IsBlank bytes ∧
      (∀ s, Samples.ofJson bytes ≠ .ok s) ∧
      (∃ e, restore m = (.error e, m)) ∧
      let r := Supervisor.run [gate, component 0, gate] none 1000 (m, 0)
      (∃ e, r.result = some (.error e)) ∧ r.state.world.1.samples = m.samples ∧
        r.state.world.1.site.disk.contents? f.place = some bytes := by
  intro f bytes m gate
  have hblank : ¬ IsBlank bytes :=
    fun hall => absurd (hall 0x7B (by decide)) (by decide)
  have hrefused : ∀ s, Samples.ofJson bytes ≠ .ok s := by
    intro s hdecoded
    nomatch hdecoded
  have hgate : Spares f gate := fun world => ⟨⟨rfl, rfl⟩, ⟨rfl, rfl⟩⟩
  have hfile : m.file = some f := rfl
  have hbytes : m.site.disk.contents? f.place = some bytes := rfl
  obtain ⟨⟨result, samples, hrestore, hcase⟩, hrun⟩ :=
    restored_whole_or_not_at_all hfile rfl hbytes
  refine ⟨hfile, rfl, hbytes, rfl, hblank, hrefused, ?_, ?_⟩
  · cases hcase with
    | blank hall => exact absurd hall hblank
    | replaced _ _ hdecoded => exact absurd hdecoded (hrefused _)
    | @refused e _ _ => exact ⟨.json e, hrestore⟩
  · refine hrun rfl hblank hrefused [gate, component 0, gate] none 1000 0 ?_
      ⟨0, by simp⟩
    intro c hc
    rcases List.mem_cons.mp hc with rfl | hc
    · exact .inr hgate
    · rcases List.mem_cons.mp hc with rfl | hc
      · exact .inl ⟨0, rfl⟩
      · obtain rfl := List.mem_singleton.mp hc
        exact .inr hgate

end MemoryStore

end Telemetry
