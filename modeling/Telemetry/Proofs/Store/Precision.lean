import Telemetry.Proofs.Store.Saving

/-!
# How exactly a snapshot keeps samples

A store that opens the file of a save and restores from it takes over what the
snapshot is read as.  That is every counter as it was, and every gauge as its
digits are read: as it was if it has few of them, and otherwise perhaps as a
number next to it.
-/

namespace Telemetry

namespace Samples

/-- The second samples have the names and the counters of the first ones, and
gauges that are close to theirs. -/
structure Resembles (s back : Samples) : Prop where
  counters : back.counters = s.counters
  absent : ∀ name, s.gauges.find? name = none → back.gauges.find? name = none
  gauge : ∀ name x, s.gauges.find? name = some x →
    ∃ y, back.gauges.find? name = some y ∧ Json.Resembles x y ∧
      (Json.IsShort x → y = x)

/-- The samples with every gauge as its digits are read. -/
def reread (s : Samples) : Samples := ⟨s.gauges.map Json.reread, s.counters⟩

variable {s : Samples}

/-- The order in which the samples were written does not matter. -/
theorem ofJson_writeJson_reread {counters : List (String × Int64)}
    {gauges : List (String × Binary64)}
    (hfinite : ∀ entry ∈ s.gauges.entries, entry.2.isFinite = true)
    (hcounters : s.counters.Lists counters)
    (hgauges : s.gauges.Lists gauges) :
    Samples.ofJson (writeJson counters gauges) = .ok s.reread := by
  have hreads := reads_writeJson hcounters hgauges fun entry hentry =>
    Json.reads_writeReal (hfinite entry hentry)
  exact hreads.document

theorem ofJson_toJson_reread
    (hfinite : ∀ entry ∈ s.gauges.entries, entry.2.isFinite = true) :
    Samples.ofJson s.toJson = .ok s.reread :=
  ofJson_writeJson_reread hfinite (.entries _) (.entries _)

theorem resembles_reread
    (hfinite : ∀ entry ∈ s.gauges.entries, entry.2.isFinite = true) :
    s.Resembles s.reread := by
  refine ⟨rfl, fun name hnone => ?_, fun name x hx =>
    ⟨Json.reread x, ?_, ?_, ?_⟩⟩
  · rw [reread, NameMap.find?_map, hnone, Option.map_none]
  · rw [reread, NameMap.find?_map, hx, Option.map_some]
  · exact Json.resembles_reread (hfinite _ (NameMap.mem_entries_of_find? hx))
  · intro hshort
    exact Json.reread_of_isShort hshort
      (hfinite _ (NameMap.mem_entries_of_find? hx))

/-- Samples are kept exactly when the digits of each gauge are
read as that gauge. -/
theorem reread_eq_iff
    (hfinite : ∀ entry ∈ s.gauges.entries, entry.2.isFinite = true) :
    s.reread = s ↔ s.Legible := by
  constructor
  · intro hsame entry hentry
    refine ⟨hfinite entry hentry,
      (Json.readable_iff_reread (hfinite entry hentry)).mpr ?_⟩
    have hfind : s.gauges.find? entry.1 = some entry.2 :=
      NameMap.find?_of_mem_entries hentry
    have hback :
        s.reread.gauges.find? entry.1 = some (Json.reread entry.2) := by
      rw [reread, NameMap.find?_map, hfind, Option.map_some]
    rw [hsame, hfind] at hback
    exact (Option.some.inj hback).symm
  · intro hlegible
    have hback := ofJson_toJson_reread hfinite
    rw [ofJson_toJson hlegible] at hback
    exact (Except.ok.inj hback).symm

end Samples

namespace MemoryStore

variable {path : String} {f : SnapshotFile} {m : MemoryStore}

/-- A new store on the file of a save restores what the saved
document is read as. -/
theorem exists_restored (hfile : m.file = some f)
    (hsettled : f.Settled m.site.disk path) {back : Samples}
    (hback : Samples.ofJson m.samples.toJson = .ok back) (interval : Nat)
    (restores : Bool) :
    ∃ saved fresh restored, save m = (.ok (), saved) ∧
      saved.samples = m.samples ∧
      new ⟨some path, interval, restores⟩ saved.site = .ok fresh ∧
      restore fresh = (.ok (), restored) ∧ restored.samples = back := by
  have hsaved := hsettled.put m.capture
  have hnonempty : path.isEmpty = false := by
    obtain ⟨r, -, hroute, -⟩ := hsettled.exists_way
    by_contra hempty
    have hempty : path = "" := by simpa using hempty
    subst hempty
    cases hroute
  let site : Site :=
    { m.site with disk := m.site.disk.put f.place (.file m.capture) }
  let fresh := ofFile (some f) interval restores site
  have hnew : new ⟨some path, interval, restores⟩ site = .ok fresh := by
    simp [new, Option.filter, hnonempty, site, fresh, hsaved.openAt_eq]
  have hload : f.load fresh.site.disk = .ok m.capture := by
    simp [SnapshotFile.load_eq, hsettled.isOpen, fresh, ofFile, site,
      hsettled.contents?_put]
  have hrestore : restore fresh = (.ok (), { fresh with samples := back }) := by
    have hrestored : restored fresh.samples m.capture = .ok back :=
      restored_eq hback _
    have hopened : fresh.file = some f := rfl
    simp [restore, hopened, hload, hrestored]
  exact ⟨_, fresh, _, save_eq hfile hsettled.isOpen, rfl, hnew, hrestore, rfl⟩

/-- A save and a restore in a new store on the same file succeed and lose no
name and no count; each finite gauge comes back at most three numbers away from
what it was, and all of them come back as they were exactly when the digits of
each are read as that gauge. -/
theorem restored_resembles (hfile : m.file = some f)
    (hsettled : f.Settled m.site.disk path)
    (hfinite : ∀ entry ∈ m.samples.gauges.entries, entry.2.isFinite = true)
    (interval : Nat) (restores : Bool) :
    ∃ saved fresh restored, save m = (.ok (), saved) ∧
      saved.samples = m.samples ∧
      new ⟨some path, interval, restores⟩ saved.site = .ok fresh ∧
      restore fresh = (.ok (), restored) ∧
      m.samples.Resembles restored.samples ∧
      (restored.samples = m.samples ↔ m.samples.Legible) := by
  obtain ⟨saved, fresh, restored, hsave, hkept, hnew, hrestore, hsamples⟩ :=
    exists_restored hfile hsettled (Samples.ofJson_toJson_reread hfinite)
      interval restores
  refine ⟨saved, fresh, restored, hsave, hkept, hnew, hrestore, ?_, ?_⟩
  · rw [hsamples]
    exact Samples.resembles_reread hfinite
  · rw [hsamples]
    exact Samples.reread_eq_iff hfinite

/-- A fraction, the negative zero and the least number of all come
back as they were. -/
theorem restored_readable :
    let f : SnapshotFile := ⟨"metrics-db.json", ["metrics-db.json"], true⟩
    let gauges : List (String × Binary64) :=
      [("Alloc", ⟨0x3FF8000000000000⟩), ("Frees", Binary64.zero.negate),
        ("Load", ⟨1⟩)]
    let m : MemoryStore :=
      { ofFile (some f) 0 true ⟨⟨[(f.place, .file [])]⟩, .empty⟩ with
        samples := .ofLists gauges [("PollCount", 7)] }
    m.file = some f ∧ f.Settled m.site.disk "metrics-db.json" ∧
      (∀ entry ∈ m.samples.gauges.entries, entry.2.isFinite = true) ∧
      ∃ saved fresh restored, save m = (.ok (), saved) ∧
        new ⟨some "metrics-db.json", 0, true⟩ saved.site = .ok fresh ∧
        restore fresh = (.ok (), restored) ∧ restored.samples = m.samples := by
  intro f gauges m
  have hopen : SnapshotFile.openAt Site.empty.disk "metrics-db.json" =
      .ok (f, m.site.disk) := rfl
  have hsettled := SnapshotFile.settled_of_openAt hopen
  have hentries : m.samples.gauges.entries = gauges := rfl
  have hlegible : m.samples.Legible := by
    have hall :
        ∀ entry ∈ gauges, entry.2.isFinite = true ∧ Json.Readable entry.2 := by
      decide +kernel
    rwa [Samples.Legible, hentries]
  have hfinite : ∀ entry ∈ m.samples.gauges.entries, entry.2.isFinite = true :=
    fun entry hentry => (hlegible entry hentry).1
  obtain ⟨saved, fresh, restored, hsave, -, hnew, hrestore, -, hiff⟩ :=
    restored_resembles (m := m) (f := f) rfl hsettled hfinite 0 true
  exact ⟨rfl, hsettled, hfinite, saved, fresh, restored, hsave, hnew, hrestore,
    hiff.mpr hlegible⟩

/-- A whole number of 53 bits comes back as the number below it: with the zero
after its point it is read as an integer that has no exact binary64 number. -/
theorem restored_below :
    let f : SnapshotFile := ⟨"metrics-db.json", ["metrics-db.json"], true⟩
    let m : MemoryStore :=
      { ofFile (some f) 0 true ⟨⟨[(f.place, .file [])]⟩, .empty⟩ with
        samples := .ofLists [("Alloc", .ofNat 9007199254740991)] [] }
    m.file = some f ∧ f.Settled m.site.disk "metrics-db.json" ∧
      (∀ entry ∈ m.samples.gauges.entries, entry.2.isFinite = true) ∧
      ∃ saved fresh restored, save m = (.ok (), saved) ∧
        new ⟨some "metrics-db.json", 0, true⟩ saved.site = .ok fresh ∧
        restore fresh = (.ok (), restored) ∧
        restored.samples.gauges.entries = [("Alloc", .ofNat 9007199254740990)] ∧
        restored.samples ≠ m.samples := by
  intro f m
  have hopen : SnapshotFile.openAt Site.empty.disk "metrics-db.json" =
      .ok (f, m.site.disk) := rfl
  have hsettled := SnapshotFile.settled_of_openAt hopen
  have hentries :
      m.samples.gauges.entries = [("Alloc", .ofNat 9007199254740991)] := rfl
  have hfinite :
      ∀ entry ∈ m.samples.gauges.entries, entry.2.isFinite = true := by
    rw [hentries]
    decide +kernel
  have hback : m.samples.reread.gauges.entries =
      [("Alloc", .ofNat 9007199254740990)] := by
    change m.samples.gauges.entries.map
      (fun entry => (entry.1, Json.reread entry.2)) = _
    rw [hentries]
    decide +kernel
  obtain ⟨saved, fresh, restored, hsave, -, hnew, hrestore, hsamples⟩ :=
    exists_restored (m := m) (f := f) rfl hsettled
      (Samples.ofJson_toJson_reread hfinite) 0 true
  refine ⟨rfl, hsettled, hfinite, saved, fresh, restored, hsave, hnew,
    hrestore, ?_, ?_⟩
  · rw [hsamples, hback]
  · intro hsame
    rw [← hsamples, hsame, hentries] at hback
    exact absurd hback (by decide +kernel)

end MemoryStore

end Telemetry
