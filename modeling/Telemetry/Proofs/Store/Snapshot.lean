import Telemetry.Store.Snapshot
import Telemetry.Proofs.Json.Container
import Telemetry.Proofs.Json.Spelling
import Telemetry.Proofs.NameMap

/-!
# Snapshots are read back

A snapshot whose gauges read back one by one reads back as a whole, in whatever
order its members were written: every name of a map occurs once, so that the map
that is built from a listing of its pairs is the map itself.
-/

namespace Telemetry

namespace Samples

open Json

/-- Every gauge is finite and reads back. -/
def Legible (s : Samples) : Prop :=
  ∀ entry ∈ s.gauges.entries, entry.2.isFinite = true ∧ Readable entry.2

theorem joinMembers_eq {α : Type} (write : α → Bytes)
    (entries : List (String × α)) :
    joinMembers write entries = writeEntries write true entries := by
  have hcomma : literal "," = [0x2C] := by decide
  have hcolon : literal ":" = [0x3A] := by decide
  have htail (entry : String × α) (rest : List (String × α)) :
      joinMembers write (entry :: rest) =
        writeText entry.1 ++ 0x3A :: write entry.2 ++
          writeEntries write false rest := by
    induction rest generalizing entry with
    | nil => simp [joinMembers, writeEntries, hcolon]
    | cons next rest ih =>
        rw [joinMembers, ih next, hcomma, hcolon]
        · simp [writeEntries, separator]
        · simp
  cases entries with
  | nil => rfl
  | cons entry rest =>
      rw [htail]
      simp [writeEntries, separator]

theorem sectionJson_eq {α : Type} (write : α → Bytes)
    (entries : List (String × α)) :
    sectionJson write entries =
      0x7B :: writeEntries write true entries ++ [0x7D] := by
  have hopen : literal "\x7b" = [0x7B] := by decide
  have hclose : literal "\x7d" = [0x7D] := by decide
  rw [sectionJson, joinMembers_eq, hopen, hclose]
  rfl

theorem reads_section {α : Type}
    {read : Cursor → Except Json.Error (α × Cursor)} {write : α → Bytes}
    {value : α → α} {entries : List (String × α)}
    (h : ∀ entry ∈ entries, Reads read (write entry.2) (value entry.2)) :
    Reads (readSection read) (sectionJson write entries)
      (entries.map fun entry => (entry.1, value entry.2)) := by
  rw [sectionJson_eq]
  exact reads_mapOf h "a map"

theorem step_counter {bytes : Bytes} {counters : List (String × Int64)}
    (h : Reads (readSection Cursor.int64) bytes counters) {s : Sections}
    (hnew : s.counters = .none) {rest : Bytes} (hrest : Delimited rest)
    (p : Position) :
    ∃ q, s.step "counter" ⟨0x3A :: bytes ++ rest, p⟩ =
      .ok ({ s with counters := some counters }, ⟨rest, q⟩) := by
  obtain ⟨q, hq⟩ := h.member "counter" hrest p
  refine ⟨q, ?_⟩
  simp only [Sections.step, hnew, hq, if_true, bind, Except.bind, pure,
    Except.pure]

theorem step_gauge {bytes : Bytes} {gauges : List (String × Binary64)}
    (h : Reads (readSection Cursor.real) bytes gauges) {s : Sections}
    (hnew : s.gauges = .none) {rest : Bytes} (hrest : Delimited rest)
    (p : Position) :
    ∃ q, s.step "gauge" ⟨0x3A :: bytes ++ rest, p⟩ =
      .ok ({ s with gauges := some gauges }, ⟨rest, q⟩) := by
  obtain ⟨q, hq⟩ := h.member "gauge" hrest p
  refine ⟨q, ?_⟩
  simp only [Sections.step, hnew, hq, (by decide : "gauge" ≠ "counter"),
    if_true, if_false, bind, Except.bind, pure, Except.pure]

/-- In whatever order it was written, a snapshot is read with every gauge as its
digits are read. -/
theorem reads_writeJson {s : Samples} {counters : List (String × Int64)}
    {gauges : List (String × Binary64)} {reread : Binary64 → Binary64}
    (hcounters : s.counters.Lists counters) (hgauges : s.gauges.Lists gauges)
    (h : ∀ entry ∈ s.gauges.entries,
      Reads Cursor.real (writeReal entry.2) (reread entry.2)) :
    Reads Samples.read (writeJson counters gauges)
      ⟨s.gauges.map reread, s.counters⟩ := by
  have htotals : Reads (readSection Cursor.int64)
      (sectionJson writeInt64 counters) counters := by
    have hentries : ∀ entry ∈ counters,
        Reads Cursor.int64 (writeInt64 entry.2) (id entry.2) :=
      fun entry _ => reads_int64 entry.2
    have hsame := reads_section hentries
    simpa using hsame
  have hvalues := reads_section fun entry hentry =>
    h entry (hgauges.perm.mem_iff.mp hentry)
  have hmembers : Members Sections.step true Sections.none
      (separator true ++ writeText "counter" ++
          0x3A :: sectionJson writeInt64 counters ++
        (separator false ++ writeText "gauge" ++
          0x3A :: sectionJson writeReal gauges ++ []))
      ⟨some counters, some (gauges.map fun g => (g.1, reread g.2))⟩ :=
    .cons (fun rest p hrest => step_counter htotals rfl hrest p)
      (.cons (fun rest p hrest => step_gauge hvalues rfl hrest p)
        (.nil false _))
  have hsamples :
      Sections.samples
          ⟨some counters, some (gauges.map fun g => (g.1, reread g.2))⟩ =
        ⟨s.gauges.map reread, s.counters⟩ := by
    rw [Sections.samples, Option.getD_some, Option.getD_some,
      (hgauges.map reread).ofList_eq, hcounters.ofList_eq]
  intro rest p _
  obtain ⟨q, hq⟩ := hmembers.object (fun s => .ok s.samples) rfl rest p
  have hopen : literal "\x7b\"counter\":" =
      0x7B :: (writeText "counter" ++ [0x3A]) := by decide
  have hnext : literal ",\"gauge\":" =
      0x2C :: (writeText "gauge" ++ [0x3A]) := by decide
  have hclose : literal "\x7d" = [0x7D] := by decide
  refine ⟨q, ?_⟩
  simp only [writeJson, hopen, hnext, hclose]
  rw [hsamples] at hq
  simp only [separator, if_true, Bool.false_eq_true, if_false,
    List.cons_append, List.append_assoc, List.nil_append] at hq ⊢
  have hlist (bytes : Bytes) : Cursor.sees ⟨0x7B :: bytes, p⟩ 0x5B = false :=
    rfl
  have hobject (bytes : Bytes) : Cursor.sees ⟨0x7B :: bytes, p⟩ 0x7B = true :=
    rfl
  simp only [Samples.read, token_cons (by decide : Cursor.isSpace 0x7B = false),
    hlist, hobject, hq, if_true, Bool.false_eq_true, if_false, bind,
    Except.bind]

/-- Legible samples are read back from a document that lists them in any
order. -/
theorem ofJson_writeJson {s : Samples} {counters : List (String × Int64)}
    {gauges : List (String × Binary64)} (h : s.Legible)
    (hcounters : s.counters.Lists counters)
    (hgauges : s.gauges.Lists gauges) :
    ofJson (writeJson counters gauges) = .ok s := by
  have hentries : ∀ entry ∈ s.gauges.entries,
      Reads Cursor.real (writeReal entry.2) (id entry.2) :=
    fun entry hentry => (h entry hentry).2.reads (h entry hentry).1
  have hreads := reads_writeJson hcounters hgauges hentries
  rw [NameMap.map_id] at hreads
  exact hreads.document

/-- A legible snapshot is read back. -/
theorem ofJson_toJson {s : Samples} (h : s.Legible) : ofJson s.toJson = .ok s :=
  ofJson_writeJson h (.entries _) (.entries _)

end Samples

end Telemetry
