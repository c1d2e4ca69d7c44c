import Mathlib.Data.List.Pairwise
import Mathlib.Data.Prod.Lex
import Telemetry.Proofs.Page

/-!
# The order of the index page

The lines of a page ascend, and a line is a name, a colon and a value.  The
names ascend with the lines unless one name goes on after another.  Then what
follows is compared with the colon, and a digit, a dot, a dash or a slash stands
before it.
-/

namespace Telemetry.Page

/-! ## Texts that begin alike -/

theorem append_le_append_left_iff (s t u : String) :
    s ++ t ≤ s ++ u ↔ t ≤ u := by
  have hchars (cs ds es : List Char) : cs ++ ds < cs ++ es ↔ ds < es := by
    induction cs with
    | nil => rfl
    | cons c cs ih => simp [ih]
  rw [← not_lt, ← not_lt, String.lt_iff_toList_lt, String.toList_append,
    String.toList_append, hchars, ← String.lt_iff_toList_lt]

theorem lt_append {rest : String} (h : rest ≠ "") (s : String) :
    s < s ++ rest := by
  have hrest : "" < rest := by
    obtain ⟨c, tail, hchars⟩ :=
      List.exists_cons_of_ne_nil (mt String.toList_eq_nil_iff.mp h)
    rw [String.lt_iff_toList_lt, hchars]
    exact List.nil_lt_cons c tail
  have hnot := mt (append_le_append_left_iff s rest "").mp hrest.not_ge
  rw [String.append_empty] at hnot
  exact not_le.mp hnot

/-- A lesser text is the front of a greater one, or they differ in what no
continuation changes. -/
theorem exists_append_or_append_lt {s t : String} (h : s < t) :
    (∃ rest, t = s ++ rest) ∨ ∀ u v, s ++ u < t ++ v := by
  have hchars {cs ds : List Char} (h : List.Lex (· < ·) cs ds) :
      cs <+: ds ∨ ∀ us vs, cs ++ us < ds ++ vs := by
    induction h with
    | nil => exact .inl List.nil_prefix
    | rel hlt => exact .inr fun us vs => List.Lex.rel hlt
    | cons _ ih =>
        rcases ih with hfront | hlt
        · exact .inl ((List.prefix_cons_inj _).mpr hfront)
        · exact .inr fun us vs => List.Lex.cons (hlt us vs)
  rcases hchars (String.lt_iff_toList_lt.mp h) with ⟨rest, hrest⟩ | hlt
  · left
    refine ⟨String.ofList rest, ?_⟩
    rw [← String.toList_inj, String.toList_append, String.toList_ofList, hrest]
  · right
    intro u v
    rw [String.lt_iff_toList_lt, String.toList_append, String.toList_append]
    exact hlt _ _

/-- What follows a name, where another name goes on with something
else than a colon. -/
theorem separator_le_iff {rest : String} {c : Char}
    (hfirst : rest.toList.head? = some c) (hc : c ≠ ':')
    (value value' : String) :
    ": " ++ value ≤ rest ++ (": " ++ value') ↔ ':' < c := by
  obtain ⟨tail, hrest⟩ := List.head?_eq_some_iff.mp hfirst
  have hlt : rest ++ (": " ++ value') < ": " ++ value ↔ c < ':' := by
    simp only [String.lt_iff_toList_lt, String.toList_append, hrest]
    exact List.cons_lt_cons_iff.trans (or_iff_left fun heq => hc heq.1)
  rw [← not_lt, hlt, not_lt, lt_iff_le_and_ne]
  exact (and_iff_left hc.symm).symm

/-! ## Samples in the order of their names -/

/-- The names of all samples and the texts of their values. -/
def entries (gauges : List (String × Binary64))
    (counters : List (String × Int64)) : List (String × String) :=
  gauges.map (fun g => (g.1, g.2.toText)) ++ counters.map fun c =>
    (c.1, Text.int64Text c.2)

def entryLine (entry : String × String) : String := line entry.1 entry.2

theorem entryLine_eq (entry : String × String) :
    entryLine entry = entry.1 ++ (": " ++ entry.2) :=
  String.append_assoc

/-- The page lists entries in ascending order of their names. -/
def ListsByName (page : String) (es : List (String × String)) : Prop :=
  ∃ listed : List (String × String), listed.Perm es ∧
    listed.Pairwise (fun a b => a.1 ≤ b.1) ∧
    page = opening ++ items (listed.map entryLine) ++ closing

theorem map_entryLine_entries (gauges : List (String × Binary64))
    (counters : List (String × Int64)) :
    (entries gauges counters).map entryLine =
      gauges.map (fun g => line g.1 g.2.toText) ++
        counters.map fun c => line c.1 (Text.int64Text c.2) := by
  unfold entries
  rw [List.map_append, List.map_map, List.map_map]
  rfl

/-- The entries by their names, and those of one name by their lines. -/
theorem exists_listed (es : List (String × String)) :
    ∃ listed : List (String × String), listed.Perm es ∧
      listed.Pairwise fun a b => a.1 < b.1 ∨ a.1 = b.1 ∧
        entryLine a ≤ entryLine b := by
  let key (e : String × String) : String ×ₗ String := toLex (e.1, entryLine e)
  refine ⟨es.mergeSort fun a b => decide (key a ≤ key b),
    List.mergeSort_perm _ _, ?_⟩
  exact (pairwise_mergeSort_key key es).imp Prod.Lex.toLex_le_toLex.mp

/-- Where a name goes on after another, the line of the shorter one stands
before that of the longer one. -/
def ShorterFirst (es : List (String × String)) : Prop :=
  ∀ a ∈ es, ∀ b ∈ es, ∀ rest, rest ≠ "" → b.1 = a.1 ++ rest →
    ": " ++ a.2 ≤ rest ++ (": " ++ b.2)

theorem entryLine_le_iff {a b : String × String} {rest : String}
    (h : b.1 = a.1 ++ rest) :
    entryLine a ≤ entryLine b ↔ ": " ++ a.2 ≤ rest ++ (": " ++ b.2) := by
  rw [entryLine_eq, entryLine_eq, h, String.append_assoc,
    append_le_append_left_iff]

theorem ShorterFirst.of_entryLine_le {es : List (String × String)}
    (h : ∀ a ∈ es, ∀ b ∈ es, a.1 < b.1 → entryLine a ≤ entryLine b) :
    ShorterFirst es := by
  intro a ha b hb rest hne hrest
  have hlt : a.1 < b.1 := by
    rw [hrest]
    exact lt_append hne a.1
  exact (entryLine_le_iff hrest).mp (h a ha b hb hlt)

theorem ShorterFirst.entryLine_le {es : List (String × String)}
    {a b : String × String} (h : ShorterFirst es) (ha : a ∈ es) (hb : b ∈ es)
    (hlt : a.1 < b.1) :
    entryLine a ≤ entryLine b := by
  rcases exists_append_or_append_lt hlt with ⟨rest, hrest⟩ | hdiffer
  · have hne : rest ≠ "" := by
      rintro rfl
      rw [String.append_empty] at hrest
      exact hlt.ne hrest.symm
    exact (entryLine_le_iff hrest).mpr (h a ha b hb rest hne hrest)
  · rw [entryLine_eq, entryLine_eq]
    exact (hdiffer _ _).le

/-- In a list that is in the order of the names and of the lines, a lesser name
has no greater line. -/
theorem entryLine_le_of_mem {listed : List (String × String)}
    {a b : String × String} (hnames : listed.Pairwise fun a b => a.1 ≤ b.1)
    (hlines : listed.Pairwise fun a b => entryLine a ≤ entryLine b)
    (ha : a ∈ listed) (hb : b ∈ listed) (hlt : a.1 < b.1) :
    entryLine a ≤ entryLine b := by
  let R (a b : String × String) : Prop := a.1 < b.1 → entryLine a ≤ entryLine b
  have hself : ∀ a ∈ listed, R a a := fun a _ hlt => absurd hlt (lt_irrefl a.1)
  have hafter : listed.Pairwise R := hlines.imp (S := R) fun hle => fun _ => hle
  have hbefore : listed.Pairwise (flip R) :=
    hnames.imp (S := flip R) fun hle hgt => absurd hgt hle.not_gt
  exact hafter.forall_of_forall_of_flip hself hbefore ha hb hlt

section

variable {gauges : List (String × Binary64)} {counters : List (String × Int64)}

theorem ListsByName.shorterFirst
    (h : ListsByName (opening ++ items (lines gauges counters) ++ closing)
      (entries gauges counters)) : ShorterFirst (entries gauges counters) := by
  obtain ⟨listed, hperm, hnames, hpage⟩ := h
  have hitems : items (lines gauges counters) = items (listed.map entryLine) :=
    (String.append_right_inj opening).mp
      ((String.append_left_inj closing).mp hpage)
  have hlisted : lines gauges counters = listed.map entryLine := by
    rw [← readItems_items (lines gauges counters), hitems, readItems_items]
  have hlines : listed.Pairwise fun a b => entryLine a ≤ entryLine b := by
    rw [← List.pairwise_map, ← hlisted]
    exact lines_ascending gauges counters
  exact .of_entryLine_le fun a ha b hb =>
    entryLine_le_of_mem hnames hlines (hperm.mem_iff.mpr ha)
      (hperm.mem_iff.mpr hb)

theorem ShorterFirst.listsByName (h : ShorterFirst (entries gauges counters)) :
    ListsByName (opening ++ items (lines gauges counters) ++ closing)
      (entries gauges counters) := by
  obtain ⟨listed, hperm, hsorted⟩ := exists_listed (entries gauges counters)
  have hnames : listed.Pairwise fun a b => a.1 ≤ b.1 := by
    refine hsorted.imp ?_
    rintro a b (hlt | ⟨heq, -⟩)
    · exact hlt.le
    · exact heq.le
  have hlines : (listed.map entryLine).Pairwise (· ≤ ·) := by
    rw [List.pairwise_map]
    refine hsorted.imp_of_mem ?_
    rintro a b ha hb (hlt | ⟨-, hle⟩)
    · exact h.entryLine_le (hperm.mem_iff.mp ha) (hperm.mem_iff.mp hb) hlt
    · exact hle
  have hlisted : (lines gauges counters).Perm (listed.map entryLine) := by
    refine (lines_perm gauges counters).trans ?_
    rw [← map_entryLine_entries]
    exact (hperm.map entryLine).symm
  refine ⟨listed, hperm, hnames, ?_⟩
  rw [hlisted.eq_of_pairwise (fun _ _ _ _ => le_antisymm)
    (lines_ascending gauges counters) hlines]

end

/-- The page of a store with these samples is in the order of their names if
and only if every name stands before those that go on after it; what goes on
with a character before the colon never does, and what goes on with a character
after it always does. -/
theorem rendered_by_name_iff (gauges : List (String × Binary64))
    (counters : List (String × Int64)) :
    (∀ (σ : Type) [SampleStore σ] (s t u : σ),
      SampleStore.gauges s = (.ok gauges, t) →
      SampleStore.counters t = (.ok counters, u) →
      ∃ page, render s = (.ok page, u) ∧
        (ListsByName page (entries gauges counters) ↔
          ShorterFirst (entries gauges counters))) ∧
    ∀ (rest : String) (c : Char), rest.toList.head? = some c → c ≠ ':' →
      ∀ value value' : String, ": " ++ value ≤ rest ++ (": " ++ value') ↔
        ':' < c := by
  refine ⟨?_, fun rest c => separator_le_iff⟩
  intro σ _ s t u hgauges hcounters
  exact ⟨_, render_eq hgauges hcounters, fun h => h.shorterFirst,
    fun h => h.listsByName⟩

/-- A name that goes on with a letter is listed after the shorter one, and a
counter among the gauges. -/
theorem rendered_by_name_with_letters :
    let m : MemoryStore :=
      { MemoryStore.ephemeral .empty with
        samples := .ofLists [("CPUload", .ofNat 7), ("CPU", .ofNat 1)]
          [("CPUs", 4)] }
    let gauges := [("CPU", Binary64.ofNat 1), ("CPUload", .ofNat 7)]
    let counters := [("CPUs", (4 : Int64))]
    SampleStore.gauges m = (.ok gauges, m) ∧
      SampleStore.counters m = (.ok counters, m) ∧
      ∃ page, render m = (.ok page, m) ∧
        ListsByName page (entries gauges counters) := by
  intro m gauges counters
  have hgauges : SampleStore.gauges m = (.ok gauges, m) := rfl
  have hcounters : SampleStore.counters m = (.ok counters, m) := rfl
  obtain ⟨page, hpage, hiff⟩ :=
    (rendered_by_name_iff gauges counters).1 _ m m m hgauges hcounters
  have hlines : ∀ a ∈ entries gauges counters, ∀ b ∈ entries gauges counters,
      a.1 < b.1 → entryLine a ≤ entryLine b := by
    decide +kernel
  exact ⟨hgauges, hcounters, page, hpage, hiff.mpr (.of_entryLine_le hlines)⟩

/-- A name that goes on with a digit is listed before the shorter one. -/
theorem longer_name_listed_first :
    let m : MemoryStore :=
      { MemoryStore.ephemeral .empty with
        samples :=
          (Samples.empty.setGauge "CPU" (.ofNat 1)).setGauge "CPU1" (.ofNat 1) }
    ∃ page, render m = (.ok page, m) ∧
      ¬ListsByName page
        (entries m.samples.gauges.entries m.samples.counters.entries) := by
  intro m
  have hgauges :
      m.samples.gauges.entries = [("CPU", .ofNat 1), ("CPU1", .ofNat 1)] := by
    decide +kernel
  have hcounters : m.samples.counters.entries = [] := rfl
  refine ⟨_, render_eq (s := m) rfl rfl, ?_⟩
  rw [hgauges, hcounters]
  intro h
  have hle := h.shorterFirst ("CPU", (Binary64.ofNat 1).toText)
    (by simp [entries]) ("CPU1", (Binary64.ofNat 1).toText)
    (by simp [entries]) "1" (by decide) rfl
  exact absurd ((separator_le_iff (c := '1') rfl (by decide) _ _).mp hle)
    (by decide)

end Telemetry.Page
