import Telemetry.Store.Tables
import Telemetry.Proofs.Result
import Telemetry.Proofs.Samples

/-!
# Tables that hold samples

A statement does to tables that hold samples what the same change does to the
samples: a row that is inserted or updated is a gauge that is set or a counter
that is added to, as long as the gauge is a number and the total does not leave
its range.  All that is lost is the sign of zero.
-/

namespace Telemetry

namespace Binary64

variable {x : Binary64}

/-- Two finite numbers have the same value; their zeros may differ in sign. -/
def SameNumber (x y : Binary64) : Prop :=
  x.isFinite = true ∧ y.isFinite = true ∧ x.signedUnits = y.signedUnits

theorem isNaN_of_isFinite (h : x.isFinite = true) : x.isNaN = false := by
  have hlt : x.pattern < infinityPattern := of_decide_eq_true h
  exact decide_eq_false (Nat.lt_asymm hlt)

theorem sameNumber_self (h : x.isFinite = true) : SameNumber x x := ⟨h, h, rfl⟩

theorem sameNumber_unsigned (h : x.isFinite = true) :
    SameNumber x (Tables.unsigned x) := by
  by_cases hzero : x = zero.negate
  · rw [Tables.unsigned, if_pos hzero, hzero]
    exact ⟨by decide, by decide, by decide⟩
  · rw [Tables.unsigned, if_neg hzero]
    exact sameNumber_self h

end Binary64

def InRange (i : Int) : Prop :=
  Int64.minValue.toInt ≤ i ∧ i ≤ Int64.maxValue.toInt

instance (i : Int) : Decidable (InRange i) :=
  inferInstanceAs (Decidable (_ ∧ _))

theorem InRange.toInt_ofInt {i : Int} (h : InRange i) :
    (Int64.ofInt i).toInt = i :=
  Int64.toInt_ofInt_of_le h.1 (Int.lt_of_le_sub_one h.2)

theorem addInRange?_eq {a b : Int64} (h : InRange (a.toInt + b.toInt)) :
    addInRange? a b = some (a + b) := by
  have hsum : addInRange? a b = some (Int64.ofInt (a.toInt + b.toInt)) :=
    if_pos h
  rw [hsum, Int64.ofInt_add, Int64.ofInt_toInt, Int64.ofInt_toInt]

theorem toInt_add_of_inRange {a b : Int64} (h : InRange (a.toInt + b.toInt)) :
    (a + b).toInt = a.toInt + b.toInt := by
  rw [← h.toInt_ofInt, Int64.ofInt_add, Int64.ofInt_toInt, Int64.ofInt_toInt]

namespace Tables

variable {s : Samples} {name : String} {value : Binary64} {delta : Int64}

def ofSamples (s : Samples) : Tables :=
  ⟨some (s.gauges.map unsigned), some (s.counters.map .integer)⟩

theorem upsertGauge_ofSamples (h : value.isFinite = true) :
    (ofSamples s).upsertGauge name value =
      .ok (unsigned value, ofSamples (s.setGauge name value)) := by
  have hgauges : (s.setGauge name value).gauges.map unsigned =
      (s.gauges.map unsigned).insert name (unsigned value) :=
        NameMap.map_insert _ _ _ _
  rw [upsertGauge, ofSamples, ofSamples, hgauges]
  simp only [Binary64.isNaN_of_isFinite h, Bool.false_eq_true, if_false]
  rfl

theorem upsertCounter_ofSamples
    (h : InRange ((s.total name).toInt + delta.toInt)) :
    (ofSamples s).upsertCounter name delta =
      .ok (.integer ((s.addCounter name delta).total name),
        ofSamples (s.addCounter name delta)) := by
  have hcounters : (s.addCounter name delta).counters.map TotalCell.integer =
      (s.counters.map .integer).insert name (.integer (s.total name + delta)) :=
    NameMap.map_insert _ _ _ _
  rw [Samples.total_addCounter, if_pos rfl, upsertCounter, ofSamples, ofSamples,
    hcounters]
  simp only [NameMap.find?_map]
  cases hfound : s.counters.find? name with
  | none =>
      have htotal : s.total name = 0 := by rw [Samples.total, hfound]; rfl
      rw [htotal, Int64.zero_add]
      rfl
  | some total =>
      have htotal : s.total name = total := by rw [Samples.total, hfound]; rfl
      rw [htotal] at h ⊢
      simp only [Option.map_some, TotalCell.add, addInRange?_eq h]
      rfl

theorem selectGauge_ofSamples :
    (ofSamples s).selectGauge name =
      .ok ((s.gauges.find? name).map unsigned) := by
  rw [← NameMap.find?_map]
  rfl

theorem selectCounter_ofSamples :
    (ofSamples s).selectCounter name = .ok (s.counters.find? name) := by
  rw [selectCounter, ofSamples]
  simp only [NameMap.find?_map]
  cases s.counters.find? name with
  | none => rfl
  | some total => rfl

theorem allGauges_ofSamples :
    (ofSamples s).allGauges = .ok (s.gauges.map unsigned).entries := rfl

theorem allCounters_ofSamples :
    (ofSamples s).allCounters = .ok s.counters.entries := by
  change ((s.counters.entries.map fun entry =>
      (entry.1, TotalCell.integer entry.2)).mapM
    fun entry => (entry.1, ·) <$> entry.2.read) = .ok s.counters.entries
  induction s.counters.entries with
  | nil => rfl
  | cons entry rest ih =>
      rw [List.map_cons, List.mapM_cons, ih]
      rfl

/-! ## Statements one after the other -/

def afterAll (statements : List (Tables → Except DatabaseCause Tables))
    (tables : Tables) : Except DatabaseCause Tables :=
  statements.foldlM (fun tables statement => statement tables) tables

def gaugeStatements (gauges : List (String × Binary64)) :
    List (Tables → Except DatabaseCause Tables) :=
  gauges.map fun g tables => (·.2) <$> tables.upsertGauge g.1 g.2

def counterStatements (counters : List (String × Int64)) :
    List (Tables → Except DatabaseCause Tables) :=
  counters.map fun c tables => (·.2) <$> tables.upsertCounter c.1 c.2

theorem afterAll_cons {statement : Tables → Except DatabaseCause Tables}
    {t t' : Tables} (h : statement t = .ok t')
    (rest : List (Tables → Except DatabaseCause Tables)) :
    t.afterAll (statement :: rest) = t'.afterAll rest := by
  rw [afterAll, List.foldlM_cons, h]
  rfl

/-- A statement that also returns the row it wrote. -/
theorem afterAll_snd_cons {α : Type} {a : α} {t t' : Tables}
    {upsert : Tables → Except DatabaseCause (α × Tables)}
    (h : upsert t = .ok (a, t'))
    (rest : List (Tables → Except DatabaseCause Tables)) :
    t.afterAll ((fun tables => (·.2) <$> upsert tables) :: rest) =
      t'.afterAll rest := by
  apply afterAll_cons
  rw [h]
  rfl

theorem afterAll_gaugeStatements_cons {t t' : Tables} {g : String × Binary64}
    {v : Binary64} (h : t.upsertGauge g.1 g.2 = .ok (v, t'))
    (gauges : List (String × Binary64)) :
    t.afterAll (gaugeStatements (g :: gauges)) =
      t'.afterAll (gaugeStatements gauges) :=
  afterAll_snd_cons h (gaugeStatements gauges)

theorem afterAll_counterStatements_cons {t t' : Tables} {c : String × Int64}
    {cell : TotalCell} (h : t.upsertCounter c.1 c.2 = .ok (cell, t'))
    (counters : List (String × Int64)) :
    t.afterAll (counterStatements (c :: counters)) =
      t'.afterAll (counterStatements counters) :=
  afterAll_snd_cons h (counterStatements counters)

theorem afterAll_gaugeStatements_ofSamples (s : Samples)
    {gauges : List (String × Binary64)}
    (h : ∀ g ∈ gauges, g.2.isFinite = true) :
    (ofSamples s).afterAll (gaugeStatements gauges) =
      .ok (ofSamples (s.setGauges gauges)) := by
  induction gauges generalizing s with
  | nil => rfl
  | cons g gauges ih =>
      obtain ⟨hg, hrest⟩ := List.forall_mem_cons.mp h
      rw [afterAll_gaugeStatements_cons (upsertGauge_ofSamples hg)]
      exact ih (s.setGauge g.1 g.2) hrest

/-! ## Gauges that are written whatever the tables hold -/

def putGauge (t : Tables) (held : NameMap Binary64) (g : String × Binary64) :
    Tables :=
  { t with gauges := some (held.insert g.1 (unsigned g.2)) }

theorem upsertGauge_of_some {t : Tables} {held : NameMap Binary64}
    {g : String × Binary64} (ht : t.gauges = some held)
    (hg : g.2.isNaN = false) :
    t.upsertGauge g.1 g.2 = .ok (unsigned g.2, t.putGauge held g) := by
  rw [upsertGauge, ht]
  simp only [hg, Bool.false_eq_true, if_false]
  rfl

theorem of_afterAll_gaugeStatements_cons {t t' : Tables} {g : String × Binary64}
    {gauges : List (String × Binary64)}
    (h : t.afterAll (gaugeStatements (g :: gauges)) = .ok t') :
    ∃ held, t.gauges = some held ∧ g.2.isNaN = false ∧
      (t.putGauge held g).afterAll (gaugeStatements gauges) = .ok t' := by
  obtain ⟨between, hg, hrest⟩ := exists_of_bind_eq_ok h
  cases ht : t.gauges with
  | none =>
      have hfails : t.upsertGauge g.1 g.2 = .error (noTable "gauge") := by
        rw [upsertGauge, ht]
      dsimp only at hg
      rw [hfails] at hg
      nomatch hg
  | some held =>
      cases hnan : g.2.isNaN with
      | true =>
          have hfails : t.upsertGauge g.1 g.2 = .error noValue := by
            rw [upsertGauge, ht]
            exact if_pos hnan
          dsimp only at hg
          rw [hfails] at hg
          nomatch hg
      | false =>
          refine ⟨held, rfl, rfl, ?_⟩
          rwa [afterAll_gaugeStatements_cons (upsertGauge_of_some ht hnan)] at h

/-- Gauges as they are stored. -/
def stored (gauges : List (String × Binary64)) : List (String × Binary64) :=
  gauges.map fun g => (g.1, unsigned g.2)

theorem of_afterAll_gaugeStatements {t t' : Tables}
    {gauges : List (String × Binary64)}
    (h : t.afterAll (gaugeStatements gauges) = .ok t') :
    t'.gauges = t.gauges.map (·.insertAll (stored gauges)) ∧
      t'.counters = t.counters := by
  induction gauges generalizing t with
  | nil =>
      rw [← Except.ok.inj h]
      exact ⟨Option.map_id'.symm, rfl⟩
  | cons g gauges ih =>
      obtain ⟨held, ht, -, hrest⟩ := of_afterAll_gaugeStatements_cons h
      obtain ⟨hgauges, hcounters⟩ := ih hrest
      rw [hgauges, hcounters, ht]
      exact ⟨rfl, rfl⟩

/-- Gauges that can be written can be written to any table of gauges. -/
theorem exists_afterAll_gaugeStatements {t t' u : Tables}
    {gauges : List (String × Binary64)}
    (h : t.afterAll (gaugeStatements gauges) = .ok t')
    (hu : t.gauges.isSome = true → u.gauges.isSome = true) :
    ∃ u', u.afterAll (gaugeStatements gauges) = .ok u' := by
  induction gauges generalizing t u with
  | nil => exact ⟨u, rfl⟩
  | cons g gauges ih =>
      obtain ⟨held, ht, hnan, hrest⟩ := of_afterAll_gaugeStatements_cons h
      obtain ⟨held', hu'⟩ := Option.isSome_iff_exists.mp (hu (by rw [ht]; rfl))
      rw [afterAll_gaugeStatements_cons (upsertGauge_of_some hu' hnan)]
      exact ih hrest fun _ => rfl

/-- Writing the same gauges again changes nothing. -/
theorem afterAll_gaugeStatements_again {t t' : Tables}
    {gauges : List (String × Binary64)}
    (h : t.afterAll (gaugeStatements gauges) = .ok t') :
    t'.afterAll (gaugeStatements gauges) = .ok t' := by
  obtain ⟨hgauges, -⟩ := of_afterAll_gaugeStatements h
  have hsome : t.gauges.isSome = true → t'.gauges.isSome = true := by
    intro ht
    rw [hgauges, Option.isSome_map]
    exact ht
  obtain ⟨t'', hagain⟩ := exists_afterAll_gaugeStatements h hsome
  obtain ⟨hgauges', hcounters'⟩ := of_afterAll_gaugeStatements hagain
  have hsame : t''.gauges = t'.gauges := by
    rw [hgauges', hgauges, Option.map_map]
    simp only [Function.comp_def, NameMap.insertAll_insertAll]
  obtain ⟨gauges, counters⟩ := t'
  obtain ⟨gauges', counters''⟩ := t''
  obtain rfl : gauges' = gauges := hsame
  obtain rfl : counters'' = counters := hcounters'
  exact hagain

end Tables

end Telemetry
