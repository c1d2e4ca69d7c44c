import Telemetry.Report.Ledger
import Mathlib.Data.List.Basic
import Mathlib.Tactic.Ring

/-!
# What the ledger books

The ledger turns the count of polls in a batch into the increment since the
latest count and leaves the rest of the batch alone.  In a batch with one count
of polls the increment is all that the batch says about polls, in however many
chunks it is sent.
-/

namespace Telemetry

namespace PollLedger

/-- A batch is booked exactly when it has a count of polls. -/
theorem book?_eq_none_iff {l : PollLedger} {batch : Batch} :
    l.book? batch = none ↔ ∀ m ∈ batch, isPollCount m = false := by
  induction batch with
  | nil => simp [book?]
  | cons m rest ih =>
      unfold book?
      split
      · next hm => simp [hm]
      · next hm => simp [ih, hm]

/-- Booking changes the increment of the first count of polls only. -/
theorem exists_of_book?_eq_some {l after : PollLedger} {batch booked : Batch}
    (h : l.book? batch = some (booked, after)) :
    ∃ front m back,
      batch = front ++ m :: back ∧
        (∀ x ∈ front, isPollCount x = false) ∧ isPollCount m = true ∧
        booked = front ++
          { m with delta := some (m.delta.getD l.latest - l.latest) } :: back ∧
        after = ⟨l.latest, m.delta.getD l.latest⟩ := by
  induction batch generalizing booked after with
  | nil => simp [book?] at h
  | cons m rest ih =>
      unfold book? at h
      split at h
      · next hm =>
          simp only [Option.some.injEq, Prod.mk.injEq] at h
          exact ⟨[], m, rest, rfl, by simp, hm, h.1.symm, h.2.symm⟩
      · next hm =>
          obtain ⟨⟨rest', l'⟩, hrest, heq⟩ := Option.map_eq_some_iff.mp h
          simp only [Prod.mk.injEq] at heq
          obtain ⟨front, x, back, rfl, hfront, hx, rfl, rfl⟩ := ih hrest
          refine ⟨m :: front, x, back, rfl, ?_, hx, heq.1.symm, heq.2.symm⟩
          intro y hy
          rcases List.mem_cons.mp hy with rfl | hy
          · simpa using hm
          · exact hfront y hy

end PollLedger

open PollLedger

/-! ## What a batch says about polls -/

/-- The sum of the increments of all counts of polls in a batch. -/
def pollTotal : Batch → Int
  | [] => 0
  | m :: rest =>
    (if isPollCount m then (m.delta.getD 0).toInt else 0) + pollTotal rest

theorem pollTotal_append (a b : Batch) :
    pollTotal (a ++ b) = pollTotal a + pollTotal b := by
  induction a with
  | nil => simp [pollTotal]
  | cons m a ih => simp [pollTotal, ih, add_assoc]

theorem pollTotal_eq_zero {batch : Batch}
    (h : ∀ m ∈ batch, isPollCount m = false) :
    pollTotal batch = 0 := by
  induction batch with
  | nil => rfl
  | cons m rest ih =>
      rw [pollTotal, ih fun x hx => h x (List.mem_cons_of_mem _ hx)]
      simp [h m List.mem_cons_self]

theorem pollTotal_perm {a b : Batch} (h : a.Perm b) :
    pollTotal a = pollTotal b := by
  induction h with
  | nil => rfl
  | cons m _ ih => simp [pollTotal, ih]
  | swap m n _ => simp only [pollTotal]; ring
  | trans _ _ ih₁ ih₂ => exact ih₁.trans ih₂

/-- The count of polls that a batch stands for: a count that is absent stands
for the latest one. -/
def PollLedger.count? (l : PollLedger) (batch : Batch) : Option Int64 :=
  (batch.find? isPollCount).map fun m => m.delta.getD l.latest

/-- The batch as it is sent. -/
def PollLedger.booked (l : PollLedger) (batch : Batch) : Batch :=
  ((l.book? batch).map (·.1)).getD batch

namespace PollLedger

theorem count?_eq_none_iff {l : PollLedger} {batch : Batch} :
    l.count? batch = none ↔ l.book? batch = none := by
  simp [count?, book?_eq_none_iff]

theorem book?_eq_of_count? {l : PollLedger} {batch : Batch} {count : Int64}
    (h : l.count? batch = some count) :
    l.book? batch = some (l.booked batch, ⟨l.latest, count⟩) := by
  cases hbook : l.book? batch with
  | none => simp [count?_eq_none_iff.mpr hbook] at h
  | some p =>
      obtain ⟨booked, after⟩ := p
      obtain ⟨front, m, back, rfl, hfront, hm, rfl, rfl⟩ :=
        exists_of_book?_eq_some hbook
      have hfind : (front ++ m :: back).find? isPollCount = some m := by
        rw [List.find?_append, List.find?_eq_none.mpr (by simpa using hfront)]
        simp [hm]
      rw [count?, hfind] at h
      simp only [Option.map_some, Option.some.injEq] at h
      simp [PollLedger.booked, hbook, h]

/-- The difference of two counts stays in range. -/
theorem toInt_sub_of_nonneg {a b : Int64} (ha : 0 ≤ a) (hb : 0 ≤ b) :
    (a - b).toInt = a.toInt - b.toInt := by
  have ha' : 0 ≤ a.toInt := by simpa using Int64.le_iff_toInt_le.mp ha
  have hb' : 0 ≤ b.toInt := by simpa using Int64.le_iff_toInt_le.mp hb
  have ha'' := a.toInt_lt
  have hb'' := b.toInt_lt
  rw [Int64.toInt_sub]
  exact Int.bmod_eq_of_le_mul_two (by omega) (by omega)

theorem countP_booked (l : PollLedger) (batch : Batch) :
    (l.booked batch).countP isPollCount = batch.countP isPollCount := by
  cases hbook : l.book? batch with
  | none => simp [PollLedger.booked, hbook]
  | some p =>
      obtain ⟨front, m, back, rfl, -, -, hbooked, -⟩ :=
        exists_of_book?_eq_some hbook
      have hsame :
          isPollCount
            { m with delta := some (m.delta.getD l.latest - l.latest) } =
          isPollCount m := rfl
      simp [PollLedger.booked, hbook, hbooked, hsame, List.countP_cons]

theorem pollTotal_booked_of_none {l : PollLedger} {batch : Batch}
    (h : l.count? batch = none) : pollTotal (l.booked batch) = 0 := by
  have hbook := count?_eq_none_iff.mp h
  rw [PollLedger.booked, hbook]
  exact pollTotal_eq_zero (book?_eq_none_iff.mp hbook)

/-- With one count of polls at most, a batch that is sent says how many polls
were made since the latest count. -/
theorem pollTotal_booked_of_some {l : PollLedger} {batch : Batch}
    {count : Int64} (hsingle : batch.countP isPollCount ≤ 1)
    (h : l.count? batch = some count) :
    pollTotal (l.booked batch) = (count - l.latest).toInt := by
  obtain ⟨front, m, back, rfl, hfront, hm, hbooked, hafter⟩ :=
    exists_of_book?_eq_some (book?_eq_of_count? h)
  have hback : ∀ x ∈ back, isPollCount x = false := by
    have hfront' : front.countP isPollCount = 0 :=
      List.countP_eq_zero.mpr fun x hx => by simp [hfront x hx]
    rw [List.countP_append, hfront', List.countP_cons, hm] at hsingle
    have hzero : back.countP isPollCount = 0 := by simpa using hsingle
    intro x hx
    simpa using List.countP_eq_zero.mp hzero x hx
  have hcount : count = m.delta.getD l.latest := by
    simpa using congrArg latest hafter
  have hm' :
      isPollCount { m with delta := some (m.delta.getD l.latest - l.latest) } =
      true := hm
  rw [hbooked, pollTotal_append, pollTotal, pollTotal_eq_zero hfront,
    pollTotal_eq_zero hback, if_pos hm', hcount]
  simp

end PollLedger

end Telemetry
