import Telemetry.Samples
import Telemetry.Proofs.NameMap

/-!
# Samples after they are written

Adding to a counter changes its total and no other one, so that additions may
come in any order; gauges and counters do not touch each other.
-/

namespace Telemetry.Samples

theorem find?_addCounter (s : Samples) (name : String) (delta : Int64)
    (other : String) :
    (s.addCounter name delta).counters.find? other =
      if name = other then some (s.total name + delta)
        else s.counters.find? other :=
  NameMap.find?_insert _ _ _ _

theorem total_addCounter (s : Samples) (name : String) (delta : Int64)
    (other : String) :
    (s.addCounter name delta).total other =
      if name = other then s.total other + delta else s.total other := by
  unfold total
  rw [find?_addCounter]
  by_cases h : name = other
  · subst h
    rw [if_pos rfl, if_pos rfl]
    rfl
  · rw [if_neg h, if_neg h]

theorem addCounter_comm (s : Samples) (a b : String) (d e : Int64) :
    (s.addCounter a d).addCounter b e = (s.addCounter b e).addCounter a d := by
  have hcounters : ((s.addCounter a d).addCounter b e).counters =
      ((s.addCounter b e).addCounter a d).counters := by
    apply NameMap.ext_find?
    intro name
    simp only [find?_addCounter, total_addCounter]
    by_cases ha : a = name
    · subst ha
      by_cases hb : b = a
      · subst hb
        simp only [if_true, Int64.add_assoc, Int64.add_comm d e]
      · simp only [hb, Ne.symm hb, if_true, if_false]
    · simp only [ha, if_false]
      by_cases hb : b = name
      · subst hb
        simp only [ha, if_true, if_false]
      · simp only [hb, if_false]
  exact congrArg (Samples.mk s.gauges) hcounters

/-- Additions may come in any order. -/
theorem addCounters_perm {counters counters' : List (String × Int64)}
    (h : counters.Perm counters') (s : Samples) :
    s.addCounters counters = s.addCounters counters' := by
  apply h.foldl_eq'
  intro c _ c' _ s
  exact addCounter_comm s c.1 c'.1 c.2 c'.2

theorem setGauges_eq (gauges : List (String × Binary64)) (s : Samples) :
    s.setGauges gauges = ⟨s.gauges.insertAll gauges, s.counters⟩ := by
  induction gauges generalizing s with
  | nil => rfl
  | cons g gauges ih => exact ih (s.setGauge g.1 g.2)

end Telemetry.Samples
