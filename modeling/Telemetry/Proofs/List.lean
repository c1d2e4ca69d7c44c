import Mathlib.Data.List.Nodup
import Mathlib.Data.List.Perm.Basic
import Mathlib.Order.Lattice

/-!
# One place of a list, the order of its elements, and its keys

When a place of a list is set, only what it held may leave or join those that
are picked out of the list.  A list that was sorted by a key is in the order of
the keys.  A list of pairs with distinct keys gives one value for a key.
-/

namespace Telemetry

variable {α β : Type} {g : α → Option β} {a b : α} {xs : List α} {i : Nat}

theorem filterMap_set_of_eq (h : xs[i]? = some a) (hg : g b = g a) :
    (xs.set i b).filterMap g = xs.filterMap g := by
  induction xs generalizing i with
  | nil => rfl
  | cons x xs ih =>
      cases i with
      | zero =>
          obtain rfl : x = a := by simpa using h
          simp only [List.set_cons_zero, List.filterMap_cons, hg]
      | succ i =>
          have hi : xs[i]? = some a := by simpa using h
          simp only [List.set_cons_succ, List.filterMap_cons, ih hi]

theorem filterMap_set_of_none (h : xs[i]? = some a) (ha : g a = none)
    (hb : g b = none) :
    (xs.set i b).filterMap g = xs.filterMap g :=
  filterMap_set_of_eq h (hb.trans ha.symm)

theorem filterMap_set_perm {c : β} (h : xs[i]? = some a) (ha : g a = some c)
    (hb : g b = none) :
    (c :: (xs.set i b).filterMap g).Perm (xs.filterMap g) := by
  induction xs generalizing i with
  | nil => simp at h
  | cons x xs ih =>
      cases i with
      | zero =>
          obtain rfl : x = a := by simpa using h
          simp [ha, hb]
      | succ i =>
          have hi : xs[i]? = some a := by simpa using h
          have hrest := ih hi
          cases hx : g x with
          | none => simpa [hx] using hrest
          | some d =>
              simp only [List.set_cons_succ, List.filterMap_cons, hx]
              exact (List.Perm.swap d c _).trans (hrest.cons d)

theorem flatMap_set_perm {f : α → List β} {c : β} (h : xs[i]? = some a)
    (hf : f a = c :: f b) :
    (c :: (xs.set i b).flatMap f).Perm (xs.flatMap f) := by
  induction xs generalizing i with
  | nil => simp at h
  | cons x xs ih =>
      cases i with
      | zero =>
          obtain rfl : x = a := by simpa using h
          simp [hf]
      | succ i =>
          have hi : xs[i]? = some a := by simpa using h
          simp only [List.set_cons_succ, List.flatMap_cons]
          exact List.perm_middle.symm.trans ((ih hi).append_left (f x))

theorem pairwise_mergeSort_key {κ : Type} [LinearOrder κ] (key : α → κ)
    (xs : List α) :
    (xs.mergeSort fun a b => decide (key a ≤ key b)).Pairwise fun a b =>
      key a ≤ key b := by
  have htrans :
    ∀ a b c : α, decide (key a ≤ key b) = true → decide (key b ≤ key c) = true →
      decide (key a ≤ key c) = true := fun a b c hab hbc =>
    decide_eq_true (le_trans (of_decide_eq_true hab) (of_decide_eq_true hbc))
  have htotal :
      ∀ a b : α, (decide (key a ≤ key b) || decide (key b ≤ key a)) = true :=
    fun a b => Bool.or_eq_true_iff.mpr
      ((le_total (key a) (key b)).imp decide_eq_true decide_eq_true)
  exact (List.pairwise_mergeSort htrans htotal xs).imp of_decide_eq_true

/-! ## Lists of pairs -/

theorem fst_ne_of_mem {a : α} {v : β} {front back : List (α × β)}
    (hdistinct : ((front ++ (a, v) :: back).map Prod.fst).Nodup) {x : α × β}
    (hx : x ∈ front ++ back) : x.1 ≠ a := by
  rw [List.map_append, List.map_cons, List.nodup_middle, List.nodup_cons,
    ← List.map_append] at hdistinct
  rintro rfl
  exact hdistinct.1 (List.mem_map.mpr ⟨x, hx, rfl⟩)

section Keys

variable [BEq α] [LawfulBEq α]

theorem lookup_filter_ne {a b : α} (h : a ≠ b) (xs : List (α × β)) :
    (xs.filter (·.1 != b)).lookup a = xs.lookup a := by
  induction xs with
  | nil => rfl
  | cons x xs ih =>
      obtain ⟨c, v⟩ := x
      by_cases hc : c = b
      · subst hc
        have hne : (a == c) = false := by simpa using h
        simp [List.lookup_cons, hne, ih]
      · by_cases ha : a = c
        · subst ha
          simp [hc]
        · have hne : (a == c) = false := by simpa using ha
          simp [hc, List.lookup_cons, hne, ih]

theorem lookup_filter_self (a : α) (xs : List (α × β)) :
    (xs.filter (·.1 != a)).lookup a = none := by
  rw [List.lookup_eq_none_iff]
  intro x hx
  have hne := (List.mem_filter.mp hx).2
  simpa [bne_comm] using hne

theorem mem_iff_lookup_eq_some {a : α} {v : β} {xs : List (α × β)}
    (hdistinct : (xs.map Prod.fst).Nodup) :
    (a, v) ∈ xs ↔ xs.lookup a = some v := by
  constructor
  · intro h
    obtain ⟨front, back, rfl⟩ := List.append_of_mem h
    refine List.lookup_eq_some_iff.mpr ⟨front, back, rfl, fun x hx => ?_⟩
    exact bne_iff_ne.mpr
      (fst_ne_of_mem hdistinct (List.mem_append_left back hx)).symm
  · intro h
    obtain ⟨front, back, rfl, -⟩ := List.lookup_eq_some_iff.mp h
    exact List.mem_append_right front List.mem_cons_self

/-- A list with distinct keys holds the pair of a key and the
pairs of the others. -/
theorem perm_cons_filter {a : α} {v : β} {xs : List (α × β)}
    (hdistinct : (xs.map Prod.fst).Nodup) (h : xs.lookup a = some v) :
    xs.Perm ((a, v) :: xs.filter (·.1 != a)) := by
  obtain ⟨front, back, rfl, -⟩ := List.lookup_eq_some_iff.mp h
  have hothers : (front ++ back).filter (·.1 != a) = front ++ back :=
    List.filter_eq_self.mpr fun x hx =>
      bne_iff_ne.mpr (fst_ne_of_mem hdistinct hx)
  have hkept : (front ++ (a, v) :: back).filter (·.1 != a) = front ++ back := by
    rw [List.filter_append, List.filter_cons_of_neg (by simp),
      ← List.filter_append, hothers]
  rw [hkept]
  exact List.perm_middle

end Keys

end Telemetry
