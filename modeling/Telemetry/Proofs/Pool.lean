import Telemetry.Pool
import Telemetry.Proofs.List
import Mathlib.Data.List.Induction

/-!
# Who has the objects of a pool

Every object that a pool has built is in one place: behind a handle, parked or
dropped.  A step moves at most one object to another place, so this holds after
any steps of any holders.  The parked objects stand in the order in which they
were given back, each as its last holder left it, and the first of them goes
first.
-/

namespace Telemetry.PoolUse

variable {α : Type} {plan : PoolPlan α} {s : PoolUse α} {handle : Nat}
  {item : Pooled α}
  {steps : List (PoolStep α)} {i j : Nat}

/-- The objects behind handles. -/
def live (s : PoolUse α) : List (Pooled α) := s.held.filterMap id

def objects (s : PoolUse α) : List (Pooled α) :=
  s.live ++ s.pool.parked ++ s.pool.dropped

theorem object?_eq_some_iff :
    s.object? handle = some item ↔ s.held[handle]? = some (some item) :=
  Option.join_eq_some_iff

/-! ## Steps -/

/-- All that a step can do. -/
inductive Effect (plan : PoolPlan α) (s : PoolUse α) :
    PoolStep α → PoolUse α → Prop
  | built (hparked : s.pool.parked = []) :
    Effect plan s .acquire
      ⟨{ s.pool with built := s.pool.built + 1 },
        s.held ++ [some ⟨s.pool.built, plan.reset (plan.make s.pool.built)⟩]⟩
  | reused {item : Pooled α} {parked : List (Pooled α)}
      (hparked : s.pool.parked = item :: parked) :
    Effect plan s .acquire
      ⟨{ s.pool with parked },
        s.held ++ [some { item with content := plan.reset item.content }]⟩
  | used {handle : Nat} {item : Pooled α} {change : α → α}
      (hheld : s.object? handle = some item) :
    Effect plan s (.use handle change)
      { s with
        held := s.held.set handle
          (some { item with content := change item.content }) }
  | parked {handle : Nat} {item : Pooled α}
      (hheld : s.object? handle = some item)
      (hroom : s.pool.parked.length < Pool.limit plan) :
    Effect plan s (.release handle)
      ⟨{ s.pool with parked := s.pool.parked ++ [item] },
        s.held.set handle none⟩
  | dropped {handle : Nat} {item : Pooled α}
      (hheld : s.object? handle = some item)
      (hfull : ¬ s.pool.parked.length < Pool.limit plan) :
    Effect plan s (.release handle)
      ⟨{ s.pool with dropped := item :: s.pool.dropped },
        s.held.set handle none⟩
  | notUsed {handle : Nat} {change : α → α} (hheld : s.object? handle = none) :
    Effect plan s (.use handle change) s
  | notReleased {handle : Nat} (hheld : s.object? handle = none) :
      Effect plan s (.release handle) s

theorem effect_step (plan : PoolPlan α) (s : PoolUse α) (step : PoolStep α) :
    Effect plan s step (s.step plan step) := by
  cases step with
  | acquire =>
      obtain ⟨⟨parked, built, dropped⟩, held⟩ := s
      cases parked with
      | nil => exact .built rfl
      | cons item parked => exact .reused rfl
  | use handle change =>
      rw [PoolUse.step]
      cases hheld : s.object? handle with
      | none => exact .notUsed hheld
      | some item => exact .used hheld
  | release handle =>
      rw [PoolUse.step]
      cases hheld : s.object? handle with
      | none => exact .notReleased hheld
      | some item =>
          dsimp only
          rw [Pool.release]
          by_cases hroom : s.pool.parked.length < Pool.limit plan
          · rw [if_pos hroom]
            exact .parked hheld hroom
          · rw [if_neg hroom]
            exact .dropped hheld hroom

/-! ## Places -/

theorem serials_live_acquire (pool : Pool α) (item : Pooled α) :
    (⟨pool, s.held ++ [some item]⟩ : PoolUse α).live.map Pooled.serial =
      s.live.map Pooled.serial ++ [item.serial] := by
  simp [live]

theorem serials_live_use (hheld : s.object? handle = some item) (content : α) :
    (⟨s.pool, s.held.set handle (some { item with content })⟩ :
      PoolUse α).live.map Pooled.serial = s.live.map Pooled.serial := by
  rw [live, live, List.map_filterMap, List.map_filterMap]
  exact filterMap_set_of_eq (object?_eq_some_iff.mp hheld) rfl

theorem objects_release_perm (hheld : s.object? handle = some item) :
    ((s.held.set handle none).filterMap id ++ s.pool.parked ++
      item :: s.pool.dropped).Perm
      s.objects := by
  have hlive : (item :: (s.held.set handle none).filterMap id).Perm s.live :=
    filterMap_set_perm (object?_eq_some_iff.mp hheld) rfl rfl
  refine List.perm_middle.trans ?_
  rw [objects, List.append_assoc, List.append_assoc]
  exact hlive.append_right (s.pool.parked ++ s.pool.dropped)

/-- Every object is in one place, and the pool is not overfull. -/
structure Sound (plan : PoolPlan α) (s : PoolUse α) : Prop where
  places : (s.objects.map Pooled.serial).Perm (List.range s.pool.built)
  room : s.pool.parked.length ≤ Pool.limit plan

theorem sound_start (plan : PoolPlan α) :
    Sound plan start := ⟨.nil, Nat.zero_le _⟩

theorem Sound.step (h : Sound plan s) (step : PoolStep α) :
    Sound plan (s.step plan step) := by
  have heffect := effect_step plan s step
  generalize s.step plan step = next at heffect ⊢
  obtain ⟨hplaces, hroom⟩ := h
  cases heffect with
  | built hparked =>
      -- The serial of a fresh object is the number that the range gains.
      refine ⟨?_, hroom⟩
      simp only [objects, hparked, List.map_append, List.append_nil] at hplaces
      simp only [objects, hparked, List.map_append, List.append_nil,
        serials_live_acquire, List.range_succ, List.append_assoc]
      refine .trans (List.perm_append_comm.append_left _) ?_
      rw [← List.append_assoc]
      exact hplaces.append_right [s.pool.built]
  | reused hparked =>
      rw [hparked] at hroom
      refine ⟨?_, Nat.le_of_succ_le hroom⟩
      rw [objects, hparked] at hplaces
      rw [objects]
      simp only [List.map_append, serials_live_acquire, List.append_assoc]
      simpa only [List.map_append, List.map_cons, List.append_assoc,
        List.singleton_append, List.cons_append, List.nil_append] using hplaces
  | used hheld =>
      refine ⟨?_, hroom⟩
      rw [objects] at hplaces ⊢
      simpa only [List.map_append, serials_live_use hheld] using hplaces
  | parked hheld hless =>
      refine ⟨.trans ?_ hplaces, ?_⟩
      · have hperm := objects_release_perm hheld
        rw [List.append_cons, List.append_assoc _ _ [_]] at hperm
        exact hperm.map Pooled.serial
      · rw [List.length_append]
        exact hless
  | dropped hheld hfull =>
      exact ⟨((objects_release_perm hheld).map Pooled.serial).trans hplaces,
        hroom⟩
  | notUsed hheld => exact ⟨hplaces, hroom⟩
  | notReleased hheld => exact ⟨hplaces, hroom⟩

theorem run_concat (plan : PoolPlan α) (s : PoolUse α)
    (steps : List (PoolStep α)) (step : PoolStep α) :
    s.run plan (steps ++ [step]) = (s.run plan steps).step plan step :=
  List.foldl_concat ..

theorem sound_run (plan : PoolPlan α) (steps : List (PoolStep α)) :
    Sound plan (start.run plan steps) := by
  induction steps using List.reverseRecOn with
  | nil => exact sound_start plan
  | append_singleton steps step ih =>
      rw [run_concat]
      exact ih.step step

namespace Sound

/-- Who holds an object holds it alone, and it is not parked. -/
theorem serial_ne {other : Pooled α} (h : Sound plan s)
    (hheld : s.object? handle = some item)
    (hother : other ∈ (s.held.set handle none).filterMap id ++ s.pool.parked) :
    other.serial ≠ item.serial := by
  have hperm := ((objects_release_perm hheld).map Pooled.serial).trans h.places
  have hnodup := hperm.nodup_iff.mpr List.nodup_range
  rw [List.map_append, List.nodup_append] at hnodup
  exact hnodup.2.2 _ (List.mem_map_of_mem hother) _ (List.mem_cons_self ..)

theorem eq_of_serial_eq {other : Pooled α} {handle' : Nat} (h : Sound plan s)
    (hheld : s.object? handle = some item)
    (hother : s.object? handle' = some other)
    (hserial : other.serial = item.serial) : handle' = handle := by
  by_contra hne
  have hset : (s.held.set handle none)[handle']? = some (some other) := by
    rw [List.getElem?_set_ne (Ne.symm hne)]
    exact object?_eq_some_iff.mp hother
  have hmem : other ∈ (s.held.set handle none).filterMap id :=
    List.mem_filterMap.mpr ⟨_, List.mem_of_getElem? hset, rfl⟩
  exact h.serial_ne hheld (List.mem_append_left _ hmem) hserial

theorem not_mem_parked (h : Sound plan s)
    (hheld : s.object? handle = some item) :
    item ∉ s.pool.parked := fun hmem =>
  h.serial_ne hheld (List.mem_append_right _ hmem) rfl

theorem built_eq (h : Sound plan s) :
    s.pool.built = s.live.length + s.pool.parked.length +
      s.pool.dropped.length := by
  have hlength := h.places.length_eq
  rw [List.length_range, List.length_map, objects, List.length_append,
    List.length_append] at hlength
  exact hlength.symm

end Sound

/-! ## The order of the parked objects -/

/-- An object was given back in the i-th step, and has been
parked since then. -/
structure ParkedSince (plan : PoolPlan α) (steps : List (PoolStep α))
    (item : Pooled α) (i : Nat) : Prop where
  released : ∃ handle, steps[i]? = some (.release handle) ∧
    (start.run plan (steps.take i)).object? handle = some item
  since : ∀ j, i < j → j ≤ steps.length →
    item ∈ (start.run plan (steps.take j)).pool.parked

namespace ParkedSince

theorem lt_length (h : ParkedSince plan steps item i) : i < steps.length := by
  obtain ⟨handle, hstep, _⟩ := h.released
  exact (List.getElem?_eq_some_iff.mp hstep).1

theorem concat {step : PoolStep α} (h : ParkedSince plan steps item i)
    (hmem : item ∈ (start.run plan (steps ++ [step])).pool.parked) :
    ParkedSince plan (steps ++ [step]) item i where
  released := by
    rw [List.getElem?_append_left h.lt_length,
      List.take_append_of_le_length (Nat.le_of_lt h.lt_length)]
    exact h.released
  since j hij hj := by
    rw [List.length_append, List.length_singleton] at hj
    rcases Nat.le_succ_iff.mp hj with hj | rfl
    · rw [List.take_append_of_le_length hj]
      exact h.since j hij hj
    · rwa [List.take_of_length_le (by simp)]

theorem of_release (hheld : (start.run plan steps).object? handle = some item)
    (hmem : item ∈ (start.run plan (steps ++ [.release handle])).pool.parked) :
    ParkedSince plan (steps ++ [.release handle]) item steps.length where
  released := ⟨handle, List.getElem?_concat_length, by simpa using hheld⟩
  since j hij hj := by
    rw [List.take_of_length_le]
    · exact hmem
    · rw [List.length_append]
      exact hij

/-- While an object is parked nobody holds it, so it is not given back again. -/
theorem not_lt (hi : ParkedSince plan steps item i)
    (hj : ParkedSince plan steps item j) :
    ¬ i < j := by
  intro hij
  obtain ⟨handle, _, hheld⟩ := hj.released
  have hmem := hi.since j hij (Nat.le_of_lt hj.lt_length)
  exact (sound_run plan (steps.take j)).not_mem_parked hheld hmem

theorem unique (hi : ParkedSince plan steps item i)
    (hj : ParkedSince plan steps item j) :
    i = j :=
  Nat.le_antisymm (Nat.le_of_not_lt (hj.not_lt hi))
    (Nat.le_of_not_lt (hi.not_lt hj))

end ParkedSince

/-- Objects are parked, and those before others have been for longer. -/
structure InOrder (plan : PoolPlan α) (steps : List (PoolStep α))
    (items : List (Pooled α)) : Prop where
  waits : ∀ item ∈ items, ∃ i, ParkedSince plan steps item i
  order : items.Pairwise fun a b =>
    ∀ i j, ParkedSince plan steps a i → ParkedSince plan steps b j → i < j

namespace InOrder

variable {items : List (Pooled α)} {step : PoolStep α}

theorem before_concat (h : InOrder plan steps items) (hitem : item ∈ items)
    (hmem : item ∈ (start.run plan (steps ++ [step])).pool.parked)
    (hi : ParkedSince plan (steps ++ [step]) item i) :
    ParkedSince plan steps item i := by
  obtain ⟨j, hj⟩ := h.waits item hitem
  obtain rfl := hi.unique (hj.concat hmem)
  exact hj

theorem concat (h : InOrder plan steps items)
    (hmem : ∀ item ∈ items,
      item ∈ (start.run plan (steps ++ [step])).pool.parked) :
    InOrder plan (steps ++ [step]) items where
  waits item hitem := by
    obtain ⟨i, hi⟩ := h.waits item hitem
    exact ⟨i, hi.concat (hmem item hitem)⟩
  order := h.order.imp_of_mem fun ha hb hab i j hi hj =>
    hab i j (h.before_concat ha (hmem _ ha) hi)
      (h.before_concat hb (hmem _ hb) hj)

theorem concat_release (h : InOrder plan steps items)
    (hheld : (start.run plan steps).object? handle = some item)
    (hparked : (start.run plan (steps ++ [.release handle])).pool.parked =
      items ++ [item]) :
    InOrder plan (steps ++ [.release handle]) (items ++ [item]) := by
  have hmem : ∀ other ∈ items ++ [item],
      other ∈ (start.run plan (steps ++ [.release handle])).pool.parked := by
    rw [hparked]
    exact fun _ hother => hother
  have hitem : item ∈ items ++ [item] := List.mem_concat_self
  have hlast := ParkedSince.of_release hheld (hmem item hitem)
  have hfirst :=
    h.concat fun other hother => hmem other (List.mem_append_left _ hother)
  refine ⟨?_,
    List.pairwise_append.mpr ⟨hfirst.order, List.pairwise_singleton .., ?_⟩⟩
  · intro other hother
    rcases List.mem_append.mp hother with hother | hother
    · exact hfirst.waits other hother
    · rw [List.mem_singleton.mp hother]
      exact ⟨_, hlast⟩
  · intro other hother last hitem' i j hi hj
    rw [List.mem_singleton] at hitem'
    subst hitem'
    rw [← hlast.unique hj]
    exact (h.before_concat hother (hmem other (List.mem_append_left _ hother))
      hi).lt_length

theorem tail (h : InOrder plan steps (item :: items)) :
    InOrder plan steps items :=
  ⟨fun other hother => h.waits other (List.mem_cons_of_mem _ hother),
    (List.pairwise_cons.mp h.order).2⟩

/-- The object in front has been parked longest. -/
theorem head (h : InOrder plan steps (item :: items))
    (hi : ParkedSince plan steps item i) {other : Pooled α}
    (hother : other ∈ item :: items) (hj : ParkedSince plan steps other j) :
    i ≤ j := by
  rcases List.mem_cons.mp hother with rfl | hother
  · exact Nat.le_of_eq (hi.unique hj)
  · exact Nat.le_of_lt
      ((List.pairwise_cons.mp h.order).1 other hother i j hi hj)

end InOrder

theorem inOrder_run (plan : PoolPlan α) (steps : List (PoolStep α)) :
    InOrder plan steps (start.run plan steps).pool.parked := by
  induction steps using List.reverseRecOn with
  | nil => exact ⟨by simp [run, start, Pool.empty], .nil⟩
  | append_singleton steps step ih =>
      have heffect := effect_step plan (start.run plan steps) step
      rw [← run_concat] at heffect
      generalize hnext : start.run plan (steps ++ [step]) = next at heffect ⊢
      -- Only an object that is given back joins the parked ones, and it stands
      -- last.
      cases heffect with
      | reused hparked =>
          rw [hparked] at ih
          exact ih.tail.concat fun item hitem => by rwa [hnext]
      | parked hheld hroom => exact ih.concat_release hheld (by rw [hnext])
      | built hparked | used hheld | dropped hheld hfull | notUsed hheld
      | notReleased hheld =>
          exact ih.concat fun item hitem => by rwa [hnext]

/-! ## What one step does -/

/-- A step that asks for an object while none is parked. -/
def Builds (s : PoolUse α) (step : PoolStep α) : Prop :=
  step = .acquire ∧ s.pool.parked = []

/-- A step that gives an object back to a full pool. -/
def Drops (plan : PoolPlan α) (s : PoolUse α) (step : PoolStep α)
    (item : Pooled α) : Prop :=
  ∃ handle, step = .release handle ∧ s.object? handle = some item ∧
    s.pool.parked.length = max plan.capacity 1

/-- A step by another holder. -/
def Elsewhere (handle : Nat) : PoolStep α → Prop
  | .acquire => True
  | .use other _ => other ≠ handle
  | .release other => other ≠ handle

theorem built_step (plan : PoolPlan α) (s : PoolUse α) (step : PoolStep α) :
    (s.Builds step → (s.step plan step).pool.built = s.pool.built + 1) ∧
      (¬ s.Builds step → (s.step plan step).pool.built = s.pool.built) := by
  have heffect := effect_step plan s step
  generalize s.step plan step = next at heffect ⊢
  cases heffect with
  | built hparked => exact ⟨fun _ => rfl, fun h => absurd ⟨rfl, hparked⟩ h⟩
  | reused hparked =>
      exact ⟨fun h => (nomatch hparked.symm.trans h.2), fun _ => rfl⟩
  | used | parked | dropped | notUsed | notReleased =>
      exact ⟨fun h => (nomatch h.1), fun _ => rfl⟩

theorem Sound.dropped_step (h : Sound plan s) (step : PoolStep α) :
    (∀ item, s.Drops plan step item →
        (s.step plan step).pool.dropped = item :: s.pool.dropped) ∧
      ((∀ item, ¬ s.Drops plan step item) →
        (s.step plan step).pool.dropped = s.pool.dropped) := by
  have heffect := effect_step plan s step
  generalize s.step plan step = next at heffect ⊢
  cases heffect with
  | parked hheld hless =>
      refine ⟨?_, fun _ => rfl⟩
      rintro _ ⟨_, _, _, hfull⟩
      exact absurd hless (Nat.not_lt.mpr (Nat.le_of_eq hfull.symm))
  | dropped hheld hfull =>
      have hlength : s.pool.parked.length = max plan.capacity 1 :=
        Nat.le_antisymm h.room (Nat.le_of_not_lt hfull)
      refine ⟨?_, fun hnone => absurd ⟨_, rfl, hheld, hlength⟩ (hnone _)⟩
      rintro _ ⟨_, hstep, hother, _⟩
      obtain rfl := PoolStep.release.inj hstep
      rw [Option.some.inj (hother.symm.trans hheld)]
  | notReleased hheld =>
      refine ⟨?_, fun _ => rfl⟩
      rintro _ ⟨_, hstep, hother, _⟩
      obtain rfl := PoolStep.release.inj hstep
      rw [hheld] at hother
      exact nomatch hother
  | built | reused | used | notUsed =>
      exact ⟨fun _ ⟨_, hstep, _⟩ => (nomatch hstep), fun _ => rfl⟩

theorem object?_step {step : PoolStep α} (hhandle : handle < s.held.length)
    (helse : Elsewhere handle step) :
    (s.step plan step).object? handle = s.object? handle := by
  have heffect := effect_step plan s step
  generalize s.step plan step = next at heffect ⊢
  cases heffect with
  | built | reused => simp [object?, List.getElem?_append_left hhandle]
  | used | parked | dropped => simp [object?, List.getElem?_set_ne helse]
  | notUsed | notReleased => rfl

theorem object?_acquire_of_nil (hparked : s.pool.parked = []) :
    (s.step plan .acquire).object? s.held.length =
      some ⟨s.pool.built, plan.reset (plan.make s.pool.built)⟩ := by
  simp [object?, step, Pool.acquire, hparked]

theorem object?_acquire_of_cons {parked : List (Pooled α)}
    (hparked : s.pool.parked = item :: parked) :
    (s.step plan .acquire).object? s.held.length =
      some { item with content := plan.reset item.content } := by
  simp [object?, step, Pool.acquire, hparked]

/-! ## Any steps of any holders -/

/-- A pool and its holders after steps. -/
structure Owned (plan : PoolPlan α) (steps : List (PoolStep α))
    (s : PoolUse α) : Prop where
  /-- Every object that was built is in one place. -/
  places : (s.objects.map Pooled.serial).Perm (List.range s.pool.built)
  total : s.pool.built = s.live.length + s.pool.parked.length +
    s.pool.dropped.length
  alone : ∀ {handle handle' item item'}, s.object? handle = some item →
    s.object? handle' = some item' → item.serial = item'.serial →
      handle = handle'
  apart : ∀ step handle, handle < s.held.length → Elsewhere handle step →
    (s.step plan step).object? handle = s.object? handle
  room : s.pool.parked.length ≤ max plan.capacity 1
  built : ∀ step,
    (s.Builds step → (s.step plan step).pool.built = s.pool.built + 1) ∧
    (¬ s.Builds step → (s.step plan step).pool.built = s.pool.built)
  dropped : ∀ step,
    (∀ item, s.Drops plan step item →
      (s.step plan step).pool.dropped = item :: s.pool.dropped) ∧
      ((∀ item, ¬ s.Drops plan step item) →
        (s.step plan step).pool.dropped = s.pool.dropped)
  fresh : s.pool.parked = [] → (s.step plan .acquire).object? s.held.length =
    some ⟨s.pool.built, plan.reset (plan.make s.pool.built)⟩
  waits : ∀ item ∈ s.pool.parked, ∃ i, ParkedSince plan steps item i
  /-- The object that is parked longest goes first, reset from what its
  last holder left. -/
  reused : s.pool.parked ≠ [] → ∃ item i, ParkedSince plan steps item i ∧
    (∀ other ∈ s.pool.parked, ∀ j, ParkedSince plan steps other j → i ≤ j) ∧
    (s.step plan .acquire).object? s.held.length =
      some { item with content := plan.reset item.content }

theorem owned_run (plan : PoolPlan α) (steps : List (PoolStep α)) :
    Owned plan steps (start.run plan steps) := by
  have hsound := sound_run plan steps
  have horder := inOrder_run plan steps
  generalize start.run plan steps = s at hsound horder ⊢
  exact
    { places := hsound.places
      total := hsound.built_eq
      alone :=
        fun hheld hheld' hserial => hsound.eq_of_serial_eq hheld' hheld hserial
      apart := fun _ _ hhandle helse => object?_step hhandle helse
      room := hsound.room
      built := built_step plan s
      dropped := hsound.dropped_step
      fresh := object?_acquire_of_nil
      waits := horder.waits
      reused := fun hnil => by
        obtain ⟨item, parked, hparked⟩ := List.exists_cons_of_ne_nil hnil
        rw [hparked] at horder ⊢
        obtain ⟨i, hi⟩ := horder.waits item List.mem_cons_self
        exact ⟨item, i, hi, fun other hother j hj => horder.head hi hother hj,
          object?_acquire_of_cons hparked⟩ }

/-- A pool asked to keep nothing keeps one object. -/
example :
    let plan : PoolPlan (List Nat) := ⟨0, fun _ => [], fun _ => []⟩
    let s := start.run plan
      [.acquire, .acquire, .use 0 (List.cons 7), .release 0, .release 1,
        .acquire]
    s.pool.built = 2 ∧ s.pool.dropped = [⟨1, []⟩] ∧
      s.object? 2 = some ⟨0, []⟩ := by
  decide

end Telemetry.PoolUse
