import Telemetry.Allocation
import Telemetry.Proofs.List
import Mathlib.Data.List.Induction

/-!
# What is counted of the blocks in use

As long as a program gives back only what it has, with the size that it has,
what was taken is at every moment what was given back and what is in use: in
bytes, and in blocks.  So the differences that are shown are exact, and no
greater number is ever taken from a smaller one.
-/

namespace Telemetry

/-- The bytes of blocks of these sizes. -/
def totalSize : List UInt64 → Nat
  | [] => 0
  | size :: rest => size.toNat + totalSize rest

theorem totalSize_append (xs ys : List UInt64) :
    totalSize (xs ++ ys) = totalSize xs + totalSize ys := by
  induction xs with
  | nil => rw [List.nil_append, totalSize, Nat.zero_add]
  | cons x xs ih =>
      rw [List.cons_append, totalSize, totalSize, ih, Nat.add_assoc]

theorem totalSize_concat (xs : List UInt64) (size : UInt64) :
    totalSize (xs ++ [size]) = totalSize xs + size.toNat :=
      totalSize_append xs [size]

theorem totalSize_perm {xs ys : List UInt64} (h : xs.Perm ys) :
    totalSize xs = totalSize ys := by
  induction h with
  | nil => rfl
  | cons x _ ih => rw [totalSize, totalSize, ih]
  | swap x y l =>
      simp only [totalSize]
      omega
  | trans _ _ ih₁ ih₂ => exact ih₁.trans ih₂

theorem toNat_add_of_lt_size {a b : UInt64}
    (h : a.toNat + b.toNat < UInt64.size) :
    (a + b).toNat = a.toNat + b.toNat := by
  rw [UInt64.toNat_add]
  exact Nat.mod_eq_of_lt h

theorem toNat_monus {a b : UInt64} {n : Nat} (h : b.toNat + n = a.toNat) :
    (monus a b).toNat = n := by
  have hle : b ≤ a := UInt64.le_iff_toNat_le.mpr (by omega)
  rw [monus, if_pos hle, UInt64.toNat_sub_of_le _ _ hle]
  omega

/-! ## Calls -/

namespace AllocationCall

/-- The block that a call changes, and the size that it has then, none where
it is given back. -/
def change? : AllocationCall → Option (Nat × Option UInt64)
  | .allocate block size succeeds =>
    if succeeds then some (block, some size) else none
  | .reallocate block _ size succeeds =>
    if succeeds then some (block, some size) else none
  | .deallocate block _ => some (block, none)

/-- The size with which a call takes a block, if it does. -/
def taken? (call : AllocationCall) : Option UInt64 := call.change?.bind (·.2)

def taken (calls : List AllocationCall) : List UInt64 := calls.filterMap taken?

/-- The size of a block after calls, none if it is not in use: the last call
that changes the block decides. -/
def sizeAfter (calls : List AllocationCall) (block : Nat) : Option UInt64 :=
  ((calls.filterMap change?).reverse.lookup block).join

theorem taken_cons (call : AllocationCall) (calls : List AllocationCall) :
    taken (call :: calls) = call.taken?.toList ++ taken calls := by
  cases h : call.taken? with
  | none => simp [taken, h]
  | some size => simp [taken, h]

theorem sizeAfter_concat (calls : List AllocationCall) (call : AllocationCall)
    (block : Nat) :
    sizeAfter (calls ++ [call]) block =
      match call.change? with
      | some (changed, size) =>
        if block = changed then size else sizeAfter calls block
      | none => sizeAfter calls block := by
  cases h : call.change? with
  | none => simp [sizeAfter, h]
  | some change =>
      obtain ⟨changed, size⟩ := change
      by_cases hblock : block = changed
      · simp [sizeAfter, h, hblock]
      · have hne : (block == changed) = false := by simpa using hblock
        simp [sizeAfter, h, hblock, List.lookup_cons, hne]

end AllocationCall

/-! ## Heaps -/

namespace Heap

variable {h : Heap} {call : AllocationCall} {calls : List AllocationCall}
  {block : Nat}
  {size : UInt64} {taken : List UInt64}

/-- The calls that a program may make: it takes a block that is not in use, and
changes or gives back one that is, with the size that it has. -/
def Admits (h : Heap) : AllocationCall → Prop
  | .allocate block _ _ => h.size? block = none
  | .reallocate block old _ _ => h.size? block = some old
  | .deallocate block size => h.size? block = some size

/-- The program makes each call when it may. -/
def Orderly (h : Heap) : List AllocationCall → Prop
  | [] => True
  | call :: calls => h.Admits call ∧ (h.step call).Orderly calls

theorem size?_step (h : Heap) (call : AllocationCall) (block : Nat) :
    (h.step call).size? block =
      match call.change? with
      | some (changed, size) => if block = changed then size else h.size? block
      | none => h.size? block := by
  have hcons (changed : Nat) (size : UInt64) (rest : List (Nat × UInt64)) :
      ((changed, size) :: rest).lookup block =
        if block = changed then some size else rest.lookup block := by
    by_cases hblock : block = changed
    · simp [hblock]
    · have hne : (block == changed) = false := by simpa using hblock
      rw [List.lookup_cons, hne, if_neg hblock]
  have hwithout (changed : Nat) : (h.without changed).lookup block =
      if block = changed then none else h.size? block := by
    by_cases hblock : block = changed
    · rw [if_pos hblock, hblock]
      exact lookup_filter_self changed h.blocks
    · rw [if_neg hblock]
      exact lookup_filter_ne hblock h.blocks
  cases call with
  | allocate changed size succeeds =>
      cases succeeds with
      | false => rfl
      | true => exact hcons changed size h.blocks
  | reallocate changed old size succeeds =>
      cases succeeds with
      | false => rfl
      | true =>
          change ((changed, size) :: h.without changed).lookup block = _
          rw [hcons, hwithout]
          by_cases hblock : block = changed
          · simp [AllocationCall.change?, hblock]
          · simp [AllocationCall.change?, hblock]
  | deallocate changed size => exact hwithout changed

theorem size?_run (calls : List AllocationCall) (block : Nat) :
    (empty.run calls).size? block = AllocationCall.sizeAfter calls block := by
  induction calls using List.reverseRecOn with
  | nil => rfl
  | append_singleton calls call ih =>
      have hrun :
          empty.run (calls ++ [call]) = (empty.run calls).step call := by
        rw [run, List.foldl_append]
        rfl
      rw [hrun, size?_step, AllocationCall.sizeAfter_concat, ih]

theorem counts_run (h : Heap) (calls : List AllocationCall) :
    (h.run calls).counts = calls.foldl AllocationCounts.record h.counts := by
  induction calls generalizing h with
  | nil => rfl
  | cons call calls ih => exact ih (h.step call)

/-- What was taken is what was given back and what is in use, in
bytes and in blocks. -/
structure Balanced (h : Heap) (taken : List UInt64) : Prop where
  distinct : (h.blocks.map Prod.fst).Nodup
  allocatedBytes : h.counts.allocatedBytes.toNat = totalSize taken
  mallocs : h.counts.mallocs.toNat = taken.length
  bytes : h.counts.freedBytes.toNat + totalSize (h.blocks.map Prod.snd) =
    totalSize taken
  blocks : h.counts.frees.toNat + h.blocks.length = taken.length

namespace Balanced

theorem empty : Balanced empty [] := ⟨.nil, rfl, rfl, rfl, rfl⟩

theorem take (hbalanced : h.Balanced taken) (hblock : h.size? block = none)
    (hbytes : totalSize (taken ++ [size]) < UInt64.size)
    (hcount : (taken ++ [size]).length < UInt64.size) :
    Balanced ⟨(block, size) :: h.blocks, h.counts.take size⟩
      (taken ++ [size]) := by
  obtain ⟨hdistinct, hallocated, hmallocs, hfreed, hfrees⟩ := hbalanced
  rw [totalSize_concat] at hbytes
  rw [List.length_append, List.length_singleton] at hcount
  refine ⟨List.nodup_cons.mpr ⟨?_, hdistinct⟩, ?_, ?_, ?_, ?_⟩
  · intro hmem
    obtain ⟨other, hother, rfl⟩ := List.mem_map.mp hmem
    exact absurd rfl
      (bne_iff_ne.mp (List.lookup_eq_none_iff.mp hblock other hother))
  · rw [totalSize_concat, ← hallocated]
    exact toNat_add_of_lt_size (hallocated ▸ hbytes)
  · rw [List.length_append, List.length_singleton, ← hmallocs]
    exact toNat_add_of_lt_size (hmallocs ▸ hcount)
  · change h.counts.freedBytes.toNat +
      (size.toNat + totalSize (h.blocks.map Prod.snd)) = _
    rw [totalSize_concat, ← hfreed]
    omega
  · change h.counts.frees.toNat + (h.blocks.length + 1) = _
    rw [List.length_append, List.length_singleton, ← hfrees]
    rfl

theorem giveBack (hbalanced : h.Balanced taken)
    (hblock : h.size? block = some size)
    (hbytes : totalSize taken < UInt64.size)
    (hcount : taken.length < UInt64.size) :
    Balanced ⟨h.without block, h.counts.giveBack size⟩ taken := by
  obtain ⟨hdistinct, hallocated, hmallocs, hfreed, hfrees⟩ := hbalanced
  have hperm : h.blocks.Perm ((block, size) :: h.without block) :=
    perm_cons_filter hdistinct hblock
  have htotal : totalSize (h.blocks.map Prod.snd) =
      size.toNat + totalSize ((h.without block).map Prod.snd) :=
    totalSize_perm (hperm.map Prod.snd)
  have hlength : h.blocks.length = (h.without block).length + 1 :=
    hperm.length_eq
  refine ⟨hdistinct.sublist (List.filter_sublist.map Prod.fst), hallocated,
    hmallocs, ?_, ?_⟩
  · change (h.counts.freedBytes + size).toNat +
      totalSize ((h.without block).map Prod.snd) = _
    rw [toNat_add_of_lt_size (by omega), Nat.add_assoc, ← htotal]
    exact hfreed
  · change (h.counts.frees + 1).toNat + (h.without block).length = _
    have hone : (1 : UInt64).toNat = 1 := rfl
    rw [toNat_add_of_lt_size (by omega), hone, Nat.add_assoc, Nat.add_comm 1,
      ← hlength]
    exact hfrees

theorem step (hbalanced : h.Balanced taken) (hadmits : h.Admits call)
    (hbytes : totalSize (taken ++ call.taken?.toList) < UInt64.size)
    (hcount : (taken ++ call.taken?.toList).length < UInt64.size) :
    (h.step call).Balanced (taken ++ call.taken?.toList) := by
  cases call with
  | allocate block size succeeds =>
      cases succeeds with
      | false =>
          change h.Balanced (taken ++ [])
          rwa [List.append_nil]
      | true => exact hbalanced.take hadmits hbytes hcount
  | reallocate block old size succeeds =>
      cases succeeds with
      | false =>
          change h.Balanced (taken ++ [])
          rwa [List.append_nil]
      | true =>
          -- the block is given back with its old size and taken anew
          have hgone :
              Balanced ⟨h.without block, h.counts.giveBack old⟩ taken := by
            apply hbalanced.giveBack hadmits
            · rw [totalSize_append] at hbytes
              omega
            · rw [List.length_append] at hcount
              omega
          exact hgone.take (lookup_filter_self block h.blocks) hbytes hcount
  | deallocate block size =>
      change Balanced _ (taken ++ [])
      change totalSize (taken ++ []) < _ at hbytes
      change (taken ++ []).length < _ at hcount
      rw [List.append_nil] at hbytes hcount ⊢
      exact hbalanced.giveBack hadmits hbytes hcount

theorem run (hbalanced : h.Balanced taken) (horderly : h.Orderly calls)
    (hbytes : totalSize (taken ++ AllocationCall.taken calls) < UInt64.size)
    (hcount : (taken ++ AllocationCall.taken calls).length < UInt64.size) :
    (h.run calls).Balanced (taken ++ AllocationCall.taken calls) := by
  induction calls generalizing h taken with
  | nil =>
      rw [AllocationCall.taken, List.filterMap_nil, List.append_nil]
      exact hbalanced
  | cons call calls ih =>
      obtain ⟨hadmits, hrest⟩ := horderly
      rw [AllocationCall.taken_cons, ← List.append_assoc] at hbytes hcount ⊢
      refine ih (hbalanced.step hadmits ?_ ?_) hrest hbytes hcount
      · rw [totalSize_append] at hbytes
        omega
      · rw [List.length_append] at hcount
        omega

end Balanced

end Heap

/-- While a program gives back only what it has, with the size that it has, and
not more than 64 bits can count was taken, the counts tell what is in use: its
bytes and its blocks are what is shown, what was given back is at most what was
taken, and all that was taken is counted. -/
theorem AllocationCounts.tell_use {calls : List AllocationCall}
    (horderly : Heap.empty.Orderly calls)
    (hbytes : totalSize (AllocationCall.taken calls) < UInt64.size)
    (hcount : (AllocationCall.taken calls).length < UInt64.size) :
    let c := calls.foldl AllocationCounts.record .zero
    ∃ live : List (Nat × UInt64), (live.map Prod.fst).Nodup ∧
      (∀ block size, (block, size) ∈ live ↔
        AllocationCall.sizeAfter calls block = some size) ∧
      c.liveBytes.toNat = totalSize (live.map Prod.snd) ∧
        c.liveObjects.toNat = live.length ∧
      c.frees ≤ c.mallocs ∧ c.freedBytes ≤ c.allocatedBytes ∧
      c.allocatedBytes.toNat = totalSize (AllocationCall.taken calls) ∧
      c.mallocs.toNat = (AllocationCall.taken calls).length := by
  intro c
  obtain ⟨hdistinct, hallocated, hmallocs, hfreed, hfrees⟩ :=
    Heap.Balanced.empty.run horderly hbytes hcount
  rw [Heap.counts_run, List.nil_append] at hallocated hmallocs hfreed hfrees
  refine ⟨_, hdistinct, fun block size => ?_, ?_, ?_, ?_, ?_, hallocated,
    hmallocs⟩
  · rw [mem_iff_lookup_eq_some hdistinct, ← Heap.size?_run]
    rfl
  · exact toNat_monus (hfreed.trans hallocated.symm)
  · exact toNat_monus (hfrees.trans hmallocs.symm)
  · rw [UInt64.le_iff_toNat_le]
    exact Nat.le.intro (hfrees.trans hmallocs.symm)
  · rw [UInt64.le_iff_toNat_le]
    exact Nat.le.intro (hfreed.trans hallocated.symm)

/-- A block is made smaller and another one given back, and two requests fail;
what is left is a block of 30 bytes and one of 5. -/
theorem AllocationCounts.tell_use_resized :
    let calls : List AllocationCall :=
      [.allocate 0 100 true, .allocate 1 8 true, .allocate 2 64 false,
        .reallocate 0 100 30 true, .reallocate 1 8 9000 false, .deallocate 1 8,
        .allocate 1 5 true]
    Heap.empty.Orderly calls ∧ totalSize (AllocationCall.taken calls) = 143 ∧
      ∃ live : List (Nat × UInt64), (live.map Prod.fst).Nodup ∧
        (∀ block size, (block, size) ∈ live ↔
          AllocationCall.sizeAfter calls block = some size) ∧
        totalSize (live.map Prod.snd) = 35 ∧ live.length = 2 := by
  intro calls
  have horderly : Heap.empty.Orderly calls :=
    ⟨rfl, rfl, rfl, rfl, rfl, rfl, rfl, trivial⟩
  have htaken : totalSize (AllocationCall.taken calls) = 143 := by decide
  obtain ⟨live, hdistinct, hlive, hbytes, hobjects, -⟩ :=
    AllocationCounts.tell_use horderly (by rw [htaken]; decide) (by decide)
  refine ⟨horderly, htaken, live, hdistinct, hlive, hbytes.symm.trans ?_,
    hobjects.symm.trans ?_⟩
  · decide
  · decide

end Telemetry
