import Telemetry.Report.Worker
import Telemetry.Proofs.List

/-!
# What becomes of the chunks of a batch

A carrier takes chunks to a receiver.  A chunk that is reported as delivered has
arrived; one that is reported as failed may have arrived nevertheless.  While a
batch is on its way every chunk is in exactly one place: it has arrived, it is
lost, or it has not been sent yet.  No chunk arrives twice, and only a batch all
of whose chunks have arrived succeeds.
-/

namespace Telemetry

/-- What carries chunks to a receiver.  The receiver keeps what arrives, in
order; sending a chunk makes it arrive once or not at all, and it has arrived
whenever its sender is told so. -/
structure Carrier (σ : Type) where
  deliver : Batch → StateM σ (Except TransportError Unit)
  arrivals : σ → List Batch
  arrives_or_not :
    ∀ chunk w, arrivals (deliver chunk w).2 = arrivals w ∨
      arrivals (deliver chunk w).2 = arrivals w ++ [chunk]
  arrives_of_ok :
    ∀ chunk w, (deliver chunk w).1 = .ok () →
      arrivals (deliver chunk w).2 = arrivals w ++ [chunk]

/-! ## Chunks of a batch -/

theorem flatten_cutParts {α : Type} (length parts : Nat) (xs : List α) :
    (cutParts length parts xs).flatten = xs := by
  induction parts generalizing xs with
  | zero => simp [cutParts]
  | succ parts ih => simp [cutParts, ih]

/-- The parts of a list are the list when they are put together again. -/
theorem flatten_partition {α : Type} (n : Nat) (xs : List α) :
    (partition n xs).flatten = xs := by
  unfold partition
  dsimp only
  split
  · exact List.flatMap_singleton' xs
  · exact flatten_cutParts _ _ _

namespace Flight

variable {σ : Type}

def waiting (f : Flight σ) : List Batch := f.chunks.filterMap id

/-- Every chunk of a batch that was sent from the world `w` is in one place:
arrived since then, lost, or waiting; nothing is lost without a failure. -/
structure Accounts (c : Carrier σ) (chunks : List Batch) (w : σ)
    (f : Flight σ) : Prop where
  places : ∃ arrived lost,
    c.arrivals f.world = c.arrivals w ++ arrived ∧
      (arrived ++ lost ++ f.waiting).Perm chunks ∧
      (f.failure = none → lost = [])
  stopped : f.stopped = true → f.failure ≠ none

theorem accounts_start (c : Carrier σ) (chunks : List Batch) (w : σ) :
    (start chunks w).Accounts c chunks w where
  places := by
    refine ⟨[], [], by simp [start], ?_, fun _ => rfl⟩
    simp [start, waiting]
  stopped := by simp [start]

/-- The failure that is heard of when a chunk is done; after a shutdown nothing
is heard any more. -/
def heard (f : Flight σ) : Except TransportError Unit → Option TransportError
  | .ok () => none
  | .error e => if f.stopped then none else some e

theorem step_finish_of_waiting
    {deliver : Batch → StateM σ (Except TransportError Unit)} {f : Flight σ}
    {i : Nat} {chunk : Batch} (hi : f.chunks[i]? = some (some chunk)) :
    f.step deliver (.finish i) =
      { f with
        chunks := f.chunks.set i none
        failure := f.failure.or (f.heard (deliver chunk f.world).1)
        world := (deliver chunk f.world).2 } := by
  simp only [Flight.step, hi, heard]
  rfl

theorem step_finish_of_done
    {deliver : Batch → StateM σ (Except TransportError Unit)} {f : Flight σ}
    {i : Nat} (hi : ∀ chunk, f.chunks[i]? ≠ some (some chunk)) :
    f.step deliver (.finish i) = f := by
  unfold Flight.step
  split
  · contradiction
  · next heq =>
      obtain rfl : _ = i := by simpa using heq.symm
      split
      · next chunk hchunk => exact (hi chunk hchunk).elim
      · rfl

theorem Accounts.shutdown {c : Carrier σ} {chunks : List Batch} {w : σ}
    {f : Flight σ} (h : f.Accounts c chunks w) :
    (f.step c.deliver .shutdown).Accounts c chunks w := by
  obtain ⟨arrived, lost, harrived, hperm, hlost⟩ := h.places
  have hfailure : (f.step c.deliver .shutdown).failure ≠ none := by
    cases hf : f.failure <;> simp [Flight.step, hf]
  exact ⟨⟨arrived, lost, harrived, hperm, fun hnone => (hfailure hnone).elim⟩,
    fun _ => hfailure⟩

theorem Accounts.finish {c : Carrier σ} {chunks : List Batch} {w : σ}
    {f : Flight σ} (h : f.Accounts c chunks w) {i : Nat} {chunk : Batch}
    (hi : f.chunks[i]? = some (some chunk)) :
    (f.step c.deliver (.finish i)).Accounts c chunks w := by
  obtain ⟨arrived, lost, harrived, hperm, hlost⟩ := h.places
  rw [step_finish_of_waiting hi]
  have hwaiting : (arrived ++ lost ++
      chunk :: (f.chunks.set i none).filterMap id).Perm chunks :=
    ((filterMap_set_perm (g := id) hi rfl rfl).append_left _).trans hperm
  refine ⟨?_, fun hstopped => ?_⟩
  · rcases c.arrives_or_not chunk f.world with hnot | harrives
    · -- the chunk is lost, which its sender hears of unless the batch has
      -- failed before
      refine ⟨arrived, lost ++ [chunk], hnot.trans harrived, ?_,
        fun hnone => ?_⟩
      · refine List.Perm.trans ?_ hwaiting
        simp [waiting]
      · obtain ⟨hbefore, hheard⟩ := Option.or_eq_none_iff.mp hnone
        have hrunning : f.stopped = false := by
          by_contra hstopped
          exact h.stopped (by simpa using hstopped) hbefore
        cases hresult : (c.deliver chunk f.world).1 with
        | ok u =>
            have := c.arrives_of_ok chunk f.world hresult
            rw [hnot] at this
            simp at this
        | error e => simp [heard, hresult, hrunning] at hheard
    · refine ⟨arrived ++ [chunk], lost, ?_, ?_, fun hnone => ?_⟩
      · rw [harrives, harrived, List.append_assoc]
      · refine List.Perm.trans ?_ hwaiting
        have hswap : ([chunk] ++ lost).Perm (lost ++ [chunk]) :=
          List.perm_append_comm
        have hmove :
            (arrived ++ [chunk] ++ lost).Perm (arrived ++ lost ++ [chunk]) := by
          simpa using hswap.append_left arrived
        simpa [waiting]
          using hmove.append_right ((f.chunks.set i none).filterMap id)
      · exact hlost (Option.or_eq_none_iff.mp hnone).1
  · intro hnone
    exact h.stopped hstopped (Option.or_eq_none_iff.mp hnone).1

/-- Whatever happens, the chunks stay accounted for. -/
theorem Accounts.step {c : Carrier σ} {chunks : List Batch} {w : σ}
    {f : Flight σ} (h : f.Accounts c chunks w) (turn : Turn) :
    (f.step c.deliver turn).Accounts c chunks w := by
  cases turn with
  | shutdown => exact h.shutdown
  | finish i =>
      by_cases hi : ∃ chunk, f.chunks[i]? = some (some chunk)
      · obtain ⟨chunk, hi⟩ := hi
        exact h.finish hi
      · rw [step_finish_of_done (fun chunk hchunk => hi ⟨chunk, hchunk⟩)]
        exact h

theorem Accounts.foldl {c : Carrier σ} {chunks : List Batch} {w : σ}
    {f : Flight σ} (h : f.Accounts c chunks w) (turns : List Turn) :
    (turns.foldl (Flight.step c.deliver) f).Accounts c chunks w := by
  induction turns generalizing f with
  | nil => exact h
  | cons turn turns ih => exact ih (h.step turn)

/-! ## When nothing is left -/

/-- A chunk that is done stays done. -/
theorem step_done {deliver : Batch → StateM σ (Except TransportError Unit)}
    {f : Flight σ} {i : Nat} (hi : ∀ chunk, f.chunks[i]? ≠ some (some chunk))
    (turn : Turn) (chunk : Batch) :
    (f.step deliver turn).chunks[i]? ≠ some (some chunk) := by
  cases turn with
  | shutdown => exact hi chunk
  | finish j =>
      by_cases hj : ∃ chunk, f.chunks[j]? = some (some chunk)
      · obtain ⟨other, hj⟩ := hj
        rw [step_finish_of_waiting hj]
        simp only [List.getElem?_set]
        split
        · split <;> simp
        · exact hi chunk
      · rw [step_finish_of_done (fun chunk hchunk => hj ⟨chunk, hchunk⟩)]
        exact hi chunk

theorem step_finish_done
    {deliver : Batch → StateM σ (Except TransportError Unit)} (f : Flight σ)
    (i : Nat) (chunk : Batch) :
    (f.step deliver (.finish i)).chunks[i]? ≠ some (some chunk) := by
  by_cases hi : ∃ chunk, f.chunks[i]? = some (some chunk)
  · obtain ⟨other, hi⟩ := hi
    rw [step_finish_of_waiting hi]
    simp only [List.getElem?_set_self']
    cases f.chunks[i]? <;> simp
  · rw [step_finish_of_done (fun chunk hchunk => hi ⟨chunk, hchunk⟩)]
    exact fun hchunk => hi ⟨chunk, hchunk⟩

theorem foldl_finish_done
    {deliver : Batch → StateM σ (Except TransportError Unit)} {is : List Nat}
    {i : Nat} (f : Flight σ)
    (h : i ∈ is ∨ ∀ chunk, f.chunks[i]? ≠ some (some chunk)) (chunk : Batch) :
    ((is.map Turn.finish).foldl (Flight.step deliver) f).chunks[i]? ≠
      some (some chunk) := by
  induction is generalizing f with
  | nil => exact (h.resolve_left (by simp)) chunk
  | cons j is ih =>
      refine ih (f.step deliver (.finish j)) ?_
      rcases h with hmem | hdone
      · rcases List.mem_cons.mp hmem with rfl | hmem
        · exact Or.inr (step_finish_done f i)
        · exact Or.inl hmem
      · exact Or.inr (step_done hdone _)

theorem length_foldl_finish
    {deliver : Batch → StateM σ (Except TransportError Unit)} (is : List Nat)
    (f : Flight σ) :
    ((is.map Turn.finish).foldl (Flight.step deliver) f).chunks.length =
      f.chunks.length := by
  induction is generalizing f with
  | nil => rfl
  | cons i is ih =>
      refine (ih (f.step deliver (.finish i))).trans ?_
      by_cases hi : ∃ chunk, f.chunks[i]? = some (some chunk)
      · obtain ⟨chunk, hi⟩ := hi
        simp [step_finish_of_waiting hi]
      · rw [step_finish_of_done (fun chunk hchunk => hi ⟨chunk, hchunk⟩)]

/-- When each chunk has had its turn none is waiting. -/
theorem waiting_foldl_finish
    {deliver : Batch → StateM σ (Except TransportError Unit)} (f : Flight σ) :
    (((List.range f.chunks.length).map Turn.finish).foldl
      (Flight.step deliver) f).waiting = [] := by
  refine List.filterMap_eq_nil_iff.mpr fun slot hslot => ?_
  obtain ⟨i, hlt, rfl⟩ := List.getElem_of_mem hslot
  rw [length_foldl_finish] at hlt
  cases hchunk : (((List.range f.chunks.length).map Turn.finish).foldl
      (Flight.step deliver) f).chunks[i] with
  | none => rfl
  | some chunk =>
      have hdone : (((List.range f.chunks.length).map Turn.finish).foldl
          (Flight.step deliver) f).chunks[i]? ≠ some (some chunk) :=
        foldl_finish_done f (Or.inl (List.mem_range.mpr hlt)) chunk
      rw [List.getElem?_eq_getElem (by rwa [length_foldl_finish]), hchunk]
        at hdone
      exact absurd rfl hdone

/-- Of the chunks that are sent from the world `w` every one arrives once or not
at all, and all of them arrive when nothing fails. -/
theorem arrivals_run (c : Carrier σ) (turns : List Turn) (chunks : List Batch)
    (w : σ) :
    ∃ arrived missing,
      c.arrivals ((start chunks w).run c.deliver turns).world =
        c.arrivals w ++ arrived ∧
      (arrived ++ missing).Perm chunks ∧
      (((start chunks w).run c.deliver turns).failure = none →
        missing = []) := by
  have hturns := (accounts_start c chunks w).foldl turns
  unfold run
  dsimp only
  split
  · next hstopped =>
      obtain ⟨arrived, lost, harrived, hperm, -⟩ := hturns.places
      refine ⟨arrived, lost ++ _,
        harrived, by simpa using hperm, fun hnone => ?_⟩
      exact absurd hnone (hturns.stopped hstopped)
  · obtain ⟨arrived, lost, harrived, hperm, hlost⟩ := (hturns.foldl _).places
    rw [waiting_foldl_finish, List.append_nil] at hperm
    exact ⟨arrived, lost, harrived, hperm, hlost⟩

end Flight

end Telemetry
