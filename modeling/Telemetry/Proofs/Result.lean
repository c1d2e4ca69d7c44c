/-!
# Results of steps that may fail

A failure that is renamed stays a failure, and steps that succeed together
succeed one after the other.  A step over a state goes on in the state that the
step before it left, and what holds of the states that a step may leave is known
from its parts.
-/

namespace Telemetry

variable {ε ε' σ α β : Type}

@[simp] theorem mapError_ok (f : ε → ε') (a : α) :
    (Except.ok a : Except ε α).mapError f = .ok a := rfl

theorem mapError_eq_ok_iff {x : Except ε α} {f : ε → ε'} {a : α} :
    x.mapError f = .ok a ↔ x = .ok a := by
  cases x with
  | error e => exact iff_of_false (fun h => nomatch h) fun h => nomatch h
  | ok b => rw [mapError_ok, Except.ok.injEq, Except.ok.injEq]

theorem exists_of_bind_eq_ok {x : Except ε α} {f : α → Except ε β} {b : β}
    (h : x >>= f = .ok b) : ∃ a, x = .ok a ∧ f a = .ok b := by
  cases x with
  | error e => nomatch h
  | ok a => exact ⟨a, rfl, h⟩

theorem eq_of_ite_eq_ok {c : Prop} [Decidable c] {a b : α} {e : ε}
    (h : (if c then Except.ok a else .error e) = .ok b) : a = b := by
  by_cases hc : c
  · rw [if_pos hc] at h
    exact Except.ok.inj h
  · rw [if_neg hc] at h
    nomatch h

theorem run_bind_of_eq_ok {x : ExceptT ε (StateM σ) α} {s s' : σ} {a : α}
    (h : x s = (.ok a, s')) (f : α → ExceptT ε (StateM σ) β) :
    (x >>= f) s = f a s' := by
  change ExceptT.bindCont f (x s).1 (x s).2 = f a s'
  rw [h]
  rfl

theorem run_bind_of_eq_error {x : ExceptT ε (StateM σ) α} {s s' : σ} {e : ε}
    (h : x s = (.error e, s')) (f : α → ExceptT ε (StateM σ) β) :
    (x >>= f) s = (.error e, s') := by
  change ExceptT.bindCont f (x s).1 (x s).2 = (.error e, s')
  rw [h]
  rfl

theorem run_map_of_eq {x : ExceptT ε (StateM σ) α} {s s' : σ}
    {result : Except ε α} (h : x s = (result, s')) (f : α → β) :
    (f <$> x) s = (result.map f, s') := by
  cases result with
  | ok a => exact run_bind_of_eq_ok h fun a => pure (f a)
  | error e => exact run_bind_of_eq_error h fun a => pure (f a)

/-- What holds when an operation is done, in the state that it leaves. -/
def Ends (fails : σ → Prop) (succeeds : α → σ → Prop) : Except ε α × σ → Prop
  | (.ok a, s) => succeeds a s
  | (.error _, s) => fails s

theorem Ends.of_error {fails : σ → Prop} {succeeds : α → σ → Prop}
    {x : Except ε α × σ} {e : ε} (h : Ends fails succeeds x)
    (he : x.1 = .error e) : fails x.2 := by
  rcases x with ⟨result, s⟩
  obtain rfl : result = .error e := he
  exact h

theorem Ends.imp {fails fails' : σ → Prop} {succeeds succeeds' : α → σ → Prop}
    {x : Except ε α × σ} (h : Ends fails succeeds x)
    (hfails : ∀ s, fails s → fails' s)
    (hsucceeds : ∀ a s, succeeds a s → succeeds' a s) :
    Ends fails' succeeds' x := by
  rcases x with ⟨result, s⟩
  cases result with
  | ok a => exact hsucceeds a s h
  | error e => exact hfails s h

theorem Ends.mapState {τ : Type} (fails : τ → Prop) (succeeds : α → τ → Prop)
    {x : Except ε α × σ} (f : σ → τ)
    (h : Ends (fun s => fails (f s)) (fun a s => succeeds a (f s)) x) :
    Ends fails succeeds (x.1, f x.2) := by
  rcases x with ⟨result, s⟩
  cases result with
  | ok a => exact h
  | error e => exact h

theorem Ends.mapError {fails : σ → Prop} {succeeds : α → σ → Prop}
    {x : Except ε α × σ} (h : Ends fails succeeds x) (f : ε → ε') :
    Ends fails succeeds (x.1.mapError f, x.2) := by
  rcases x with ⟨result, s⟩
  cases result with
  | ok a => exact h
  | error e => exact h

theorem Ends.bind {fails : σ → Prop} {done : α → σ → Prop}
    {succeeds : β → σ → Prop} {x : ExceptT ε (StateM σ) α}
    {f : α → ExceptT ε (StateM σ) β} {s : σ} (hx : Ends fails done (x s))
    (hf : ∀ a s', done a s' → Ends fails succeeds (f a s')) :
    Ends fails succeeds ((x >>= f) s) := by
  rcases hrun : x s with ⟨result, s'⟩
  rw [hrun] at hx
  cases result with
  | ok a =>
      rw [run_bind_of_eq_ok hrun]
      exact hf a s' hx
  | error e =>
      rw [run_bind_of_eq_error hrun]
      exact hx

end Telemetry
