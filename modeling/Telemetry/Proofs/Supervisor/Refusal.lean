import Telemetry.Supervisor
import Mathlib.Data.List.Basic

/-!
# A component that refuses to start

While the world keeps a property, some components refuse to start.  If all
others keep the property, whatever their starts and stops answer, then a run
with a component that refuses ends with an error and the property still holds:
the components that are stopped are the ones that did start.
-/

namespace Telemetry.Supervisor

variable {σ : Type}

/-- Starting and stopping the component keeps a property of the world. -/
def Keeps (P : σ → Prop) (c : Component σ) : Prop :=
  ∀ world, P world → P (c.start world).world ∧ P (c.stop world).2

/-- The component does not start in a world with the property, and the
property is kept. -/
def Refuses (P : σ → Prop) (c : Component σ) : Prop :=
  ∀ world, P world → P (c.start world).world ∧
    ∃ reason, (c.start world).outcome = .error reason

namespace State

@[simp] theorem world_cancel (s : State σ) : s.cancel.world = s.world := by
  unfold cancel
  split <;> rfl

@[simp] theorem world_initial (requested : Option Nat) (world : σ) :
    (initial requested world).world = world := by
  unfold initial
  dsimp only
  split
  · exact world_cancel _
  · rfl

@[simp] theorem world_start (s : State σ) (c : Component σ) :
    (s.start c).world = (c.start s.world).world := by
  unfold start
  dsimp only
  split
  · exact world_cancel _
  · rfl

end State

variable {P : σ → Prop} {components : List (Component σ)}

/-- Only components that keep the property are running when
the starts are over. -/
theorem startAll_of_keeps (hall : ∀ c ∈ components, Keeps P c ∨ Refuses P c)
    {running : List (Component σ)} (hrunning : ∀ c ∈ running, Keeps P c)
    {s : State σ} (hs : P s.world) :
    (∀ c ∈ (startAll running s components).1, Keeps P c) ∧
      P (startAll running s components).2.2.world ∧
      ((∃ c ∈ components, Refuses P c) →
        (startAll running s components).2.1.isSome) := by
  induction components generalizing running s with
  | nil => exact ⟨hrunning, hs, fun ⟨c, hc, _⟩ => nomatch hc⟩
  | cons c rest ih =>
      have hrest : ∀ c ∈ rest, Keeps P c ∨ Refuses P c :=
        fun c hc => hall c (List.mem_cons_of_mem _ hc)
      have hstarted : P (s.start c).world := by
        rw [State.world_start]
        rcases hall c List.mem_cons_self with hkeeps | hrefuses
        · exact (hkeeps s.world hs).1
        · exact (hrefuses s.world hs).1
      unfold startAll
      cases houtcome : (c.start s.world).outcome with
      | error reason => exact ⟨hrunning, hstarted, fun _ => rfl⟩
      | ok =>
          have hstarts : ¬ Refuses P c := by
            intro hrefuses
            obtain ⟨-, reason, herror⟩ := hrefuses s.world hs
            nomatch houtcome.symm.trans herror
          have hkeeps : Keeps P c :=
            (hall c List.mem_cons_self).resolve_right hstarts
          have hrunning' : ∀ c' ∈ c :: running, Keeps P c' := by
            simpa [hkeeps] using hrunning
          obtain ⟨hkept, hworld, hfailure⟩ := ih hrest hrunning' hstarted
          refine ⟨hkept, hworld, ?_⟩
          rintro ⟨c', hc', hrefuses⟩
          rcases List.mem_cons.mp hc' with rfl | hc'
          · exact absurd hrefuses hstarts
          · exact hfailure ⟨c', hc', hrefuses⟩

theorem shutDown_of_keeps {running : List (Component σ)}
    (hrunning : ∀ c ∈ running, Keeps P c) {s : State σ} (hs : P s.world) :
    P (shutDown s running).world := by
  unfold shutDown
  rw [← State.world_cancel] at hs
  generalize s.cancel = s at hs
  induction running generalizing s with
  | nil => exact hs
  | cons c rest ih =>
      have hstopped : P (s.stop c).world :=
        (hrunning c List.mem_cons_self s.world hs).2
      exact ih (fun c hc => hrunning c (List.mem_cons_of_mem _ hc))
        (s.stop c) hstopped

/-- A run with a component that refuses to start ends with an error and
keeps the property. -/
theorem run_of_refuses (hall : ∀ c ∈ components, Keeps P c ∨ Refuses P c)
    (hrefuses : ∃ c ∈ components, Refuses P c) (requested : Option Nat)
    (horizon : Nat) (world : σ) (hworld : P world) :
    (∃ e, (run components requested horizon world).result = some (.error e)) ∧
      P (run components requested horizon world).state.world := by
  have hinitial : P (State.initial requested world).world := by
    rw [State.world_initial]
    exact hworld
  have hnone : ∀ c ∈ ([] : List (Component σ)), Keeps P c :=
    fun c hc => nomatch hc
  obtain ⟨hkept, hlast, hfailure⟩ := startAll_of_keeps hall hnone hinitial
  obtain ⟨e, he⟩ := Option.isSome_iff_exists.mp (hfailure hrefuses)
  unfold run
  generalize startAll [] (State.initial requested world) components = result
    at *
  obtain ⟨running, failure, s⟩ := result
  obtain rfl : failure = some e := he
  exact ⟨⟨e, rfl⟩, shutDown_of_keeps hkept hlast⟩

end Telemetry.Supervisor
