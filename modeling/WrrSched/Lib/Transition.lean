import Mathlib.Tactic.Common

/-!
# Transition systems and their runs

A `TransitionSystem` has initial states, inputs that may or may not be enabled in a state, and a
deterministic `next`. Nondeterminism of the modelled system lives in the inputs. A `Run` keeps its
history, newest input first, together with the state in which each input was taken, so that
properties that mention the past can be stated on it; `Reachable` forgets the history.

- `Reachable.invariant`: an inductive invariant holds in every reachable state;
- `Reachable.invariant_with`: its proof may use an invariant that is already known;
- `Path.invariant`: what each step of a stretch of a run keeps, the whole stretch keeps.
-/

/-- States `σ`, inputs `ι`: where runs start, which inputs a state admits, and what they do. -/
structure TransitionSystem (σ ι : Type*) where
  /-- The states in which a run may start. -/
  init : σ → Prop
  /-- The inputs that may be taken in a state. -/
  enabled : σ → ι → Prop
  /-- The effect of an input. -/
  next : σ → ι → σ

namespace TransitionSystem

variable {σ ι : Type*} {T : TransitionSystem σ ι}

/-- `T.Run h s`: a run with history `h`, newest step first, ends in `s`. -/
inductive Run (T : TransitionSystem σ ι) : List (σ × ι) → σ → Prop
  | init {s : σ} : T.init s → Run T [] s
  | step {h : List (σ × ι)} {s : σ} {i : ι} :
      Run T h s → T.enabled s i → Run T ((s, i) :: h) (T.next s i)

/-- The states some run ends in. -/
def Reachable (T : TransitionSystem σ ι) (s : σ) : Prop :=
  ∃ h, T.Run h s

theorem Run.reachable {h : List (σ × ι)} {s : σ} (hr : T.Run h s) : T.Reachable s :=
  ⟨h, hr⟩

theorem Reachable.init {s : σ} (hs : T.init s) : T.Reachable s :=
  ⟨[], .init hs⟩

theorem Reachable.step {s : σ} {i : ι} (hs : T.Reachable s) (hi : T.enabled s i) :
    T.Reachable (T.next s i) := by
  obtain ⟨h, hr⟩ := hs
  exact ⟨(s, i) :: h, .step hr hi⟩

/-- An inductive invariant holds in every reachable state. -/
theorem Reachable.invariant {I : σ → Prop} (hinit : ∀ s, T.init s → I s)
    (hstep : ∀ s i, I s → T.enabled s i → I (T.next s i)) {s : σ} (hs : T.Reachable s) : I s := by
  obtain ⟨h, hr⟩ := hs
  induction hr with
  | init h0 => exact hinit _ h0
  | step _ hi ih => exact hstep _ _ ih hi

/-- An inductive invariant may use one that is already known. -/
theorem Reachable.invariant_with {J I : σ → Prop} (hJ : ∀ s, T.Reachable s → J s)
    (hinit : ∀ s, T.init s → I s)
    (hstep : ∀ s i, J s → I s → T.enabled s i → I (T.next s i)) {s : σ} (hs : T.Reachable s) :
    I s := by
  obtain ⟨h, hr⟩ := hs
  induction hr with
  | init h0 => exact hinit _ h0
  | step hr hi ih => exact hstep _ _ (hJ _ hr.reachable) ih hi

/-- `T.Path P s s'`: steps that satisfy `P` lead from `s` to `s'`. -/
inductive Path (T : TransitionSystem σ ι) (P : σ → ι → Prop) (s : σ) : σ → Prop
  | refl : Path T P s s
  | step {s' : σ} {i : ι} : Path T P s s' → T.enabled s' i → P s' i → Path T P s (T.next s' i)

variable {P : σ → ι → Prop} {s s' : σ}

theorem Path.reachable (hp : T.Path P s s') (hs : T.Reachable s) : T.Reachable s' := by
  induction hp with
  | refl => exact hs
  | step _ hi _ ih => exact ih.step hi

/-- What holds at the start of a path and is kept by its steps holds at its end. -/
theorem Path.invariant {I : σ → Prop} (hp : T.Path P s s') (hs : T.Reachable s) (h0 : I s)
    (hstep : ∀ t i, T.Reachable t → I t → T.enabled t i → P t i → I (T.next t i)) : I s' := by
  induction hp with
  | refl => exact h0
  | step hp hi hP ih => exact hstep _ _ (hp.reachable hs) ih hi hP

end TransitionSystem
