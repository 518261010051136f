import Mathlib.Algebra.GroupWithZero.Nat
import Mathlib.Algebra.Order.BigOperators.Group.List
import Mathlib.Tactic.Common

/-!
# Who owned a resource, and for how long

A clock that only moves forward, a resource that has at most one owner, and updates at which the
owner's time is taken. A `Timeline` cuts the time that has passed into the maximal intervals in
which the owner stayed the same and keeps, for each of them, its start, its last update and its end.
`total a` is the time from the start to the last update, summed over the intervals of `a`.

- `total_advance`, `total_update`, `total_setOwner`: only an update moves a total, by the time since
  the last one, and only that of the owner;
- `total_le_now`: no element is given more time than has passed.
-/

/-- An interval in which the owner stayed the same. -/
structure Timeline.Interval (α : Type*) where
  /-- The owner. -/
  owner : α
  /-- When the interval started. -/
  start : ℕ
  /-- The last update in the interval, or its start. -/
  last : ℕ
  /-- When the interval ended. -/
  stop : ℕ

/-- The time that has passed, cut into intervals of ownership. -/
structure Timeline (α : Type*) where
  /-- The time that has passed. -/
  now : ℕ
  /-- The owner. -/
  owner : Option α
  /-- When the current interval started. -/
  start : ℕ
  /-- The last update in the current interval, or its start. -/
  last : ℕ
  /-- The intervals that have ended, the latest first. -/
  closed : List (Timeline.Interval α)

namespace Timeline

/-- What happens at the clock and at the resource. -/
inductive Event (α : Type*)
  /-- Time passes. -/
  | advance (delta : ℕ)
  /-- The time of the owner is taken. -/
  | update
  /-- From now on the resource has this owner. -/
  | setOwner (owner : Option α)

variable {α : Type*} [DecidableEq α]

/-- The beginning of time. -/
def empty : Timeline α where
  now := 0
  owner := none
  start := 0
  last := 0
  closed := []

/-- The current interval as one that ends now. -/
def current (tl : Timeline α) : List (Interval α) :=
  tl.owner.toList.map fun a => ⟨a, tl.start, tl.last, tl.now⟩

/-- One event; an owner that is set again goes on with its interval. -/
def step (tl : Timeline α) : Event α → Timeline α
  | .advance delta => { tl with now := tl.now + delta }
  | .update => { tl with last := tl.now }
  | .setOwner owner =>
    if owner = tl.owner then tl
    else
      { now := tl.now, owner := owner, start := tl.now, last := tl.now
        closed := tl.current ++ tl.closed }

/-- A list of events, in the order in which they happen. -/
def run (tl : Timeline α) (es : List (Event α)) : Timeline α :=
  es.foldl step tl

/-- The time of the intervals of `a` in a list, up to their last updates. -/
def sumOf (a : α) (l : List (Interval α)) : ℕ :=
  (l.map fun i => if i.owner = a then i.last - i.start else 0).sum

/-- The time `a` has been given: over all its intervals, from the start to the last update. -/
def total (tl : Timeline α) (a : α) : ℕ :=
  sumOf a (tl.current ++ tl.closed)

/-- Nothing is outstanding: each interval was updated when it ended. -/
def Settled (tl : Timeline α) : Prop :=
  ∀ i ∈ tl.closed, i.last = i.stop

/-- The times are in order, and the intervals that have ended fit before the current one. -/
structure Ordered (tl : Timeline α) : Prop where
  start_le : tl.start ≤ tl.last
  last_le : tl.last ≤ tl.now
  closed_le : ∀ a, sumOf a tl.closed ≤ tl.start

@[simp] theorem run_nil (tl : Timeline α) : tl.run [] = tl := rfl

@[simp] theorem run_cons (tl : Timeline α) (e : Event α) (es : List (Event α)) :
    tl.run (e :: es) = (tl.step e).run es := rfl

theorem run_append (tl : Timeline α) (es es' : List (Event α)) :
    tl.run (es ++ es') = (tl.run es).run es' :=
  List.foldl_append

/-- A change of the owner takes no time. -/
@[simp] theorem step_setOwner_now (tl : Timeline α) (owner : Option α) :
    (tl.step (.setOwner owner)).now = tl.now := by
  simp only [step]
  split <;> rfl

@[simp] theorem step_setOwner_owner (tl : Timeline α) (owner : Option α) :
    (tl.step (.setOwner owner)).owner = owner := by
  simp only [step]
  split
  · next h => exact h.symm
  · rfl

/-- Handing the resource to its owner changes nothing. -/
@[simp] theorem step_setOwner_self (tl : Timeline α) : tl.step (.setOwner tl.owner) = tl := by
  simp [step]

/-- The clock does not move back. -/
theorem now_le_step (tl : Timeline α) (e : Event α) : tl.now ≤ (tl.step e).now := by
  cases e with
  | advance delta => exact Nat.le_add_right _ _
  | update => exact le_rfl
  | setOwner owner =>
    simp only [step]
    split <;> exact le_rfl

/-- Time does not go back along a run. -/
theorem now_le_run (tl : Timeline α) (es : List (Event α)) : tl.now ≤ (tl.run es).now := by
  induction es generalizing tl with
  | nil => exact le_rfl
  | cons e es ih => exact (tl.now_le_step e).trans (ih _)

/-! ## Totals -/

/-- The lengths of two lists of intervals. -/
theorem sumOf_append (a : α) (l l' : List (Interval α)) :
    sumOf a (l ++ l') = sumOf a l + sumOf a l' := by
  simp [sumOf]

/-- What the last owner has had, and what it has had before. -/
theorem total_eq (tl : Timeline α) (a : α) :
    tl.total a = (if tl.owner = some a then tl.last - tl.start else 0) + sumOf a tl.closed := by
  rw [total, sumOf_append]
  cases h : tl.owner with
  | none => simp [current, sumOf, h]
  | some b => simp [current, sumOf, h]

/-- Time that passes is charged to nobody until the next update. -/
theorem total_advance (tl : Timeline α) (delta : ℕ) (a : α) :
    (tl.step (.advance delta)).total a = tl.total a := by
  rw [total_eq, total_eq]
  rfl

/-- What was charged stays charged when the owner changes. -/
theorem total_setOwner (tl : Timeline α) (owner : Option α) (a : α) :
    (tl.step (.setOwner owner)).total a = tl.total a := by
  simp only [step]
  split
  · rfl
  · -- the new interval is empty, and the old one is among the closed ones
    rw [total_eq, total]
    simp

/-- An update charges the owner with the time since the last one. -/
theorem total_update {tl : Timeline α} (h : tl.Ordered) (a : α) :
    (tl.step .update).total a =
      tl.total a + if tl.owner = some a then tl.now - tl.last else 0 := by
  have hstart := h.start_le
  have hlast := h.last_le
  rw [total_eq, total_eq]
  by_cases ha : tl.owner = some a
  · simp only [step, ha, if_true]
    omega
  · simp only [step, ha, if_false]
    omega

/-- Nobody is charged more time than has passed. -/
theorem total_le_now {tl : Timeline α} (h : tl.Ordered) (a : α) : tl.total a ≤ tl.now := by
  have hstart := h.start_le
  have hlast := h.last_le
  have hclosed := h.closed_le a
  rw [total_eq]
  split_ifs <;> omega

/-! ## Steps -/

/-- At the start all times are zero. -/
theorem Ordered.empty : (Timeline.empty : Timeline α).Ordered :=
  ⟨le_rfl, le_rfl, fun _ => le_rfl⟩

/-- Start, last update and now stay in order. -/
theorem Ordered.step {tl : Timeline α} (h : tl.Ordered) (e : Event α) : (tl.step e).Ordered := by
  have hstart := h.start_le
  have hlast := h.last_le
  cases e with
  | advance delta => exact ⟨hstart, hlast.trans (Nat.le_add_right _ _), h.closed_le⟩
  | update => exact ⟨hstart.trans hlast, le_rfl, h.closed_le⟩
  | setOwner owner =>
    simp only [Timeline.step]
    split
    · exact h
    · refine ⟨le_rfl, le_rfl, fun a => ?_⟩
      exact total_le_now h a

/-- They stay so along a run. -/
theorem Ordered.run {tl : Timeline α} (h : tl.Ordered) (es : List (Event α)) :
    (tl.run es).Ordered := by
  induction es generalizing tl with
  | nil => exact h
  | cons e es ih => exact ih (h.step e)

/-- The closed intervals stay closed while time passes. -/
theorem Settled.advance {tl : Timeline α} (h : tl.Settled) (delta : ℕ) :
    (tl.step (.advance delta)).Settled := h

/-- They stay so at an update. -/
theorem Settled.update {tl : Timeline α} (h : tl.Settled) : (tl.step .update).Settled := h

/-- An owner that leaves right after an update leaves nothing outstanding. -/
theorem Settled.setOwner {tl : Timeline α} (h : tl.Settled) {owner : Option α}
    (hlast : tl.owner = owner ∨ tl.owner = none ∨ tl.last = tl.now) :
    (tl.step (.setOwner owner)).Settled := by
  simp only [step]
  split
  · exact h
  · next hne =>
    intro i hi
    rcases List.mem_append.mp hi with hi | hi
    · rcases hlast with heq | hnone | hlast
      · exact absurd heq.symm hne
      · simp [current, hnone] at hi
      · obtain ⟨a, -, rfl⟩ := List.mem_map.mp hi
        exact hlast
    · exact h i hi

end Timeline
