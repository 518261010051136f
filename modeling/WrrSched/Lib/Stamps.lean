import Mathlib.Data.List.Basic
import Mathlib.Data.List.Nodup
import Mathlib.Order.Lattice
import Mathlib.Algebra.Order.Ring.Int
import Mathlib.Tactic.Common

/-!
# Queues in the order of their insertions

A queue without repetitions, in which nodes are inserted at either end and removed. `Stamps` gives
every insertion a stamp: a fresh largest one at the tail, a fresh smallest one at the head.

- `Stamps.InOrder.run`: the queue stays increasing in the stamps of the last insertions;
- `QueueEvent.run_filter`: nodes that no event is about keep their relative order.
-/

/-- What happens to a queue. A node that is inserted leaves its old place, if it has one. -/
inductive QueueEvent (α : Type*)
  | remove (p : α)
  | insert (p : α) (head : Bool)

namespace QueueEvent

variable {α : Type*} [DecidableEq α]

/-- The node an event is about. -/
def node : QueueEvent α → α
  | remove p => p
  | insert p _ => p

/-- The queue after an event. -/
def apply (l : List α) : QueueEvent α → List α
  | remove p => l.erase p
  | insert p true => p :: l.erase p
  | insert p false => l.erase p ++ [p]

/-- The queue after some events, the first event first. -/
def run (l : List α) (es : List (QueueEvent α)) : List α :=
  es.foldl apply l

@[simp] theorem run_nil (l : List α) : run l [] = l := rfl

@[simp] theorem run_append (l : List α) (es es' : List (QueueEvent α)) :
    run l (es ++ es') = run (run l es) es' :=
  List.foldl_append

/-- Taking a node out that the filter drops changes nothing. -/
theorem filter_erase {P : α → Bool} {p : α} (hp : P p = false) (l : List α) :
    (l.erase p).filter P = l.filter P := by
  induction l with
  | nil => rfl
  | cons q l ih =>
    by_cases hq : q = p
    · rw [hq, List.erase_cons_head, List.filter_cons_of_neg (by simp [hp])]
    · rw [List.erase_cons_tail (by simpa using hq), List.filter_cons, List.filter_cons, ih]

/-- An event is only seen by a filter that lets its node pass. -/
theorem apply_filter {P : α → Bool} {e : QueueEvent α} (he : P e.node = false) (l : List α) :
    (apply l e).filter P = l.filter P := by
  cases e with
  | remove p => exact filter_erase he l
  | insert p head =>
    have hp : ¬P p = true := Bool.eq_false_iff.mp he
    cases head with
    | true =>
      show (p :: l.erase p).filter P = _
      rw [List.filter_cons_of_neg hp]
      exact filter_erase he l
    | false =>
      show (l.erase p ++ [p]).filter P = _
      rw [List.filter_append, List.filter_cons_of_neg hp, List.filter_nil, List.append_nil]
      exact filter_erase he l

/-- Nodes that no event is about keep their relative order. -/
theorem run_filter {P : α → Bool} {es : List (QueueEvent α)} (hes : ∀ e ∈ es, P e.node = false)
    (l : List α) : (run l es).filter P = l.filter P := by
  induction es generalizing l with
  | nil => rfl
  | cons e es ih =>
    have htail := ih (fun e' he' => hes e' (List.mem_cons_of_mem e he')) (apply l e)
    exact htail.trans (apply_filter (hes e List.mem_cons_self) l)

end QueueEvent

/-- The stamp of the last insertion of each node, between the smallest and the largest stamp given
so far. -/
structure Stamps (α : Type*) where
  stamp : α → ℤ
  smallest : ℤ
  largest : ℤ
  smallest_le : ∀ p, smallest ≤ stamp p
  le_largest : ∀ p, stamp p ≤ largest

namespace Stamps

variable {α : Type*} [DecidableEq α] {st : Stamps α} {l : List α}

/-- Nothing has been inserted yet. -/
def empty : Stamps α where
  stamp _ := 0
  smallest := 0
  largest := 0
  smallest_le _ := le_refl 0
  le_largest _ := le_refl 0

/-- Give `p` a stamp. -/
def set (st : Stamps α) (p : α) (n : ℤ) : Stamps α where
  stamp := Function.update st.stamp p n
  smallest := min st.smallest n
  largest := max st.largest n
  smallest_le q := by
    by_cases hq : q = p
    · rw [hq, Function.update_self]
      exact min_le_right _ _
    · rw [Function.update_of_ne hq]
      exact (min_le_left _ _).trans (st.smallest_le q)
  le_largest q := by
    by_cases hq : q = p
    · rw [hq, Function.update_self]
      exact le_max_right _ _
    · rw [Function.update_of_ne hq]
      exact (st.le_largest q).trans (le_max_left _ _)

/-- The node that is stamped. -/
@[simp] theorem set_stamp_self (st : Stamps α) (p : α) (n : ℤ) : (st.set p n).stamp p = n := by
  simp [set]

/-- Other nodes keep their stamps. -/
theorem set_stamp_of_ne (st : Stamps α) {p q : α} (h : q ≠ p) (n : ℤ) :
    (st.set p n).stamp q = st.stamp q := by
  simp [set, h]

/-- The stamps after an event. -/
def apply (st : Stamps α) : QueueEvent α → Stamps α
  | .remove _ => st
  | .insert p true => st.set p (st.smallest - 1)
  | .insert p false => st.set p (st.largest + 1)

/-- The stamps after some events. -/
def run (st : Stamps α) (es : List (QueueEvent α)) : Stamps α :=
  es.foldl apply st

/-- The queue is strictly increasing in the stamps of its nodes. -/
def InOrder (st : Stamps α) (l : List α) : Prop :=
  l.Pairwise fun p q => st.stamp p < st.stamp q

namespace InOrder

omit [DecidableEq α] in
/-- No node is listed twice. -/
theorem nodup (h : st.InOrder l) : l.Nodup :=
  h.imp fun hlt heq => absurd (heq ▸ hlt) (lt_irrefl _)

/-- Taking a node out keeps the order. -/
theorem erase (h : st.InOrder l) (p : α) : st.InOrder (l.erase p) :=
  h.sublist List.erase_sublist

/-- The stamp of a node that is not queued does not matter. -/
theorem set (h : st.InOrder l) {p : α} (hp : p ∉ l) (n : ℤ) : (st.set p n).InOrder l := by
  refine h.imp_of_mem fun {q r} hq hr hlt => ?_
  have hqp : q ≠ p := fun heq => hp (heq ▸ hq)
  have hrp : r ≠ p := fun heq => hp (heq ▸ hr)
  rw [set_stamp_of_ne st hqp, set_stamp_of_ne st hrp]
  exact hlt

/-- So does any event. -/
theorem apply (h : st.InOrder l) (e : QueueEvent α) : (st.apply e).InOrder (e.apply l) := by
  cases e with
  | remove p => exact h.erase p
  | insert p head =>
    have hp : p ∉ l.erase p := h.nodup.not_mem_erase
    have hother (n : ℤ) {q : α} (hq : q ∈ l.erase p) : (st.set p n).stamp q = st.stamp q := by
      apply set_stamp_of_ne
      rintro rfl
      exact hp hq
    cases head with
    | true =>
      refine List.pairwise_cons.mpr ⟨fun q hq => ?_, (h.erase p).set hp _⟩
      show (st.set p _).stamp p < (st.set p _).stamp q
      rw [set_stamp_self, hother _ hq]
      have := st.smallest_le q
      omega
    | false =>
      refine List.pairwise_append.mpr
        ⟨(h.erase p).set hp _, List.pairwise_singleton _ _, fun q hq r hr => ?_⟩
      rw [List.mem_singleton.mp hr]
      show (st.set p _).stamp q < (st.set p _).stamp p
      rw [set_stamp_self, hother _ hq]
      have := st.le_largest q
      omega

/-- So do any events one after the other. -/
theorem run (h : st.InOrder l) (es : List (QueueEvent α)) :
    (st.run es).InOrder (QueueEvent.run l es) := by
  induction es generalizing st l with
  | nil => exact h
  | cons e es ih => exact ih (h.apply e)

end InOrder

end Stamps
