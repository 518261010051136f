import Mathlib.Algebra.BigOperators.Group.Finset.Basic
import Mathlib.Algebra.GroupWithZero.Nat
import Mathlib.Algebra.Order.BigOperators.Group.Finset
import Mathlib.Data.Int.Basic
import Mathlib.Data.List.Count
import Mathlib.Tactic.Common

/-!
# Priority arrays

A priority array has one queue for each priority below `N` and a bitmap with a bit for each queue
that is not empty, so that the best priority is the first bit that is set; the bit at `N` is always
set and ends the search. This file says when the bitmap describes the queues and what insertion,
removal and requeueing of one entry do to the members, the best priority and the number of entries
of some kind.

- `WF.insert`, `WF.remove`, `WF.requeue`: the operations keep the array well formed;
- `WF.findFirstBit_spec`: the first bit is the best priority of an entry;
- `WF.findFirstBit_insert`, `WF.findFirstBit_remove`: how the best priority moves;
- `count_insert`, `WF.count_remove`: how the number of entries moves.
-/

/-- One queue for each priority, head first, and a bit for each queue. -/
structure PrioArray (α : Type*) where
  /-- The queues. -/
  queue : ℤ → List α
  /-- The bits. -/
  bitmap : ℤ → Bool

namespace PrioArray

variable {α : Type*} {N : ℕ} {prio : α → ℤ} {a : PrioArray α} {x y : α}

/-! ## Operations -/

/-- Empty queues, with the bit that ends the search. -/
def empty (N : ℕ) : PrioArray α where
  queue _ := []
  bitmap i := decide (i = N)

/-- The first bit that is set. -/
def findFirstBit (N : ℕ) (a : PrioArray α) : ℤ :=
  (((List.range (N + 1)).map Int.ofNat).find? a.bitmap).getD (N + 1)

/-- Add an entry at the head or at the tail of queue `i` and set its bit. -/
def insert (a : PrioArray α) (x : α) (i : ℤ) (head : Bool) : PrioArray α where
  queue := Function.update a.queue i (if head then x :: a.queue i else a.queue i ++ [x])
  bitmap := Function.update a.bitmap i true

/-- The number of entries with a property. -/
def count (N : ℕ) (p : α → Bool) (a : PrioArray α) : ℕ :=
  ∑ i ∈ Finset.range N, (a.queue i).countP p

/-! ## Well-formed arrays -/

/-- Every entry is in the queue of its priority, once, and the bits say which queues have one. -/
structure WF (N : ℕ) (prio : α → ℤ) (a : PrioArray α) : Prop where
  nodup : ∀ i, (a.queue i).Nodup
  prio_eq : ∀ i, ∀ x ∈ a.queue i, prio x = i
  range : ∀ i, ∀ x ∈ a.queue i, 0 ≤ i ∧ i < N
  bitmap_iff : ∀ i : ℤ, 0 ≤ i → i < N → (a.bitmap i = true ↔ a.queue i ≠ [])
  delimiter : a.bitmap N = true

theorem WF.empty : (PrioArray.empty N : PrioArray α).WF N prio where
  nodup _ := List.nodup_nil
  prio_eq _ _ h := absurd h List.not_mem_nil
  range _ _ h := absurd h List.not_mem_nil
  bitmap_iff i _ hi := by simp [PrioArray.empty, hi.ne]
  delimiter := by simp [PrioArray.empty]

/-- Only the priorities of the entries matter. -/
theorem WF.congr {prio' : α → ℤ} (h : a.WF N prio)
    (hp : ∀ i, ∀ x ∈ a.queue i, prio' x = prio x) : a.WF N prio' :=
  { h with prio_eq := fun i x hx => (hp i x hx).trans (h.prio_eq i x hx) }

/-! ## Insertion -/

/-- The queues after an insertion. -/
theorem mem_insert {i j : ℤ} {head : Bool} :
    y ∈ (a.insert x i head).queue j ↔ (j = i ∧ y = x) ∨ y ∈ a.queue j := by
  by_cases hj : j = i
  · subst hj
    cases head <;> simp [insert, or_comm]
  · simp [insert, hj]

/-! ## The first bit -/

/-- The search returns `i` when its bit is the first one. -/
theorem findFirstBit_eq {i : ℤ} (h0 : 0 ≤ i) (hN : i ≤ N) (hi : a.bitmap i = true)
    (hlt : ∀ j, 0 ≤ j → j < i → a.bitmap j = false) : findFirstBit N a = i := by
  obtain ⟨n, rfl⟩ := Int.eq_ofNat_of_zero_le h0
  have hfind : (List.range (N + 1)).find? (fun k => a.bitmap (Int.ofNat k)) = some n := by
    rw [List.find?_range_eq_some]
    refine ⟨hi, List.mem_range.mpr (by omega), fun j hj => ?_⟩
    rw [Bool.not_eq_true']
    exact hlt j (by omega) (by omega)
  rw [findFirstBit, List.find?_map, Function.comp_def, hfind]
  rfl

theorem findFirstBit_empty (N : ℕ) : (empty N : PrioArray α).findFirstBit N = N := by
  refine findFirstBit_eq (by simp) le_rfl (by simp [empty]) fun j _ hj => ?_
  simp [empty, hj.ne]

/-- The search ends: at a bit that is set, with no bit set before it. -/
theorem WF.findFirstBit_spec (h : a.WF N prio) :
    0 ≤ findFirstBit N a ∧ findFirstBit N a ≤ N ∧ a.bitmap (findFirstBit N a) = true ∧
      ∀ j, 0 ≤ j → j < findFirstBit N a → a.bitmap j = false := by
  have hex : ∃ n : ℕ, a.bitmap n = true := ⟨N, h.delimiter⟩
  have hmin : ∀ j : ℤ, 0 ≤ j → j < Nat.find hex → a.bitmap j = false := by
    intro j hj0 hj
    obtain ⟨m, rfl⟩ := Int.eq_ofNat_of_zero_le hj0
    exact Bool.not_eq_true _ ▸ Nat.find_min hex (by omega)
  have hle : Nat.find hex ≤ N := Nat.find_min' hex h.delimiter
  have heq : findFirstBit N a = Nat.find hex :=
    findFirstBit_eq (by omega) (by omega) (Nat.find_spec hex) hmin
  rw [heq]
  exact ⟨by omega, by omega, Nat.find_spec hex, hmin⟩

/-- No entry has a better priority than the first bit. -/
theorem WF.findFirstBit_le (h : a.WF N prio) {i : ℤ} (hx : x ∈ a.queue i) :
    findFirstBit N a ≤ i := by
  obtain ⟨h0, hN⟩ := h.range i x hx
  by_contra hlt
  obtain ⟨-, -, -, hmin⟩ := h.findFirstBit_spec
  have hset := (h.bitmap_iff i h0 hN).mpr (List.ne_nil_of_mem hx)
  rw [hmin i h0 (by omega)] at hset
  exact Bool.noConfusion hset

/-- Below `N` the first bit has an entry in its queue. -/
theorem WF.queue_findFirstBit_ne_nil (h : a.WF N prio) (hN : findFirstBit N a < N) :
    a.queue (findFirstBit N a) ≠ [] := by
  obtain ⟨h0, -, hset, -⟩ := h.findFirstBit_spec
  exact (h.bitmap_iff _ h0 hN).mp hset

/-- The first bit is the one at `N` when there are no entries. -/
theorem WF.findFirstBit_lt_iff (h : a.WF N prio) :
    findFirstBit N a < N ↔ ∃ i, ∃ x, x ∈ a.queue i := by
  constructor
  · intro hlt
    obtain ⟨x, hx⟩ := List.exists_mem_of_ne_nil _ (h.queue_findFirstBit_ne_nil hlt)
    exact ⟨_, x, hx⟩
  · rintro ⟨i, x, hx⟩
    exact (h.findFirstBit_le hx).trans_lt (h.range i x hx).2

/-- The first bit after an insertion: the better of the old one and the new priority. -/
theorem WF.findFirstBit_insert (h : a.WF N prio) (h0 : 0 ≤ prio x) (hN : prio x < N)
    (head : Bool) :
    findFirstBit N (a.insert x (prio x) head) =
      if prio x < findFirstBit N a then prio x else findFirstBit N a := by
  obtain ⟨hf0, hfN, hfset, hfmin⟩ := h.findFirstBit_spec
  split_ifs with hlt
  · refine findFirstBit_eq h0 hN.le (by simp [PrioArray.insert]) fun j hj0 hj => ?_
    have hbit := hfmin j hj0 (by omega)
    simpa [PrioArray.insert, hj.ne] using hbit
  · refine findFirstBit_eq hf0 hfN ?_ fun j hj0 hj => ?_
    · by_cases heq : findFirstBit N a = prio x
      · simp [PrioArray.insert, heq]
      · simpa [PrioArray.insert, heq] using hfset
    · have hne : j ≠ prio x := by omega
      simpa [PrioArray.insert, hne] using hfmin j hj0 hj

/-! ## Counting entries -/

/-- The number of entries after one queue was changed. -/
theorem count_update (p : α → Bool) {b : PrioArray α} {i : ℤ} (h0 : 0 ≤ i) (hN : i < N)
    (h : ∀ j, j ≠ i → b.queue j = a.queue j) :
    b.count N p + (a.queue i).countP p = a.count N p + (b.queue i).countP p := by
  obtain ⟨n, rfl⟩ := Int.eq_ofNat_of_zero_le h0
  have hmem : n ∈ Finset.range N := Finset.mem_range.mpr (by omega)
  rw [count, count, ← Finset.add_sum_erase _ _ hmem, ← Finset.add_sum_erase _ _ hmem]
  have hrest : ∑ j ∈ (Finset.range N).erase n, (b.queue j).countP p =
      ∑ j ∈ (Finset.range N).erase n, (a.queue j).countP p := by
    refine Finset.sum_congr rfl fun j hj => ?_
    rw [h j (by exact_mod_cast (Finset.mem_erase.mp hj).1)]
  rw [hrest]
  omega

/-- Insertion adds one to the number of entries of the kind of the new one. -/
theorem count_insert (p : α → Bool) (h0 : 0 ≤ prio x) (hN : prio x < N) (head : Bool) :
    (a.insert x (prio x) head).count N p = a.count N p + if p x then 1 else 0 := by
  have h := count_update p (a := a) (b := a.insert x (prio x) head) h0 hN
    fun j hj => by simp [insert, hj]
  have hq : ((a.insert x (prio x) head).queue (prio x)).countP p =
      (a.queue (prio x)).countP p + if p x then 1 else 0 := by
    cases head <;> simp [insert, List.countP_cons]
  omega

/-- The number of entries only looks at the entries. -/
theorem count_congr {p q : α → Bool} (h : ∀ i, ∀ x ∈ a.queue i, p x = q x) :
    a.count N p = a.count N q := by
  refine Finset.sum_congr rfl fun i _ => List.countP_congr fun x hx => ?_
  rw [h i x hx]

/-- There is no entry when their number is zero. -/
theorem WF.count_pos_iff (h : a.WF N prio) :
    0 < a.count N (fun _ => true) ↔ ∃ i, ∃ x, x ∈ a.queue i := by
  rw [count, Finset.sum_pos_iff]
  constructor
  · rintro ⟨i, -, hi⟩
    obtain ⟨x, hx, -⟩ := List.countP_pos_iff.mp hi
    exact ⟨i, x, hx⟩
  · rintro ⟨i, x, hx⟩
    obtain ⟨h0, hN⟩ := h.range i x hx
    refine ⟨i.toNat, Finset.mem_range.mpr (by omega), List.countP_pos_iff.mpr ⟨x, ?_, rfl⟩⟩
    rwa [Int.toNat_of_nonneg h0]

/-! ## Membership -/

section Membership

variable [DecidableEq α]

/-- The entry is in one of the queues. -/
def onList (N : ℕ) (a : PrioArray α) (x : α) : Bool :=
  (List.range N).any fun i => decide (x ∈ a.queue i)

/-- Take an entry out of the queue it is in, and clear bit `i` if queue `i` is empty then. -/
def remove (a : PrioArray α) (x : α) (i : ℤ) : PrioArray α where
  queue j := (a.queue j).erase x
  bitmap := if (a.queue i).erase x = [] then Function.update a.bitmap i false else a.bitmap

/-- Take an entry out of the queue it is in and add it to queue `i`; the bits stay. -/
def requeue (a : PrioArray α) (x : α) (i : ℤ) (head : Bool) : PrioArray α where
  queue := Function.update (fun j => (a.queue j).erase x) i
    (if head then x :: (a.queue i).erase x else (a.queue i).erase x ++ [x])
  bitmap := a.bitmap

/-- An entry is found in the queue of its priority. -/
theorem WF.onList_iff (h : a.WF N prio) : a.onList N x = true ↔ x ∈ a.queue (prio x) := by
  rw [onList, List.any_eq_true]
  constructor
  · rintro ⟨i, -, hi⟩
    have hx : x ∈ a.queue i := by simpa using hi
    rwa [h.prio_eq i x hx]
  · intro hx
    obtain ⟨h0, hN⟩ := h.range _ x hx
    refine ⟨(prio x).toNat, List.mem_range.mpr (by omega), ?_⟩
    rw [Int.toNat_of_nonneg h0]
    exact decide_eq_true hx

theorem WF.onList_of_mem (h : a.WF N prio) {i : ℤ} (hx : x ∈ a.queue i) : a.onList N x = true := by
  rw [h.onList_iff, h.prio_eq i x hx]
  exact hx

theorem WF.notMem_of_off (h : a.WF N prio) (hx : a.onList N x = false) (i : ℤ) :
    x ∉ a.queue i := fun hi => by
  rw [h.onList_of_mem hi] at hx
  exact Bool.noConfusion hx

theorem WF.prio_range (h : a.WF N prio) (hx : a.onList N x = true) : 0 ≤ prio x ∧ prio x < N :=
  h.range _ x (h.onList_iff.mp hx)

/-- An entry that is in no queue may be added to that of its priority. -/
theorem WF.insert (h : a.WF N prio) (hx : a.onList N x = false) (h0 : 0 ≤ prio x)
    (hN : prio x < N) (head : Bool) : (a.insert x (prio x) head).WF N prio where
  nodup i := by
    by_cases hi : i = prio x
    · subst hi
      have hnot := h.notMem_of_off hx (prio x)
      cases head with
      | true => simpa [PrioArray.insert] using ⟨hnot, h.nodup _⟩
      | false =>
        have hne : ∀ b ∈ a.queue (prio x), b ≠ x := fun b hb hbx => hnot (hbx ▸ hb)
        simpa [PrioArray.insert, List.nodup_append, h.nodup] using hne
    · simpa [PrioArray.insert, hi] using h.nodup i
  prio_eq i y hy := by
    obtain ⟨rfl, rfl⟩ | hy := mem_insert.mp hy
    · rfl
    · exact h.prio_eq i y hy
  range i y hy := by
    obtain ⟨rfl, -⟩ | hy := mem_insert.mp hy
    · exact ⟨h0, hN⟩
    · exact h.range i y hy
  bitmap_iff i hi0 hiN := by
    by_cases hi : i = prio x
    · subst hi
      cases head <;> simp [PrioArray.insert]
    · simpa [PrioArray.insert, hi] using h.bitmap_iff i hi0 hiN
  delimiter := by simp [PrioArray.insert, hN.ne', h.delimiter]

theorem onList_eq_true_iff :
    a.onList N y = true ↔ ∃ i : ℕ, i < N ∧ y ∈ a.queue i := by
  simp [onList]

/-- Insertion adds one member. -/
theorem onList_insert (h0 : 0 ≤ prio x) (hN : prio x < N) (head : Bool) :
    (a.insert x (prio x) head).onList N y = (decide (y = x) || a.onList N y) := by
  rw [Bool.eq_iff_iff, Bool.or_eq_true, decide_eq_true_iff, onList_eq_true_iff,
    onList_eq_true_iff]
  constructor
  · rintro ⟨i, hi, hy⟩
    obtain ⟨-, rfl⟩ | hy := mem_insert.mp hy
    · exact .inl rfl
    · exact .inr ⟨i, hi, hy⟩
  · rintro (rfl | ⟨i, hi, hy⟩)
    · refine ⟨(prio y).toNat, by omega, mem_insert.mpr (.inl ⟨?_, rfl⟩)⟩
      exact Int.toNat_of_nonneg h0
    · exact ⟨i, hi, mem_insert.mpr (.inr hy)⟩

/-! ## Removal -/

/-- The queues after a removal. -/
theorem WF.mem_remove (h : a.WF N prio) {i j : ℤ} :
    y ∈ (a.remove x i).queue j ↔ y ≠ x ∧ y ∈ a.queue j :=
  (h.nodup j).mem_erase_iff

/-- An entry may be removed. -/
theorem WF.remove (h : a.WF N prio) (hx : a.onList N x = true) : (a.remove x (prio x)).WF N prio where
  nodup i := (h.nodup i).erase x
  prio_eq i y hy := h.prio_eq i y (h.mem_remove.mp hy).2
  range i y hy := h.range i y (h.mem_remove.mp hy).2
  bitmap_iff i hi0 hiN := by
    by_cases hi : i = prio x
    · subst hi
      have hset : a.bitmap (prio x) = true :=
        (h.bitmap_iff _ hi0 hiN).mpr (List.ne_nil_of_mem (h.onList_iff.mp hx))
      by_cases hnil : (a.queue (prio x)).erase x = []
      · simp [PrioArray.remove, hnil]
      · simp [PrioArray.remove, hnil, hset]
    · -- `x` is in no other queue
      have hnot : x ∉ a.queue i := fun hm => hi (h.prio_eq i x hm).symm
      have hbit : (a.remove x (prio x)).bitmap i = a.bitmap i := by
        unfold PrioArray.remove
        split_ifs <;> simp [hi]
      rw [hbit, h.bitmap_iff i hi0 hiN]
      simp [PrioArray.remove, List.erase_of_not_mem hnot]
  delimiter := by
    have hne : (N : ℤ) ≠ prio x := (h.prio_range hx).2.ne'
    unfold PrioArray.remove
    split_ifs <;> simp [hne, h.delimiter]

/-- Removal takes one member out. -/
theorem WF.onList_remove (h : a.WF N prio) (i : ℤ) :
    (a.remove x i).onList N y = (decide (y ≠ x) && a.onList N y) := by
  rw [Bool.eq_iff_iff, Bool.and_eq_true, decide_eq_true_iff, onList_eq_true_iff,
    onList_eq_true_iff]
  constructor
  · rintro ⟨j, hj, hy⟩
    obtain ⟨hne, hy⟩ := h.mem_remove.mp hy
    exact ⟨hne, j, hj, hy⟩
  · rintro ⟨hne, j, hj, hy⟩
    exact ⟨j, hj, h.mem_remove.mpr ⟨hne, hy⟩⟩

/-! ## Requeueing -/

/-- The queues after an entry has been moved within its queue. -/
theorem WF.mem_requeue (h : a.WF N prio) (hx : a.onList N x = true) {j : ℤ} {head : Bool} :
    y ∈ (a.requeue x (prio x) head).queue j ↔ y ∈ a.queue j := by
  have hmem := h.onList_iff.mp hx
  by_cases hj : j = prio x
  · subst hj
    by_cases hy : y = x
    · subst hy
      cases head <;> simp [PrioArray.requeue, hmem]
    · cases head <;> simp [PrioArray.requeue, hy, List.mem_erase_of_ne]
  · have hnot : x ∉ a.queue j := fun hm => hj (h.prio_eq j x hm).symm
    simp [PrioArray.requeue, hj, List.erase_of_not_mem hnot]

/-- Requeueing permutes each queue. -/
theorem WF.requeue_perm (h : a.WF N prio) (hx : a.onList N x = true) (head : Bool) (j : ℤ) :
    ((a.requeue x (prio x) head).queue j).Perm (a.queue j) := by
  have hmem := h.onList_iff.mp hx
  by_cases hj : j = prio x
  · subst hj
    cases head with
    | true => simpa [PrioArray.requeue] using (List.perm_cons_erase hmem).symm
    | false =>
      have hperm := (List.perm_append_singleton x _).trans (List.perm_cons_erase hmem).symm
      simpa [PrioArray.requeue] using hperm
  · have hnot : x ∉ a.queue j := fun hm => hj (h.prio_eq j x hm).symm
    simp [PrioArray.requeue, hj, List.erase_of_not_mem hnot]

theorem WF.requeue (h : a.WF N prio) (hx : a.onList N x = true) (head : Bool) :
    (a.requeue x (prio x) head).WF N prio where
  nodup i := (h.requeue_perm hx head i).nodup_iff.mpr (h.nodup i)
  prio_eq i y hy := h.prio_eq i y ((h.mem_requeue hx).mp hy)
  range i y hy := h.range i y ((h.mem_requeue hx).mp hy)
  bitmap_iff i hi0 hiN := by
    have hnil : (a.requeue x (prio x) head).queue i = [] ↔ a.queue i = [] := by
      have hlen := (h.requeue_perm hx head i).length_eq
      rw [← List.length_eq_zero_iff, ← List.length_eq_zero_iff, hlen]
    rw [ne_eq, hnil]
    exact h.bitmap_iff i hi0 hiN
  delimiter := h.delimiter

theorem WF.onList_requeue (h : a.WF N prio) (hx : a.onList N x = true) (head : Bool) :
    (a.requeue x (prio x) head).onList N y = a.onList N y := by
  rw [Bool.eq_iff_iff, onList_eq_true_iff, onList_eq_true_iff]
  simp only [h.mem_requeue hx]

/-- Removing an entry that was not among the best leaves the first bit. -/
theorem WF.findFirstBit_remove (h : a.WF N prio) (hx : a.onList N x = true)
    (hne : prio x ≠ findFirstBit N a) :
    findFirstBit N (a.remove x (prio x)) = findFirstBit N a := by
  obtain ⟨hf0, hfN, hfset, hfmin⟩ := h.findFirstBit_spec
  have hle := h.findFirstBit_le (h.onList_iff.mp hx)
  have hbit : ∀ j, j ≠ prio x → (a.remove x (prio x)).bitmap j = a.bitmap j := by
    intro j hj
    unfold PrioArray.remove
    split_ifs <;> simp [hj]
  refine findFirstBit_eq hf0 hfN ?_ fun j hj0 hj => ?_
  · rw [hbit _ (Ne.symm hne)]
    exact hfset
  · rw [hbit j (by omega)]
    exact hfmin j hj0 hj

/-- Removal takes one off. -/
theorem WF.count_remove (h : a.WF N prio) (p : α → Bool) (hx : a.onList N x = true) :
    (a.remove x (prio x)).count N p + (if p x then 1 else 0) = a.count N p := by
  obtain ⟨h0, hN⟩ := h.prio_range hx
  have hother : ∀ j, j ≠ prio x → (a.remove x (prio x)).queue j = a.queue j := by
    intro j hj
    exact List.erase_of_not_mem fun hm => hj (h.prio_eq j x hm).symm
  have hupd := count_update p h0 hN hother
  have hq := (List.perm_cons_erase (h.onList_iff.mp hx)).countP_eq p
  rw [List.countP_cons] at hq
  have hrem : (a.remove x (prio x)).queue (prio x) = (a.queue (prio x)).erase x := rfl
  rw [hrem] at hupd
  omega

/-- Requeueing leaves the numbers. -/
theorem WF.count_requeue (h : a.WF N prio) (p : α → Bool) (hx : a.onList N x = true)
    (head : Bool) : (a.requeue x (prio x) head).count N p = a.count N p := by
  refine Finset.sum_congr rfl fun i _ => ?_
  exact (h.requeue_perm hx head i).countP_eq p

end Membership

end PrioArray
