import Mathlib.Algebra.BigOperators.Group.List.Basic
import Mathlib.Algebra.Order.BigOperators.Group.List
import Mathlib.Logic.Function.Iterate
import Mathlib.Tactic.Common
import Mathlib.Tactic.Ring

/-!
# Weighted round robin

A queue whose head is served one unit at a time. Each element has a remaining slice; when the head
has used its slice up, the slice is refilled to the element's `quota` and the element goes to the
tail. Two facts about this discipline are proved for any element type and any quotas.

- `serve_rounds`: from a queue whose slices are all full, `k * ∑ quota` units bring the queue and
  the slices back to where they were, and each element has been served exactly `k * quota` of them
  (`count_served_rounds`).
- `rank`, the sum of the slices ahead of an element, bounds how long it waits: serving the head
  lowers it by one (`rank_serve`), and while others join at the tail, leave or go to the tail
  (`Waits`) it is never raised (`Waits.rank_le`).
-/

/-- A queue and the slice that remains to each element. -/
structure RoundRobin (α : Type*) where
  /-- The elements waiting or being served, head first. -/
  queue : List α
  /-- The units that remain to each element. -/
  slice : α → ℕ

namespace RoundRobin

variable {α : Type*} [DecidableEq α] (quota : α → ℕ)

/-- Serve one unit to the head; a slice that is used up is refilled and the head rotated. -/
def serve (r : RoundRobin α) : RoundRobin α :=
  match r.queue with
  | [] => r
  | h :: t =>
    if r.slice h = 1 then ⟨t ++ [h], Function.update r.slice h (quota h)⟩
    else ⟨h :: t, Function.update r.slice h (r.slice h - 1)⟩

/-- The elements that receive the next `n` units, in order. -/
def served : ℕ → RoundRobin α → List α
  | 0, _ => []
  | n + 1, r => r.queue.head?.toList ++ served n (serve quota r)

/-- Every queued element has its whole quota left, and the quota is not zero. -/
def Full (r : RoundRobin α) : Prop :=
  ∀ a ∈ r.queue, r.slice a = quota a ∧ 0 < quota a

theorem served_add (m n : ℕ) (r : RoundRobin α) :
    served quota (m + n) r = served quota m r ++ served quota n ((serve quota)^[m] r) := by
  induction m generalizing r with
  | zero => simp [served]
  | succ m ih =>
    rw [Nat.succ_add, served, ih, served, Function.iterate_succ_apply, List.append_assoc]

/-- The last unit goes to the head of the queue the others have left. -/
theorem served_succ (n : ℕ) (r : RoundRobin α) :
    served quota (n + 1) r =
      served quota n r ++ ((serve quota)^[n] r).queue.head?.toList := by
  rw [served_add]
  simp [served]

theorem serve_perm (r : RoundRobin α) : (serve quota r).queue.Perm r.queue := by
  unfold serve
  split
  · exact .refl _
  · next h t hq =>
    rw [hq]
    split
    · exact List.perm_append_singleton h t
    · exact .refl _

/-- No slice is ever used up. -/
theorem serve_pos {r : RoundRobin α} (h : ∀ a ∈ r.queue, 0 < r.slice a ∧ 0 < quota a) {a : α}
    (ha : a ∈ (serve quota r).queue) : 0 < (serve quota r).slice a := by
  obtain ⟨hslice, hquota⟩ := h a ((serve_perm quota r).mem_iff.mp ha)
  unfold serve
  split
  · exact hslice
  · next b t _ =>
    by_cases hb : a = b
    · subst hb
      split
      · simpa using hquota
      · simp only [Function.update_self]
        omega
    · split <;> simpa [hb] using hslice

theorem iterate_serve_perm (n : ℕ) (r : RoundRobin α) :
    ((serve quota)^[n] r).queue.Perm r.queue := by
  induction n with
  | zero => exact .refl _
  | succ n ih =>
    rw [Function.iterate_succ_apply']
    exact (serve_perm quota _).trans ih

/-- From a full queue, the slices stay positive. -/
theorem iterate_serve_pos {r : RoundRobin α} (hfull : Full quota r) (n : ℕ) {a : α}
    (ha : a ∈ r.queue) : 0 < ((serve quota)^[n] r).slice a := by
  induction n generalizing a with
  | zero =>
    obtain ⟨hslice, hquota⟩ := hfull a ha
    exact hslice ▸ hquota
  | succ n ih =>
    rw [Function.iterate_succ_apply']
    refine serve_pos quota (fun b hb => ?_) ?_
    · have hb' := (iterate_serve_perm quota n r).mem_iff.mp hb
      exact ⟨ih hb', (hfull b hb').2⟩
    · exact ((serve_perm quota _).trans (iterate_serve_perm quota n r)).mem_iff.mpr ha

/-! ## Rounds -/

/-- The head runs through what is left of its slice: it is served that many units in a row, and
then stands at the tail with a full slice. -/
theorem serve_slice {h : α} {t : List α} (m : ℕ) (f : α → ℕ) (hm : f h = m + 1) :
    (serve quota)^[m + 1] ⟨h :: t, f⟩ = ⟨t ++ [h], Function.update f h (quota h)⟩ ∧
      served quota (m + 1) ⟨h :: t, f⟩ = List.replicate (m + 1) h := by
  induction m generalizing f with
  | zero => simp [serve, served, hm]
  | succ m ih =>
    have hstep : serve quota ⟨h :: t, f⟩ = ⟨h :: t, Function.update f h (m + 1)⟩ := by
      simp [serve, hm]
    obtain ⟨ihs, ihl⟩ := ih (Function.update f h (m + 1)) (by simp)
    rw [Function.iterate_succ_apply, hstep, ihs, served, hstep, ihl]
    simp [List.replicate_succ]

/-- One round over the first `l` elements of a full queue moves them, in order, behind the
others and serves each its quota. -/
theorem serve_append (f : α → ℕ) (l d : List α) (hfull : Full quota ⟨l ++ d, f⟩) :
    (serve quota)^[(l.map quota).sum] ⟨l ++ d, f⟩ = ⟨d ++ l, f⟩ ∧
      served quota (l.map quota).sum ⟨l ++ d, f⟩ =
        l.flatMap fun a => List.replicate (quota a) a := by
  induction l generalizing d with
  | nil => simp [served]
  | cons h t ih =>
    obtain ⟨hslice, hpos⟩ := hfull h (by simp)
    obtain ⟨m, hm⟩ := Nat.exists_eq_succ_of_ne_zero hpos.ne'
    dsimp only at hslice
    obtain ⟨hs, hl⟩ := serve_slice quota (t := t ++ d) m f (hslice.trans hm)
    -- a full slice is refilled to what it was
    have hupd : Function.update f h (quota h) = f := by rw [← hslice, Function.update_eq_self]
    rw [hupd, List.append_assoc] at hs
    obtain ⟨ihs, ihl⟩ := ih (d ++ [h]) (by
      intro a ha
      exact hfull a (by simp only [List.mem_append, List.mem_cons] at ha ⊢; tauto))
    rw [List.map_cons, List.sum_cons, hm, List.cons_append]
    constructor
    · rw [Nat.add_comm, Function.iterate_add_apply, hs, ihs]
      simp
    · rw [served_add, hl, hs, ihl, List.flatMap_cons, hm]

/-- `k` whole rounds from a full queue change nothing. -/
theorem serve_rounds (k : ℕ) (r : RoundRobin α) (hfull : Full quota r) :
    (serve quota)^[k * (r.queue.map quota).sum] r = r := by
  induction k with
  | zero => simp
  | succ k ih =>
    have hround := (serve_append quota r.slice r.queue [] (by simpa using hfull)).1
    rw [List.append_nil, List.nil_append] at hround
    rw [Nat.succ_mul, Function.iterate_add_apply, hround, ih]

theorem served_rounds (k : ℕ) (r : RoundRobin α) (hfull : Full quota r) :
    served quota (k * (r.queue.map quota).sum) r =
      (List.replicate k (r.queue.flatMap fun a => List.replicate (quota a) a)).flatten := by
  induction k with
  | zero => simp [served]
  | succ k ih =>
    have hround := (serve_append quota r.slice r.queue [] (by simpa using hfull)).2
    rw [List.append_nil] at hround
    rw [Nat.succ_mul, served_add, ih, serve_rounds quota k r hfull, hround,
      List.replicate_succ', List.flatten_append, List.flatten_singleton]

omit [DecidableEq α] in
theorem count_flatMap_replicate [BEq α] [LawfulBEq α] {l : List α} (hl : l.Nodup) {a : α}
    (ha : a ∈ l) :
    (l.flatMap fun b => List.replicate (quota b) b).count a = quota a := by
  induction l with
  | nil => simp at ha
  | cons h t ih =>
    obtain ⟨hh, ht⟩ := List.nodup_cons.mp hl
    rw [List.flatMap_cons, List.count_append]
    rcases List.mem_cons.mp ha with rfl | hat
    · have hnot : a ∉ t.flatMap fun b => List.replicate (quota b) b := by
        simp only [List.mem_flatMap, List.mem_replicate, not_exists, not_and]
        rintro b hb - rfl
        exact hh hb
      rw [List.count_replicate_self, List.count_eq_zero_of_not_mem hnot, Nat.add_zero]
    · have hne : h ≠ a := by rintro rfl; exact hh hat
      rw [List.count_replicate, if_neg (by simpa using hne), Nat.zero_add, ih ht hat]

/-- Over `k` whole rounds from a full queue, each element is served exactly `k` quotas. -/
theorem count_served_rounds (k : ℕ) (r : RoundRobin α) (hfull : Full quota r)
    (hnodup : r.queue.Nodup) {a : α} (ha : a ∈ r.queue) :
    (served quota (k * (r.queue.map quota).sum) r).count a = k * quota a := by
  rw [served_rounds quota k r hfull, List.count_flatten, List.map_replicate, List.sum_replicate_nat,
    count_flatMap_replicate quota hnodup ha]

/-! ## Rank -/

/-- The elements ahead of `a`. -/
def ahead (a : α) (l : List α) : List α :=
  l.takeWhile (· ≠ a)

/-- The units the elements ahead of `a` still have. -/
def rank (r : RoundRobin α) (a : α) : ℕ :=
  ((ahead a r.queue).map r.slice).sum

@[simp] theorem ahead_cons_self (a : α) (l : List α) : ahead a (a :: l) = [] := by
  simp [ahead]

theorem ahead_cons_of_ne {a b : α} (h : b ≠ a) (l : List α) :
    ahead a (b :: l) = b :: ahead a l := by
  simp [ahead, h]

theorem ahead_append_of_mem {a : α} {l : List α} (h : a ∈ l) (m : List α) :
    ahead a (l ++ m) = ahead a l := by
  induction l with
  | nil => simp at h
  | cons b l ih =>
    by_cases hb : b = a
    · subst hb; simp
    · rw [List.cons_append, ahead_cons_of_ne hb, ahead_cons_of_ne hb,
        ih ((List.mem_cons.mp h).resolve_left (Ne.symm hb))]

theorem ahead_erase {a b : α} (hne : b ≠ a) (l : List α) :
    (ahead a (l.erase b)).Sublist (ahead a l) := by
  induction l with
  | nil => exact List.Sublist.refl _
  | cons c l ih =>
    by_cases hcb : c = b
    · subst hcb
      rw [List.erase_cons_head, ahead_cons_of_ne hne]
      exact List.sublist_cons_self c _
    · rw [List.erase_cons_tail (by simpa using hcb)]
      by_cases hca : c = a
      · subst hca; simp
      · rw [ahead_cons_of_ne hca, ahead_cons_of_ne hca]
        exact ih.cons_cons c

theorem ahead_subset (a : α) (l : List α) : ahead a l ⊆ l :=
  (List.takeWhile_prefix _).subset

/-- The rank of an element only depends on the slices of the elements ahead of it. -/
theorem rank_congr {r : RoundRobin α} {f : α → ℕ} {a : α}
    (h : ∀ b ∈ ahead a r.queue, f b = r.slice b) : rank ⟨r.queue, f⟩ a = rank r a := by
  rw [rank, rank, List.map_congr_left h]

theorem rank_cons_of_ne {h a : α} (hne : h ≠ a) (t : List α) (f : α → ℕ) :
    rank ⟨h :: t, f⟩ a = f h + rank ⟨t, f⟩ a := by
  rw [rank, rank, ahead_cons_of_ne hne, List.map_cons, List.sum_cons]

theorem rank_append_of_mem {a : α} {l : List α} (h : a ∈ l) (m : List α) (f : α → ℕ) :
    rank ⟨l ++ m, f⟩ a = rank ⟨l, f⟩ a := by
  rw [rank, rank, ahead_append_of_mem h]

/-- Changing the slice of an element that is not ahead of `a` leaves the rank of `a`. -/
theorem rank_update_of_notMem {a b : α} {l : List α} (h : b ∉ ahead a l) (f : α → ℕ) (n : ℕ) :
    rank ⟨l, Function.update f b n⟩ a = rank ⟨l, f⟩ a := by
  refine rank_congr (r := ⟨l, f⟩) fun c hc => Function.update_of_ne ?_ _ _
  rintro rfl
  exact h hc

/-- Serving another element lowers the rank by one. -/
theorem rank_serve {h a : α} {t : List α} {f : α → ℕ} (hnodup : (h :: t).Nodup) (hne : h ≠ a)
    (ha : a ∈ t) (hpos : 0 < f h) :
    rank (serve quota ⟨h :: t, f⟩) a + 1 = rank ⟨h :: t, f⟩ a := by
  have hnot : h ∉ ahead a t := fun hmem => (List.nodup_cons.mp hnodup).1 (ahead_subset a t hmem)
  rw [rank_cons_of_ne hne]
  by_cases hone : f h = 1
  · rw [serve]
    simp only [hone, if_true]
    rw [rank_append_of_mem ha, rank_update_of_notMem hnot, Nat.add_comm]
  · rw [serve]
    simp only [if_neg hone]
    rw [rank_cons_of_ne hne, Function.update_self, rank_update_of_notMem hnot]
    omega

/-- Between `r` and `r'`, `a` has stayed in the queue and nobody has got ahead of it: those ahead
of it were so before, in the same order and with the same slices. -/
structure Waits (a : α) (r r' : RoundRobin α) : Prop where
  mem : a ∈ r'.queue
  ahead : (ahead a r'.queue).Sublist (ahead a r.queue)
  slice : ∀ b ∈ RoundRobin.ahead a r'.queue, r'.slice b = r.slice b

namespace Waits

variable {a b : α} {r r' r'' : RoundRobin α} {l : List α} {f g : α → ℕ}

theorem trans (h : Waits a r r') (h' : Waits a r' r'') : Waits a r r'' where
  mem := h'.mem
  ahead := h'.ahead.trans h.ahead
  slice c hc := (h'.slice c hc).trans (h.slice c (h'.ahead.subset hc))

/-- Who waits does not wait for more. -/
theorem rank_le (h : Waits a r r') : rank r' a ≤ rank r a := by
  rw [rank, rank, List.map_congr_left h.slice]
  exact (h.ahead.map r.slice).sum_le_sum fun _ _ => Nat.zero_le _

/-- Others have joined at the tail. -/
theorem of_joins {m : List α} (ha : a ∈ l) (hm : l <+: m) (hslice : ∀ b ∈ l, g b = f b) :
    Waits a ⟨l, f⟩ ⟨m, g⟩ := by
  obtain ⟨t, rfl⟩ := hm
  refine ⟨List.mem_append_left t ha, ?_, fun b hb => ?_⟩
  · show (RoundRobin.ahead a (l ++ t)).Sublist _
    rw [ahead_append_of_mem ha]
  · replace hb : b ∈ RoundRobin.ahead a (l ++ t) := hb
    rw [ahead_append_of_mem ha] at hb
    exact hslice b (ahead_subset a l hb)

/-- Another one has left the queue. -/
theorem of_erase (hne : b ≠ a) (ha : a ∈ l) : Waits a ⟨l, f⟩ ⟨l.erase b, f⟩ :=
  ⟨(List.mem_erase_of_ne hne.symm).mpr ha, ahead_erase hne l, fun _ _ => rfl⟩

/-- Another one has gone to the tail. -/
theorem of_moveTail (hne : b ≠ a) (ha : a ∈ l) : Waits a ⟨l, f⟩ ⟨l.erase b ++ [b], f⟩ :=
  (of_erase hne ha).trans
    (of_joins ((List.mem_erase_of_ne hne.symm).mpr ha) (List.prefix_append _ _) fun _ _ => rfl)

/-- Who is at the head stays there. -/
theorem head? (h : Waits a r r') (hhead : r.queue.head? = some a) : r'.queue.head? = some a := by
  obtain ⟨t, ht⟩ := List.head?_eq_some_iff.mp hhead
  have hnil : RoundRobin.ahead a r'.queue = [] := by
    have hsub := h.ahead
    rw [ht, ahead_cons_self] at hsub
    exact List.sublist_nil.mp hsub
  have hmem := h.mem
  cases hq : r'.queue with
  | nil =>
    rw [hq] at hmem
    cases hmem
  | cons b l =>
    by_cases hb : b = a
    · rw [hb, List.head?_cons]
    · rw [hq, ahead_cons_of_ne hb] at hnil
      cases hnil

end Waits

/-- An element at the head has nothing ahead of it, and only there when the slices ahead are
positive. -/
theorem rank_eq_zero_iff {a : α} {l : List α} {f : α → ℕ} (ha : a ∈ l)
    (hpos : ∀ b ∈ l, 0 < f b) : rank ⟨l, f⟩ a = 0 ↔ l.head? = some a := by
  cases l with
  | nil => simp at ha
  | cons h t =>
    by_cases hne : h = a
    · subst hne; simp [rank]
    · have hslice := hpos h (by simp)
      rw [rank_cons_of_ne hne]
      simp [hne, Nat.ne_of_gt hslice]

end RoundRobin
