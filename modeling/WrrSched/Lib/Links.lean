import Mathlib.Data.List.Chain
import Mathlib.Data.List.Iterate
import Mathlib.Order.BooleanAlgebra.Set
import Mathlib.Tactic.Common

/-!
# Circular doubly linked lists

The lists of `linux/list.h`. Every node has two pointers, and a list is a ring of nodes through a
node that is the list head; a node that is on no list points to itself. The primitives are the
pointer assignments of the source, in its order. All of them are compositions of `Links.link`,
which makes one node the successor of another.

- `Links.Ring`: the ring through a node. Its `next` and `prev` are inverse to each other
  (`Ring.prev_next`), and following `next` visits the list in order (`Ring.iterate_next`);
- `Links.Holds`: the memory holds a list, and the nodes that are not on it point to themselves. Each
  primitive does to the list what its name says: `Holds.listMove`, `Holds.listMoveTail` and
  `Holds.listDelInit`, for nodes on the list as for others.
-/

/-- The pointers of all nodes. -/
structure Links (ν : Type*) where
  /-- `node->next`. -/
  next : ν → ν
  /-- `node->prev`. -/
  prev : ν → ν

namespace Links

variable {ν : Type*}

/-! ## Primitives -/

section Primitives

variable [DecidableEq ν]

/-- `a->next = b`. -/
def setNext (m : Links ν) (a b : ν) : Links ν := { m with next := Function.update m.next a b }

/-- `a->prev = b`. -/
def setPrev (m : Links ν) (a b : ν) : Links ν := { m with prev := Function.update m.prev a b }

/-- `INIT_LIST_HEAD`. -/
def initListHead (m : Links ν) (list : ν) : Links ν :=
  let m := m.setNext list list
  m.setPrev list list

/-- `__list_add`: insert a node between two neighbours. -/
def listAddBetween (m : Links ν) (new prev next : ν) : Links ν :=
  let m := m.setPrev next new
  let m := m.setNext new next
  let m := m.setPrev new prev
  m.setNext prev new

/-- `list_add`. -/
def listAdd (m : Links ν) (new head : ν) : Links ν := m.listAddBetween new head (m.next head)

/-- `list_add_tail`. -/
def listAddTail (m : Links ν) (new head : ν) : Links ν := m.listAddBetween new (m.prev head) head

/-- `__list_del`: make two nodes neighbours. -/
def listDelBetween (m : Links ν) (prev next : ν) : Links ν :=
  let m := m.setPrev next prev
  m.setNext prev next

/-- `__list_del_entry`. -/
def listDelEntry (m : Links ν) (entry : ν) : Links ν :=
  m.listDelBetween (m.prev entry) (m.next entry)

/-- `list_del_init`. -/
def listDelInit (m : Links ν) (entry : ν) : Links ν :=
  let m := m.listDelEntry entry
  m.initListHead entry

/-- `list_move`. -/
def listMove (m : Links ν) (list head : ν) : Links ν :=
  let m := m.listDelEntry list
  m.listAdd list head

/-- `list_move_tail`. -/
def listMoveTail (m : Links ν) (list head : ν) : Links ν :=
  let m := m.listDelEntry list
  m.listAddTail list head

/-- `list_empty`. -/
def listEmpty (m : Links ν) (head : ν) : Bool := decide (m.next head = head)

/-- The node `list_first_entry` takes for an entry, also when it is the list head. -/
def listFirstEntry (m : Links ν) (head : ν) : ν := m.next head

end Primitives

/-! ## Neighbours -/

/-- `b` comes after `a`, by both pointers. -/
def Linked (m : Links ν) (a b : ν) : Prop := m.next a = b ∧ m.prev b = a

/-- The pointers `next` lead along a chain. -/
theorem iterate_next_of_isChain {m : Links ν} {a : ν} {l : List ν}
    (hl : (a :: l).IsChain m.Linked) : List.iterate m.next a (l.length + 1) = a :: l := by
  induction l generalizing a with
  | nil => rfl
  | cons b l ih =>
    obtain ⟨hab, hl⟩ := List.isChain_cons_cons.mp hl
    rw [List.length_cons, List.iterate, hab.1, ih hl]

section Link

variable [DecidableEq ν] {m : Links ν} {a b c d x : ν} {l : List ν}

/-- Make `b` the successor of `a`. -/
def link (m : Links ν) (a b : ν) : Links ν := (m.setPrev b a).setNext a b

theorem linked_link (m : Links ν) (a b : ν) : (m.link a b).Linked a b := by
  constructor
  · exact Function.update_self a b m.next
  · exact Function.update_self b a m.prev

/-- Neighbours stay neighbours unless one of the two pointers between them is assigned. -/
theorem Linked.link (h : m.Linked c d) (hc : c ≠ a) (hd : d ≠ b) : (m.link a b).Linked c d := by
  constructor
  · exact (Function.update_of_ne hc b m.next).trans h.1
  · exact (Function.update_of_ne hd a m.prev).trans h.2

theorem link_eq_self (h : m.Linked a b) : m.link a b = m := by
  have hnext : Function.update m.next a b = m.next := Function.update_eq_self_iff.mpr h.1.symm
  have hprev : Function.update m.prev b a = m.prev := Function.update_eq_self_iff.mpr h.2.symm
  show Links.mk (Function.update m.next a b) (Function.update m.prev b a) = m
  rw [hnext, hprev]

theorem initListHead_eq (m : Links ν) (x : ν) : m.initListHead x = m.link x x := rfl

theorem listAddBetween_eq (m : Links ν) (x a b : ν) :
    m.listAddBetween x a b = (m.link x b).link a x := rfl

theorem listDelEntry_eq (m : Links ν) (x : ν) :
    m.listDelEntry x = m.link (m.prev x) (m.next x) := rfl

/-- To insert a node after `a` is to insert it before the successor of `a`. -/
theorem listAdd_eq_listAddTail (h : m.Linked a b) (x : ν) : m.listAdd x a = m.listAddTail x b := by
  unfold listAdd listAddTail
  rw [h.1, h.2]

/-- A chain of neighbours is kept by `link` unless it leads out of `a` or into `b`. -/
theorem isChain_link (hl : l.IsChain m.Linked) (ha : a ∉ l.dropLast) (hb : b ∉ l.tail) :
    l.IsChain (m.link a b).Linked := by
  induction hl with
  | nil => exact .nil
  | singleton c => exact .singleton c
  | @cons_cons c d l hcd _ ih =>
    simp only [List.dropLast_cons_cons, List.tail_cons, List.mem_cons, not_or] at ha hb ih
    exact .cons_cons (hcd.link (Ne.symm ha.1) (Ne.symm hb.1)) (ih ha.2 hb.2)

end Link

/-! ## Rings -/

/-- The nodes of `l`, in this order, are the others on the ring through `h`. -/
structure Ring (m : Links ν) (h : ν) (l : List ν) : Prop where
  nodup : (h :: l).Nodup
  chain : (h :: (l ++ [h])).IsChain m.Linked

namespace Ring

variable {m : Links ν} {h x y : ν} {l l₁ l₂ : List ν}

theorem chain_append (hr : m.Ring h l) : ((h :: l) ++ [h]).IsChain m.Linked := hr.chain

theorem path (hr : m.Ring h l) : (h :: l).IsChain m.Linked := hr.chain_append.left_of_append

/-- A ring can be read from any of its nodes. -/
theorem rotate (hr : m.Ring h (l₁ ++ x :: l₂)) : m.Ring x (l₂ ++ h :: l₁) := by
  refine ⟨?_, ?_⟩
  · have hperm : ((x :: l₂) ++ (h :: l₁)).Perm ((h :: l₁) ++ (x :: l₂)) := List.perm_append_comm
    exact hperm.nodup_iff.mpr hr.nodup
  · have hchain := hr.chain
    rw [List.append_assoc, List.cons_append, List.isChain_cons_split] at hchain ⊢
    exact ⟨hchain.2, hchain.1⟩

theorem exists_rotation (hr : m.Ring h l) (hx : x ∈ h :: l) :
    ∃ l', m.Ring x l' ∧ l'.length = l.length ∧ ∀ y, y ∈ x :: l' ↔ y ∈ h :: l := by
  rcases List.mem_cons.mp hx with rfl | hx
  · exact ⟨l, hr, rfl, fun _ => Iff.rfl⟩
  · obtain ⟨l₁, l₂, rfl⟩ := List.append_of_mem hx
    refine ⟨l₂ ++ h :: l₁, hr.rotate, ?_, fun y => ?_⟩
    · simp only [List.length_append, List.length_cons]
      omega
    · simp only [List.mem_cons, List.mem_append]
      tauto

/-! ### The two pointers -/

theorem next_eq (hr : m.Ring h l) : m.next h = l.headD h := by
  have hchain := hr.chain
  cases l with
  | nil => exact (List.isChain_pair.mp hchain).1
  | cons y l => exact (List.isChain_cons_cons.mp hchain).1.1

theorem prev_eq (hr : m.Ring h l) : m.prev h = (h :: l).getLast (by simp) := by
  have hchain := List.isChain_append.mp hr.chain_append
  refine (hchain.2.2 _ ?_ h rfl).2
  rw [List.getLast?_eq_getLast_of_ne_nil (by simp)]
  rfl

theorem linked_next (hr : m.Ring h l) (hx : x ∈ h :: l) :
    m.Linked x (m.next x) ∧ m.next x ∈ h :: l := by
  obtain ⟨l', hr', -, hmem⟩ := hr.exists_rotation hx
  rw [← hmem, hr'.next_eq]
  have hchain := hr'.chain
  cases l' with
  | nil => exact ⟨List.isChain_pair.mp hchain, List.mem_cons_self⟩
  | cons y l' =>
    exact ⟨(List.isChain_cons_cons.mp hchain).1, List.mem_cons_of_mem x List.mem_cons_self⟩

theorem linked_prev (hr : m.Ring h l) (hx : x ∈ h :: l) :
    m.Linked (m.prev x) x ∧ m.prev x ∈ h :: l := by
  obtain ⟨l', hr', -, hmem⟩ := hr.exists_rotation hx
  have hchain := List.isChain_append.mp hr'.chain_append
  rw [← hmem, hr'.prev_eq]
  refine ⟨hchain.2.2 _ ?_ x rfl, List.getLast_mem _⟩
  rw [List.getLast?_eq_getLast_of_ne_nil (by simp)]
  rfl

/-- On a ring, `next` and `prev` are inverse to each other. -/
theorem prev_next (hr : m.Ring h l) (hx : x ∈ h :: l) :
    m.prev (m.next x) = x ∧ m.next (m.prev x) = x :=
  ⟨(hr.linked_next hx).1.2, (hr.linked_prev hx).1.1⟩

/-- The pointers `next` lead once around the ring. -/
theorem iterate_next (hr : m.Ring h l) :
    List.iterate m.next h (l.length + 1) = h :: l ∧ m.next^[l.length + 1] h = h := by
  have hround : List.iterate m.next h ((l ++ [h]).length + 1) = (h :: l) ++ [h] :=
    iterate_next_of_isChain hr.chain
  rw [List.length_append, List.length_singleton, List.iterate_add] at hround
  obtain ⟨hlist, hback⟩ := List.append_inj hround (by simp)
  exact ⟨hlist, List.head_eq_of_cons_eq hback⟩

/-- The nodes that can be reached from the list head are those of the ring. -/
theorem exists_iterate_iff (hr : m.Ring h l) : (∃ n, m.next^[n] h = x) ↔ x ∈ h :: l := by
  constructor
  · rintro ⟨n, rfl⟩
    induction n with
    | zero => exact List.mem_cons_self
    | succ n ih =>
      rw [Function.iterate_succ_apply']
      exact (hr.linked_next ih).2
  · intro hx
    rw [← hr.iterate_next.1, List.mem_iterate] at hx
    obtain ⟨n, -, hn⟩ := hx
    exact ⟨n, hn.symm⟩

/-- A node is its own neighbour only when it is alone. -/
theorem next_eq_self_iff (hr : m.Ring h l) : m.next h = h ↔ l = [] := by
  rw [hr.next_eq]
  cases l with
  | nil => simp
  | cons y l =>
    have hne : h ∉ y :: l := (List.nodup_cons.mp hr.nodup).1
    simp only [List.headD_cons, reduceCtorEq, iff_false]
    rintro rfl
    exact hne List.mem_cons_self

/-- The two neighbours of a node are the same node when the ring has at most two nodes. -/
theorem prev_ne_next_iff (hr : m.Ring h l) : m.prev h ≠ m.next h ↔ 2 ≤ l.length := by
  rw [hr.next_eq, hr.prev_eq]
  match l, hr with
  | [], _ => simp
  | [y], _ => simp
  | y :: z :: l, hr =>
    have hne : y ∉ z :: l := (List.nodup_cons.mp (List.nodup_cons.mp hr.nodup).2).1
    have hlast : (h :: y :: z :: l).getLast (by simp) ∈ z :: l := List.getLast_mem (by simp)
    simp only [List.headD_cons, List.length_cons, Nat.le_add_left, iff_true]
    intro heq
    exact hne (heq ▸ hlast)

/-! ### Primitives on a ring -/

section Primitives

variable [DecidableEq ν]

/-- A chain becomes a ring when its last node is linked to its first. -/
theorem of_isChain (hnodup : (h :: l).Nodup) (hl : (h :: l).IsChain m.Linked) :
    (m.link ((h :: l).getLast (by simp)) h).Ring h l := by
  refine ⟨hnodup, ?_⟩
  have hlast : (h :: l).getLast (by simp) ∉ (h :: l).dropLast := by
    have happend : (h :: l).dropLast ++ [(h :: l).getLast (by simp)] = h :: l :=
      List.dropLast_append_getLast (by simp)
    rw [← happend, List.nodup_append] at hnodup
    intro hmem
    exact hnodup.2.2 _ hmem _ (List.mem_singleton_self _) rfl
  show ((h :: l) ++ [h]).IsChain _
  refine List.isChain_append.mpr ⟨?_, .singleton h, ?_⟩
  · exact isChain_link hl hlast (List.nodup_cons.mp hnodup).1
  · intro a ha b hb
    rw [List.getLast?_eq_getLast_of_ne_nil (by simp)] at ha
    rw [← Option.some.inj ha, ← Option.some.inj hb]
    exact linked_link m _ h

theorem listAddTail (hr : m.Ring h l) (hx : x ∉ h :: l) : (m.listAddTail x h).Ring h (l ++ [x]) := by
  -- the path `x :: h :: l` is there once `x` points to `h`, and the second assignment closes it
  have hpath : (x :: h :: l).IsChain (m.link x h).Linked := by
    refine List.isChain_cons_cons.mpr ⟨linked_link m x h, isChain_link hr.path ?_ ?_⟩
    · exact fun hmem => hx (List.dropLast_subset _ hmem)
    · exact (List.nodup_cons.mp hr.nodup).1
  have hring : (m.listAddTail x h).Ring x ([] ++ h :: l) := by
    unfold Links.listAddTail
    rw [listAddBetween_eq, hr.prev_eq]
    exact of_isChain (List.nodup_cons.mpr ⟨hx, hr.nodup⟩) hpath
  exact hring.rotate

theorem listAdd (hr : m.Ring h l) (hx : x ∉ h :: l) : (m.listAdd x h).Ring h (x :: l) := by
  rw [listAdd_eq_listAddTail (hr.linked_next List.mem_cons_self).1, hr.next_eq]
  cases l with
  | nil => exact hr.listAddTail hx
  | cons y l =>
    -- seen from the first node, `x` is added at the end
    have hfirst : m.Ring h ([] ++ y :: l) := hr
    have hring : m.Ring y (l ++ [h]) := hfirst.rotate
    have hadd : (m.listAddTail x y).Ring y (l ++ h :: [x]) := by
      have hx' : x ∉ y :: (l ++ [h]) := by
        intro hmem
        apply hx
        simp only [List.mem_cons, List.mem_append] at hmem ⊢
        tauto
      simpa using hring.listAddTail hx'
    exact hadd.rotate

theorem listDelEntry (hr : m.Ring h l) (hx : x ∈ l) : (m.listDelEntry x).Ring h (l.erase x) := by
  -- the node that leaves is the one the ring is read from
  have hfirst {y : ν} {l' : List ν} (hr : m.Ring x (y :: l')) : (m.listDelEntry x).Ring y l' := by
    rw [listDelEntry_eq, hr.next_eq, hr.prev_eq, List.getLast_cons (by simp)]
    exact of_isChain (List.nodup_cons.mp hr.nodup).2 hr.path.tail
  obtain ⟨l₁, l₂, rfl⟩ := List.append_of_mem hx
  have hnotMem : x ∉ l₁ := by
    have hnodup := (List.nodup_cons.mp hr.nodup).2
    exact fun hmem => (List.nodup_append.mp hnodup).2.2 x hmem x List.mem_cons_self rfl
  rw [List.erase_append_right _ hnotMem, List.erase_cons_head]
  have hrotated := hr.rotate
  cases l₂ with
  | nil => simpa using hfirst hrotated
  | cons y l₂ => exact (hfirst hrotated).rotate

end Primitives

end Ring

/-! ## The list in memory -/

/-- The memory holds the list `l` with the head `h`. Of the nodes in `I`, those that are not on the
list point to themselves. -/
structure Holds (m : Links ν) (h : ν) (I : Set ν) (l : List ν) : Prop where
  ring : m.Ring h l
  subset : ∀ x ∈ l, x ∈ I
  head_notMem : h ∉ I
  alone : ∀ x ∈ I, x ∉ l → m.Linked x x

namespace Holds

variable {m : Links ν} {h x y : ν} {I : Set ν} {l : List ν}

theorem ne_head (hm : m.Holds h I l) (hx : x ∈ I) : x ≠ h := by
  rintro rfl
  exact hm.head_notMem hx

theorem notMem (hm : m.Holds h I l) (hx : x ∈ I) (hxl : x ∉ l) : x ∉ h :: l := by
  rintro (_ | ⟨_, hmem⟩)
  · exact hm.head_notMem hx
  · exact hxl hmem

theorem notMem_of_fresh (hm : m.Holds h I l) (hx : x ∉ I) (hxh : x ≠ h) : x ∉ h :: l := by
  rintro (_ | ⟨_, hmem⟩)
  · exact hxh rfl
  · exact hx (hm.subset x hmem)

theorem head_notMem_insert (hm : m.Holds h I l) (hxh : x ≠ h) : h ∉ insert x I := by
  rintro (heq | hmem)
  · exact hxh heq.symm
  · exact hm.head_notMem hmem

/-- `next` and `prev` are inverse to each other, on the ring and off it. -/
theorem prev_next (hm : m.Holds h I l) (hx : x = h ∨ x ∈ I) :
    m.prev (m.next x) = x ∧ m.next (m.prev x) = x := by
  by_cases hxl : x ∈ h :: l
  · exact hm.ring.prev_next hxl
  · have hne : x ≠ h := fun hxh => hxl (hxh ▸ List.mem_cons_self)
    obtain ⟨hnext, hprev⟩ :=
      hm.alone x (hx.resolve_left hne) fun hmem => hxl (List.mem_cons_of_mem h hmem)
    exact ⟨by rw [hnext, hprev], by rw [hprev, hnext]⟩

/-- `list_empty` of a node, not of the list head, tells whether it is on no list. -/
theorem listEmpty_iff [DecidableEq ν] (hm : m.Holds h I l) (hx : x ∈ I) :
    m.listEmpty x = true ↔ x ∉ l := by
  rw [listEmpty, decide_eq_true_iff]
  refine ⟨fun hself hxl => ?_, fun hxl => (hm.alone x hx hxl).1⟩
  obtain ⟨l', hr', hlength, -⟩ := hm.ring.exists_rotation (List.mem_cons_of_mem h hxl)
  rw [hr'.next_eq_self_iff.mp hself] at hlength
  exact List.ne_nil_of_mem hxl (List.length_eq_zero_iff.mp hlength.symm)

theorem prev_ne_next_iff (hm : m.Holds h I l) (hxl : x ∈ l) :
    m.prev x ≠ m.next x ↔ 2 ≤ l.length := by
  obtain ⟨l', hr', hlength, -⟩ := hm.ring.exists_rotation (List.mem_cons_of_mem h hxl)
  rw [hr'.prev_ne_next_iff, hlength]

/-! ### What the primitives do to the list -/

section Primitives

variable [DecidableEq ν]

/-- `INIT_LIST_HEAD` of the list head, in any memory. -/
theorem empty (m : Links ν) (h : ν) : (m.initListHead h).Holds h ∅ [] where
  ring := ⟨by simp, List.isChain_pair.mpr (linked_link m h h)⟩
  subset x hx := absurd hx List.not_mem_nil
  head_notMem := Set.notMem_empty h
  alone x hx := absurd hx (Set.notMem_empty x)

/-- `INIT_LIST_HEAD` of a fresh node. -/
theorem initListHead (hm : m.Holds h I l) (hx : x ∉ I) (hxh : x ≠ h) :
    (m.initListHead x).Holds h (insert x I) l := by
  have hxl := hm.notMem_of_fresh hx hxh
  rw [initListHead_eq]
  refine ⟨⟨hm.ring.nodup, ?_⟩, ?_, hm.head_notMem_insert hxh, ?_⟩
  · have hchain := hm.ring.chain
    refine hchain.imp_of_mem_imp fun a b ha hb hab => ?_
    have hmem {c : ν} (hc : c ∈ h :: (l ++ [h])) : c ∈ h :: l := by
      simp only [List.mem_cons, List.mem_append] at hc ⊢
      tauto
    exact hab.link (fun heq => hxl (heq ▸ hmem ha)) fun heq => hxl (heq ▸ hmem hb)
  · exact fun y hy => Set.mem_insert_of_mem x (hm.subset y hy)
  · rintro y (rfl | hy) hyl
    · exact linked_link m y y
    · have hyx : y ≠ x := fun heq => hx (heq ▸ hy)
      exact (hm.alone y hy hyl).link hyx hyx

/-- A node that points to itself is not touched by an insertion between others. -/
theorem alone_listAddBetween (hm : m.Holds h I l) (hx : x ∉ I) {a b : ν} (ha : a ∈ h :: l)
    (hb : b ∈ h :: l) (hy : y ∈ I) (hyl : y ∉ l) : (m.listAddBetween x a b).Linked y y := by
  have hyx : y ≠ x := fun heq => hx (heq ▸ hy)
  have hya : y ≠ a := fun heq => hm.notMem hy hyl (heq ▸ ha)
  have hyb : y ≠ b := fun heq => hm.notMem hy hyl (heq ▸ hb)
  rw [listAddBetween_eq]
  exact ((hm.alone y hy hyl).link hyx hyb).link hya hyx

/-- `list_add` of a node that is not accounted for yet. -/
theorem listAdd (hm : m.Holds h I l) (hx : x ∉ I) (hxh : x ≠ h) :
    (m.listAdd x h).Holds h (insert x I) (x :: l) := by
  refine ⟨hm.ring.listAdd (hm.notMem_of_fresh hx hxh), ?_, hm.head_notMem_insert hxh, ?_⟩
  · rintro y (_ | ⟨_, hy⟩)
    · exact Set.mem_insert x I
    · exact Set.mem_insert_of_mem x (hm.subset y hy)
  · rintro y (rfl | hy) hyl
    · exact absurd List.mem_cons_self hyl
    · exact hm.alone_listAddBetween hx List.mem_cons_self (hm.ring.linked_next List.mem_cons_self).2
        hy fun hmem => hyl (List.mem_cons_of_mem x hmem)

/-- `list_add_tail`. -/
theorem listAddTail (hm : m.Holds h I l) (hx : x ∉ I) (hxh : x ≠ h) :
    (m.listAddTail x h).Holds h (insert x I) (l ++ [x]) := by
  refine ⟨hm.ring.listAddTail (hm.notMem_of_fresh hx hxh), ?_, hm.head_notMem_insert hxh, ?_⟩
  · intro y hy
    rcases List.mem_append.mp hy with hy | hy
    · exact Set.mem_insert_of_mem x (hm.subset y hy)
    · exact .inl (List.mem_singleton.mp hy)
  · rintro y (rfl | hy) hyl
    · exact absurd (List.mem_append_right l List.mem_cons_self) hyl
    · exact hm.alone_listAddBetween hx (hm.ring.linked_prev List.mem_cons_self).2 List.mem_cons_self
        hy fun hmem => hyl (List.mem_append_left [x] hmem)

/-- `__list_del_entry`: the pointers of the node itself stay, so that it is not accounted for. -/
theorem listDelEntry (hm : m.Holds h I l) (hx : x ∈ I) :
    (m.listDelEntry x).Holds h (I \ {x}) (l.erase x) := by
  by_cases hxl : x ∈ l
  · have hxl' : x ∈ h :: l := List.mem_cons_of_mem h hxl
    have hnodup := (List.nodup_cons.mp hm.ring.nodup).2
    refine ⟨hm.ring.listDelEntry hxl, ?_, fun hmem => hm.head_notMem hmem.1, ?_⟩
    · intro y hy
      have hmem := hnodup.mem_erase_iff.mp hy
      exact ⟨hm.subset y hmem.2, hmem.1⟩
    · rintro y ⟨hy, hyx⟩ hyl
      have hyl' : y ∉ h :: l :=
        hm.notMem hy fun hmem => hyl ((List.mem_erase_of_ne hyx).mpr hmem)
      have hprev : y ≠ m.prev x := fun heq => hyl' (heq ▸ (hm.ring.linked_prev hxl').2)
      have hnext : y ≠ m.next x := fun heq => hyl' (heq ▸ (hm.ring.linked_next hxl').2)
      exact (hm.alone y hy fun hmem => hyl' (List.mem_cons_of_mem h hmem)).link hprev hnext
  · -- a node that points to itself is unlinked from itself
    have hself := hm.alone x hx hxl
    have hsame : m.listDelEntry x = m := by
      rw [listDelEntry_eq, hself.1, hself.2]
      exact link_eq_self hself
    rw [hsame, List.erase_of_not_mem hxl]
    refine ⟨hm.ring, ?_, fun hmem => hm.head_notMem hmem.1, fun y hy => hm.alone y hy.1⟩
    exact fun y hy => ⟨hm.subset y hy, fun heq => hxl (heq ▸ hy)⟩

/-! A node is unlinked first, and then initialised or inserted like a fresh one. -/

theorem listDelInit (hm : m.Holds h I l) (hx : x ∈ I) :
    (m.listDelInit x).Holds h I (l.erase x) := by
  have hdel := (hm.listDelEntry hx).initListHead (Set.notMem_sdiff_of_mem rfl) (hm.ne_head hx)
  rwa [Set.insert_sdiff_self_of_mem hx] at hdel

theorem listMove (hm : m.Holds h I l) (hx : x ∈ I) :
    (m.listMove x h).Holds h I (x :: l.erase x) := by
  have hadd := (hm.listDelEntry hx).listAdd (Set.notMem_sdiff_of_mem rfl) (hm.ne_head hx)
  rwa [Set.insert_sdiff_self_of_mem hx] at hadd

theorem listMoveTail (hm : m.Holds h I l) (hx : x ∈ I) :
    (m.listMoveTail x h).Holds h I (l.erase x ++ [x]) := by
  have hadd := (hm.listDelEntry hx).listAddTail (Set.notMem_sdiff_of_mem rfl) (hm.ne_head hx)
  rwa [Set.insert_sdiff_self_of_mem hx] at hadd

end Primitives

end Holds

end Links
