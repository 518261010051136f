import Mathlib.Algebra.GroupWithZero.Nat
import Mathlib.Data.List.Basic
import Mathlib.Data.List.Nodup
import Mathlib.Data.List.TakeWhile
import Mathlib.Logic.Relation
import Mathlib.Tactic.Common

/-!
# Walking a tree along its pointers

A walk over a tree whose nodes know their children, their siblings and their parent, without a
stack: it calls `down` when it enters a node and `up` when it leaves it, and stops at the first call
that does not return zero. The machine (`Walk.step`) has a program counter and the current node. Its
meaning is a list of calls (`Walk.calls`), in which the calls for the descendants of a node stand
between the two calls for the node.

- `Walk.run_eq`: with enough fuel the machine makes these calls;
- `Walk.runCalls_eq_zero_iff`: a walk with pure visitors accepts when every node is accepted;
- `Walk.mem_nodes_iff`, `Walk.nodup_nodes`: each node is entered once;
- `Walk.mem_calls_iff`, `Walk.nodup_calls`: each visitor is called once for each node;
- `Walk.exists_calls_eq`: the calls are nested.
-/

namespace Walk

variable {α σ : Type*}

/-- A call of one of the two visitors. -/
inductive Call (α : Type*)
  | down (v : α)
  | up (v : α)
  deriving DecidableEq

/-- The node that is entered. -/
def Call.entered : Call α → Option α
  | .down v => some v
  | .up _ => none

/-- The node that the visitor is called for. -/
def Call.node : Call α → α
  | .down v => v
  | .up v => v

/-- A visitor reads a node, may change the data and returns an error code. -/
structure Visitors (α σ : Type*) where
  down : α → σ → ℤ × σ
  up : α → σ → ℤ × σ

namespace Visitors

variable (f : Visitors α σ)

/-- Make one call. -/
def call : Call α → σ → ℤ × σ
  | .down v, d => f.down v d
  | .up v, d => f.up v d

/-- Make calls until one does not return zero. -/
def runCalls : List (Call α) → σ → ℤ × σ
  | [], d => (0, d)
  | c :: cs, d => if (f.call c d).1 ≠ 0 then f.call c d else runCalls cs (f.call c d).2

theorem runCalls_append (cs cs' : List (Call α)) (d : σ) :
    f.runCalls (cs ++ cs') d =
      if (f.runCalls cs d).1 ≠ 0 then f.runCalls cs d else f.runCalls cs' (f.runCalls cs d).2 := by
  induction cs generalizing d with
  | nil => simp [runCalls]
  | cons c cs ih =>
    by_cases hc : (f.call c d).1 = 0
    · simp [runCalls, hc, ih]
    · simp [runCalls, hc]

end Visitors

/-! ## The machine -/

/-- The pointers of a tree. -/
structure Tree (α : Type*) where
  children : α → List α
  parent : α → Option α

/-- Where the machine is: at the call of `down` for a node, or in the loop over its children, with
the next child or none. -/
inductive At (α : Type*)
  | down (v : α)
  | loop (v : α) (child : Option α)

section Machine

variable [DecidableEq α] (t : Tree α) (f : Visitors α σ) (start : α)

/-- The sibling after `c` among the children of `v`. -/
def next (v c : α) : Option α := ((t.children v).dropWhile (· ≠ c)).tail.head?

/-- Run the machine; without fuel there is no result. -/
def run : ℕ → At α → σ → Option (ℤ × σ)
  | 0, _, _ => none
  | n + 1, .down v, d =>
    if (f.down v d).1 ≠ 0 then some (f.down v d)
    else run n (.loop v (t.children v).head?) (f.down v d).2
  | n + 1, .loop _ (some c), d => run n (.down c) d
  | n + 1, .loop v none, d =>
    if (f.up v d).1 ≠ 0 ∨ v = start then some (f.up v d)
    else
      match t.parent v with
      | none => some (f.up v d)
      | some u => run n (.loop u (next t u v)) (f.up v d).2

end Machine

/-! ## Its meaning -/

variable (t : Tree α)

/-- The nodes of the tree below `v`, down to depth `n`, as they are entered. -/
def nodes : ℕ → α → List α
  | 0, _ => []
  | n + 1, v => v :: (t.children v).flatMap (nodes n)

/-- The calls of the walk of the tree below `v`. -/
def calls : ℕ → α → List (Call α)
  | 0, _ => []
  | n + 1, v => .down v :: ((t.children v).flatMap (calls n) ++ [.up v])

/-- The tree below `v` has fewer than `n` levels below `v`. -/
def DepthLt : ℕ → α → Prop
  | 0, _ => False
  | n + 1, v => ∀ c ∈ t.children v, DepthLt n c

/-- The steps of the machine in the tree below `v`. -/
def steps : ℕ → α → ℕ
  | 0, _ => 0
  | n + 1, v => 2 + ((t.children v).map fun c => 1 + steps n c).sum

/-- A pointer structure that is a tree below `start`: children know their parent, siblings are
different, and children are one level deeper. -/
structure IsTree (depth : α → ℕ) : Prop where
  parent_eq : ∀ v, ∀ c ∈ t.children v, t.parent c = some v
  nodup : ∀ v, (t.children v).Nodup
  depth_eq : ∀ v, ∀ c ∈ t.children v, depth c = depth v + 1

section Correct

variable [DecidableEq α] {t} {f : Visitors α σ} {start : α} {depth : α → ℕ}

/-- What the machine does after the tree below `v` when nothing has failed. -/
def afterUp (t : Tree α) (f : Visitors α σ) (start : α) (fuel : ℕ) (v : α) (d : σ) :
    Option (ℤ × σ) :=
  if v = start then some (0, d)
  else
    match t.parent v with
    | none => some (0, d)
    | some u => run t f start fuel (.loop u (next t u v)) d

/-- The result of some calls and what follows if none of them fails. -/
def andThen (x : ℤ × σ) (k : σ → Option (ℤ × σ)) : Option (ℤ × σ) :=
  if x.1 ≠ 0 then some x else k x.2

omit [DecidableEq α] in
theorem andThen_runCalls_append (cs cs' : List (Call α)) (d : σ) (k : σ → Option (ℤ × σ)) :
    andThen (f.runCalls (cs ++ cs') d) k =
      andThen (f.runCalls cs d) fun d => andThen (f.runCalls cs' d) k := by
  rw [Visitors.runCalls_append]
  by_cases h : (f.runCalls cs d).1 = 0 <;> simp [andThen, h]

theorem next_eq {v c : α} {pre rest : List α} (h : t.children v = pre ++ c :: rest)
    (hnodup : (t.children v).Nodup) : next t v c = rest.head? := by
  have hnot : ∀ x ∈ pre, decide (x ≠ c) = true := by
    intro x hx
    rw [h, List.nodup_append] at hnodup
    exact decide_eq_true (hnodup.2.2 x hx c List.mem_cons_self)
  rw [next, h, List.dropWhile_append_of_pos hnot, List.dropWhile_cons_of_neg (by simp)]
  rfl

/-- The loop over the remaining children `rest` of `v`, given what happens in the tree below each of
them. -/
theorem run_loop (ht : IsTree t depth) {n : ℕ} {v : α}
    (ih : ∀ c ∈ t.children v, ∀ fuel d, run t f start (fuel + steps t n c) (.down c) d =
      andThen (f.runCalls (calls t n c) d) (afterUp t f start fuel c))
    (hstart : ∀ c ∈ t.children v, c ≠ start) (rest : List α) :
    ∀ pre, t.children v = pre ++ rest → ∀ fuel d,
      run t f start (fuel + 1 + (rest.map fun c => 1 + steps t n c).sum) (.loop v rest.head?) d =
        andThen (f.runCalls (rest.flatMap (calls t n) ++ [.up v]) d)
          (afterUp t f start fuel v) := by
  induction rest with
  | nil =>
    intro pre _ fuel d
    by_cases hup : (f.up v d).1 = 0
    · have hret : f.up v d = (0, (f.up v d).2) := Prod.ext hup rfl
      rw [List.map_nil, List.sum_nil, Nat.add_zero, List.head?_nil, run, hret]
      by_cases hv : v = start
      · subst hv
        simp [andThen, afterUp, Visitors.runCalls, Visitors.call, hup]
      · cases hp : t.parent v <;>
          simp [andThen, afterUp, Visitors.runCalls, Visitors.call, hup, hv, hp]
    · simp [run, andThen, Visitors.runCalls, Visitors.call, hup]
  | cons c rest ihr =>
    intro pre hpre fuel d
    have hc : c ∈ t.children v := hpre ▸ by simp
    have hfuel : fuel + 1 + ((c :: rest).map fun c => 1 + steps t n c).sum =
        (fuel + 1 + (rest.map fun c => 1 + steps t n c).sum + steps t n c) + 1 := by
      rw [List.map_cons, List.sum_cons]
      omega
    rw [hfuel, List.head?_cons, run, ih c hc, List.flatMap_cons, List.append_assoc,
      andThen_runCalls_append]
    -- the tree below `c` is done; the machine goes on with its sibling
    congr 1
    funext d
    rw [afterUp, if_neg (hstart c hc), ht.parent_eq v c hc]
    simp only
    rw [next_eq hpre (ht.nodup v), ihr (pre ++ [c]) (by simp [hpre])]

/-- The tree below `v`. -/
theorem run_down (ht : IsTree t depth) {n : ℕ} {v : α} (hn : DepthLt t n v)
    (hstart : depth start ≤ depth v) (fuel : ℕ) (d : σ) :
    run t f start (fuel + steps t n v) (.down v) d =
      andThen (f.runCalls (calls t n v) d) (afterUp t f start fuel v) := by
  induction n generalizing v fuel d with
  | zero => exact hn.elim
  | succ n ih =>
    have hloop := run_loop (f := f) (n := n) ht (v := v)
      (fun c hc fuel d => ih (hn c hc) (by have := ht.depth_eq v c hc; omega) fuel d)
      (fun c hc hcs => by
        have := ht.depth_eq v c hc
        rw [hcs] at this
        omega)
      (t.children v) [] rfl
    have hfuel : fuel + steps t (n + 1) v =
        (fuel + 1 + ((t.children v).map fun c => 1 + steps t n c).sum) + 1 := by
      rw [steps]
      omega
    rw [hfuel, run, calls]
    by_cases hdown : (f.down v d).1 = 0
    · simp only [hdown, ne_eq, not_true, if_false, hloop]
      simp [andThen, Visitors.runCalls, Visitors.call, hdown]
    · simp [hdown, andThen, Visitors.runCalls, Visitors.call]

/-- With enough fuel the machine makes the calls of the walk and returns what they return. -/
theorem run_eq (ht : IsTree t depth) {n fuel : ℕ} (hn : DepthLt t n start)
    (hfuel : steps t n start ≤ fuel) (d : σ) :
    run t f start fuel (.down start) d = some (f.runCalls (calls t n start) d) := by
  obtain ⟨extra, rfl⟩ := Nat.exists_eq_add_of_le' hfuel
  rw [run_down ht hn le_rfl, andThen]
  split_ifs with h
  · rfl
  · rw [afterUp, if_pos rfl]
    exact congrArg some (Prod.ext (not_not.mp h).symm rfl)

end Correct

/-! ## The nodes of a walk -/

section Nodes

variable {t : Tree α} {f : Visitors α σ} {depth : α → ℕ}

/-- The machine makes fewer than three steps for each node. -/
theorem steps_lt {n : ℕ} {v : α} (hn : DepthLt t n v) :
    steps t n v + 1 ≤ 3 * (nodes t n v).length := by
  induction n generalizing v with
  | zero => exact hn.elim
  | succ n ih =>
    have hsum : ∀ l : List α, (∀ c ∈ l, DepthLt t n c) →
        (l.map fun c => 1 + steps t n c).sum ≤ 3 * (l.flatMap (nodes t n)).length := by
      intro l hl
      induction l with
      | nil => simp
      | cons c l ihl =>
        have hc := ih (hl c List.mem_cons_self)
        have hrest := ihl fun c hc => hl c (List.mem_cons_of_mem _ hc)
        rw [List.map_cons, List.sum_cons, List.flatMap_cons, List.length_append]
        omega
    have h := hsum (t.children v) hn
    rw [steps, nodes, List.length_cons]
    omega

/-- The walk enters the nodes in order. -/
theorem filterMap_calls (n : ℕ) (v : α) : (calls t n v).filterMap Call.entered = nodes t n v := by
  induction n generalizing v with
  | zero => rfl
  | succ n ih =>
    have hchildren : ∀ l : List α, (l.flatMap (calls t n)).filterMap Call.entered =
        l.flatMap (nodes t n) := by
      intro l
      induction l with
      | nil => rfl
      | cons c l ihl => rw [List.flatMap_cons, List.filterMap_append, ih, ihl, List.flatMap_cons]
    have hdown : Call.entered (.down v) = some v := rfl
    have hup : Call.entered (.up v) = none := rfl
    rw [calls, List.filterMap_cons_some hdown, List.filterMap_append, hchildren, nodes]
    simp [hup]

/-- The visitors are called for the nodes of the walk. -/
theorem mem_calls_iff {n : ℕ} {v : α} {c : Call α} : c ∈ calls t n v ↔ c.node ∈ nodes t n v := by
  induction n generalizing v with
  | zero => exact iff_of_false List.not_mem_nil List.not_mem_nil
  | succ n ih =>
    have hself : c.node = v ↔ c = .down v ∨ c = .up v := by
      cases c <;> simp [Call.node]
    have hchildren : c ∈ (t.children v).flatMap (calls t n) ↔
        c.node ∈ (t.children v).flatMap (nodes t n) := by
      simp only [List.mem_flatMap, ih]
    rw [calls, nodes, List.mem_cons, List.mem_append, List.mem_singleton, List.mem_cons, hchildren,
      hself]
    tauto

/-- The nodes of the walk are those below its start. -/
theorem mem_nodes_iff {n : ℕ} {u v : α} (hn : DepthLt t n v) :
    u ∈ nodes t n v ↔ Relation.ReflTransGen (fun a b => b ∈ t.children a) v u := by
  induction n generalizing v with
  | zero => exact hn.elim
  | succ n ih =>
    rw [nodes, List.mem_cons, List.mem_flatMap, Relation.ReflTransGen.cases_head_iff, eq_comm]
    refine or_congr_right (exists_congr fun c => and_congr_right fun hc => ih (hn c hc))

theorem IsTree.depth_le (ht : IsTree t depth) {u v : α}
    (h : Relation.ReflTransGen (fun a b => b ∈ t.children a) v u) : depth v ≤ depth u := by
  induction h with
  | refl => exact le_rfl
  | tail _ hbc ih =>
    have := ht.depth_eq _ _ hbc
    omega

/-- A node is below one node of each depth at most. -/
theorem IsTree.ancestor_unique (ht : IsTree t depth) {u v w : α}
    (hv : Relation.ReflTransGen (fun a b => b ∈ t.children a) v u)
    (hw : Relation.ReflTransGen (fun a b => b ∈ t.children a) w u) (h : depth v = depth w) :
    v = w := by
  induction hv with
  | refl =>
    obtain rfl | ⟨b, hwb, hbu⟩ := hw.cases_tail
    · rfl
    · have := ht.depth_le hwb
      have := ht.depth_eq _ _ hbu
      omega
  | tail hvb hbu ih =>
    obtain rfl | ⟨b', hwb', hb'u⟩ := hw.cases_tail
    · have := ht.depth_le hvb
      have := ht.depth_eq _ _ hbu
      omega
    · have hbb := (ht.parent_eq _ _ hbu).symm.trans (ht.parent_eq _ _ hb'u)
      exact ih (Option.some.inj hbb ▸ hwb')

/-- A node is not below its children. -/
theorem IsTree.notMem_nodes (ht : IsTree t depth) {n : ℕ} {c v : α} (hn : DepthLt t n c)
    (hc : c ∈ t.children v) : v ∉ nodes t n c := by
  intro hv
  have hle := ht.depth_le ((mem_nodes_iff hn).mp hv)
  have := ht.depth_eq v c hc
  omega

/-- Each visitor is called at most once for a node. -/
theorem nodup_calls (ht : IsTree t depth) {n : ℕ} {v : α} (hn : DepthLt t n v) :
    (calls t n v).Nodup := by
  induction n generalizing v with
  | zero => exact hn.elim
  | succ n ih =>
    have hself {c : Call α} (hc : c ∈ (t.children v).flatMap (calls t n)) : c.node ≠ v := by
      obtain ⟨w, hw, hc⟩ := List.mem_flatMap.mp hc
      exact fun heq => ht.notMem_nodes (hn w hw) hw (heq ▸ mem_calls_iff.mp hc)
    have hchildren : ((t.children v).flatMap (calls t n)).Nodup := by
      refine List.nodup_flatMap.mpr ⟨fun c hc => ih (hn c hc), ?_⟩
      -- a call for a node below two children would be below both at the same depth
      refine (ht.nodup v).pairwise_of_forall_ne fun w hw w' hw' hne c hc hc' => hne ?_
      refine ht.ancestor_unique ((mem_nodes_iff (hn w hw)).mp (mem_calls_iff.mp hc))
        ((mem_nodes_iff (hn w' hw')).mp (mem_calls_iff.mp hc')) ?_
      rw [ht.depth_eq v w hw, ht.depth_eq v w' hw']
    rw [calls, List.nodup_cons, List.mem_append, List.mem_singleton, List.nodup_append]
    refine ⟨?_, hchildren, List.nodup_singleton _, fun c hc c' hc' heq => ?_⟩
    · rintro (hc | hc)
      · exact hself hc rfl
      · exact nomatch hc
    · rw [List.mem_singleton.mp hc'] at heq
      exact hself hc (heq ▸ rfl)

/-- Each node is entered once. -/
theorem nodup_nodes (ht : IsTree t depth) {n : ℕ} {v : α} (hn : DepthLt t n v) :
    (nodes t n v).Nodup := by
  rw [← filterMap_calls]
  refine (nodup_calls ht hn).filterMap fun c c' u hc hc' => ?_
  cases c <;> cases c' <;> simp_all [Call.entered]

/-- The calls for a node and the nodes below it stand together. -/
theorem exists_calls_eq {n : ℕ} {u v : α} (hn : DepthLt t n v) (hu : u ∈ nodes t n v) :
    ∃ m pre post, DepthLt t m u ∧ calls t n v = pre ++ calls t m u ++ post := by
  induction n generalizing v with
  | zero => exact hn.elim
  | succ n ih =>
    obtain rfl | hu := List.mem_cons.mp hu
    · exact ⟨n + 1, [], [], hn, by simp⟩
    · obtain ⟨c, hc, hu⟩ := List.mem_flatMap.mp hu
      obtain ⟨m, pre, post, hm, hcalls⟩ := ih (hn c hc) hu
      obtain ⟨l, l', hl⟩ := List.append_of_mem hc
      refine ⟨m, .down v :: (l.flatMap (calls t n) ++ pre),
        post ++ (l'.flatMap (calls t n) ++ [.up v]), hm, ?_⟩
      rw [calls, hl, List.flatMap_append, List.flatMap_cons, hcalls]
      simp only [List.cons_append, List.append_assoc]

/-- Calls of a visitor that only reads the nodes: the first error is returned. -/
theorem Visitors.runCalls_pure {err : α → ℤ} (hdown : ∀ v d, f.down v d = (err v, d))
    (hup : ∀ v d, f.up v d = (0, d)) (cs : List (Call α)) (d : σ) :
    f.runCalls cs d =
      ((((cs.filterMap Call.entered).map err).find? fun r => decide (r ≠ 0)).getD 0, d) := by
  induction cs with
  | nil => rfl
  | cons c cs ih =>
    cases c with
    | up v => simpa [runCalls, call, hup, Call.entered] using ih
    | down v =>
      by_cases hv : err v = 0
      · simpa [runCalls, call, hdown, Call.entered, hv] using ih
      · simp [runCalls, call, hdown, Call.entered, hv]

/-- A walk with a visitor that only reads the nodes accepts when every node is accepted. -/
theorem runCalls_eq_zero_iff {err : α → ℤ} (hdown : ∀ v d, f.down v d = (err v, d))
    (hup : ∀ v d, f.up v d = (0, d)) {n : ℕ} {v : α} (d : σ) :
    (f.runCalls (calls t n v) d).1 = 0 ↔ ∀ u ∈ nodes t n v, err u = 0 := by
  rw [f.runCalls_pure hdown hup, filterMap_calls]
  cases hfind : ((nodes t n v).map err).find? fun r => decide (r ≠ 0) with
  | none =>
    have hall := List.find?_eq_none.mp hfind
    simpa using hall
  | some r =>
    have hr := List.find?_some hfind
    have hmem := List.mem_of_find?_eq_some hfind
    obtain ⟨u, hu, rfl⟩ := List.mem_map.mp hmem
    simp only [Option.getD_some]
    exact iff_of_false (by simpa using hr) fun h => by simp [h u hu] at hr

end Nodes

end Walk
