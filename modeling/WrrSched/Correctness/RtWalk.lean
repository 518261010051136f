import WrrSched.Correctness.RtInvariant

/-!
# The walk over the task groups

In every reachable state the pointers of the task groups form a tree, so `walk_tg_tree_from` ends.
It calls each visitor once for each group below the group it starts from; the calls for the groups
below a group stand between the two calls for that group.

- `GroupsOk.walkTgTreeFrom_eq`: the calls of the walk;
- `rtSystem_walk`: what they are.
-/

namespace WrrSched

namespace RtState

variable {s : RtState} {g q start : RtGroup}

theorem GroupsOk.isTree (h : s.GroupsOk) : Walk.IsTree s.groupTree List.length where
  parent_eq v c hc := by
    obtain ⟨tg, -, rfl⟩ := List.mem_map.mp hc
    rfl
  nodup v := (h.childrenNodup v).map fun _ _ heq => (List.cons_eq_cons.mp heq).1
  depth_eq v c hc := by
    obtain ⟨tg, -, rfl⟩ := List.mem_map.mp hc
    rfl

/-- The children of an existing group exist. -/
theorem GroupsOk.mem_of_child (h : s.GroupsOk) (hq : q ∈ s.groupTree.children g) :
    q ∈ s.taskGroups := by
  obtain ⟨tg, htg, rfl⟩ := List.mem_map.mp hq
  exact (h.children tg g).mp htg

/-- Paths are no longer than there are groups. -/
theorem GroupsOk.depthLt (h : s.GroupsOk) {n : ℕ} (hg : g ∈ s.taskGroups)
    (hn : s.taskGroups.length ≤ g.length + n) : Walk.DepthLt s.groupTree n g := by
  induction n generalizing g with
  | zero =>
    have hlt := h.length_lt hg
    omega
  | succ n ih =>
    intro c hc
    have hlen := h.isTree.depth_eq g c hc
    exact ih (h.mem_of_child hc) (by omega)

/-- The groups below a group are those that it is a suffix of. -/
theorem GroupsOk.below_iff (h : s.GroupsOk) (hg : g ∈ s.taskGroups) :
    Relation.ReflTransGen (fun a b => b ∈ s.groupTree.children a) g q ↔
      q ∈ s.taskGroups ∧ g <:+ q := by
  constructor
  · intro hgq
    induction hgq with
    | refl => exact ⟨hg, List.suffix_rfl⟩
    | tail _ hc ih =>
      obtain ⟨tg, -, rfl⟩ := List.mem_map.mp hc
      exact ⟨h.mem_of_child hc, ih.2.trans (List.suffix_cons tg _)⟩
  · rintro ⟨hq, r, rfl⟩
    induction r with
    | nil => exact .refl
    | cons tg r ih =>
      refine .tail (ih (h.parent tg _ hq)) ?_
      exact List.mem_map.mpr ⟨tg, (h.children tg _).mpr hq, rfl⟩

theorem GroupsOk.mem_nodes_iff (h : s.GroupsOk) {n : ℕ} (hg : g ∈ s.taskGroups)
    (hn : Walk.DepthLt s.groupTree n g) :
    q ∈ Walk.nodes s.groupTree n g ↔ q ∈ s.taskGroups ∧ g <:+ q := by
  rw [Walk.mem_nodes_iff hn, h.below_iff hg]

/-- The walk ends, after the calls for the tree below its start. -/
theorem GroupsOk.walkTgTreeFrom_eq (h : s.GroupsOk) (hstart : start ∈ s.taskGroups) {σ : Type}
    (f : Walk.Visitors RtGroup σ) (d : σ) :
    s.walkTgTreeFrom start f d =
      some (f.runCalls (Walk.calls s.groupTree s.taskGroups.length start) d) := by
  have hdepth : Walk.DepthLt s.groupTree s.taskGroups.length start :=
    h.depthLt hstart (Nat.le_add_left _ _)
  have hsub : Walk.nodes s.groupTree s.taskGroups.length start ⊆ s.taskGroups :=
    fun q hq => ((h.mem_nodes_iff hstart hdepth).mp hq).1
  have hlen := ((Walk.nodup_nodes h.isTree hdepth).subperm hsub).length_le
  have hsteps := Walk.steps_lt hdepth
  exact Walk.run_eq h.isTree hdepth (by omega) d

end RtState

open RtState

/-- In every reachable state `walk_tg_tree_from` ends, whatever the visitors do. It makes its calls
in a fixed order until one of them does not return zero. Each visitor is called once for each group
at or below the start, and for no other one; between the two calls for a group stand exactly the
calls for the groups below it. -/
theorem rtSystem_walk {cfg : Config} {s : RtState} (h : (rtSystem cfg).Reachable s)
    {start : RtGroup} (hstart : start ∈ s.taskGroups) :
    ∃ cs : List (Walk.Call RtGroup),
      (∀ (σ : Type) (f : Walk.Visitors RtGroup σ) (d : σ),
        s.walkTgTreeFrom start f d = some (f.runCalls cs d)) ∧
      cs.Nodup ∧
      (∀ c, c ∈ cs ↔ c.node ∈ s.taskGroups ∧ start <:+ c.node) ∧
      ∀ g ∈ s.taskGroups, start <:+ g → ∃ pre mid post,
        cs = pre ++ .down g :: (mid ++ .up g :: post) ∧
        ∀ c, c ∈ mid ↔ c.node ∈ s.taskGroups ∧ g <:+ c.node ∧ c.node ≠ g := by
  have hgroups := (rtSystem_inv h).groups
  have hdepth : Walk.DepthLt s.groupTree s.taskGroups.length start :=
    hgroups.depthLt hstart (Nat.le_add_left _ _)
  have hnodup := Walk.nodup_calls hgroups.isTree hdepth
  refine ⟨Walk.calls s.groupTree s.taskGroups.length start,
    fun σ f d => hgroups.walkTgTreeFrom_eq hstart f d, hnodup, fun c => ?_, fun g hg hsuf => ?_⟩
  · rw [Walk.mem_calls_iff, hgroups.mem_nodes_iff hstart hdepth]
  · obtain ⟨m, pre, post, hm, hcalls⟩ :=
      Walk.exists_calls_eq hdepth ((hgroups.mem_nodes_iff hstart hdepth).mpr ⟨hg, hsuf⟩)
    cases m with
    | zero => exact hm.elim
    | succ m =>
      refine ⟨pre, (s.groupTree.children g).flatMap (Walk.calls s.groupTree m), post, ?_,
        fun c => ?_⟩
      · rw [hcalls, Walk.calls]
        simp only [List.cons_append, List.append_assoc, List.nil_append]
      · -- a child of `g` is above `c`
        have hbelow := hgroups.mem_nodes_iff (q := c.node) hg hm
        rw [Walk.nodes, List.mem_cons] at hbelow
        have hne (hc : c.node ∈ (s.groupTree.children g).flatMap (Walk.nodes s.groupTree m)) :
            c.node ≠ g := by
          obtain ⟨w, hw, hc⟩ := List.mem_flatMap.mp hc
          exact fun heq => hgroups.isTree.notMem_nodes (hm w hw) hw (heq ▸ hc)
        simp only [List.mem_flatMap, Walk.mem_calls_iff] at hbelow hne ⊢
        constructor
        · intro hc
          obtain ⟨h1, h2⟩ := hbelow.mp (.inr hc)
          exact ⟨h1, h2, hne hc⟩
        · rintro ⟨h1, h2, hne⟩
          exact (hbelow.mpr ⟨h1, h2⟩).resolve_left hne

/-- Two groups in the root group, one of them with a group of its own. -/
def SmallRt.grouped : RtState :=
  ((boot.next Small.cfg (.schedCreateGroup [] 1)).next Small.cfg (.schedCreateGroup [] 2)).next
    Small.cfg (.schedCreateGroup [1] 3)

theorem SmallRt.reachable_grouped : (rtSystem Small.cfg).Reachable grouped := by
  have h1 : boot.Enabled (.schedCreateGroup [] 1) := ⟨by decide, by decide⟩
  have h2 : (boot.next Small.cfg (.schedCreateGroup [] 1)).Enabled (.schedCreateGroup [] 2) :=
    ⟨by decide, by decide⟩
  have h3 : ((boot.next Small.cfg (.schedCreateGroup [] 1)).next Small.cfg
      (.schedCreateGroup [] 2)).Enabled (.schedCreateGroup [1] 3) := ⟨by decide, by decide⟩
  exact reachable_next (reachable_next (reachable_next (.init init_boot) _ h1) _ h2) _ h3

theorem rtSystem_walk_grouped :
    ∃ cs : List (Walk.Call RtGroup), cs.Nodup ∧
      ∀ c, c ∈ cs ↔ c.node ∈ SmallRt.grouped.taskGroups ∧ [1] <:+ c.node := by
  have hstart : [1] ∈ SmallRt.grouped.taskGroups := by decide
  obtain ⟨cs, -, hnodup, hmem, -⟩ := rtSystem_walk SmallRt.reachable_grouped hstart
  exact ⟨cs, hnodup, hmem⟩

end WrrSched
