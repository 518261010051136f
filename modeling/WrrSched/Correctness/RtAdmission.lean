import WrrSched.Correctness.RtBudget
import WrrSched.Correctness.RtWalk

/-!
# Admission of RT bandwidth

The shares `to_ratio` of the groups are kept such that the children of a group together have no more
than the group, and no group more than the whole system. Then no sum in `tg_rt_schedulable` wraps
around, and the walk over all groups comes down to a few comparisons around the group that is to be
changed.

- `Admitted`: the shares;
- `rtSchedulable_eq_zero_iff`: when a request is granted;
- `rtSystem_admitted`: the shares in every reachable state;
- `rtSystem_antichain`: groups of which none is in another one share the whole;
- `schedGroupSetRt_readBack`: what is set is read back.
-/

namespace WrrSched

/-! ## Shares -/

/-- A sum of `unsigned long`s. -/
theorem toNat_foldl_add {α : Type*} (f : α → UInt32) (l : List α) (x : UInt32) :
    (l.foldl (fun sum c => sum + f c) x).toNat =
      (x.toNat + (l.map fun c => (f c).toNat).sum) % 2 ^ 32 := by
  induction l generalizing x with
  | nil => simp [Nat.mod_eq_of_lt x.toNat_lt]
  | cons c l ih =>
    rw [List.foldl_cons, ih, UInt32.toNat_add, List.map_cons, List.sum_cons, ← Nat.add_assoc,
      Nat.mod_add_mod]

/-- What a share is when the runtime fits into the period. -/
theorem toNat_toRatio_le {period runtime : UInt64} (h : runtime ≤ period ∨ runtime = runtimeInf) :
    (toRatio period runtime).toNat ≤ 2 ^ 20 := by
  unfold toRatio
  split_ifs with hinf
  · decide
  · have hle := UInt64.le_iff_toNat_le.mp (h.resolve_right hinf)
    rw [UInt64.toNat_toUInt32, UInt64.toNat_div, UInt64.toNat_shiftLeft]
    refine (Nat.mod_le _ _).trans (Nat.div_le_of_le_mul ?_)
    refine (Nat.mod_le _ _).trans ?_
    have hshift : runtime.toNat <<< ((20 : UInt64).toNat % 64) = runtime.toNat * 2 ^ 20 := by
      rw [Nat.shiftLeft_eq]
      rfl
    rw [hshift]
    exact Nat.mul_le_mul_right _ hle

namespace RtState

variable {cfg : Config} {s s' : RtState} {g q : RtGroup} {period runtime : UInt64}

/-- The share of a group, in units of `2 ^ -20`. -/
def share (s : RtState) (g : RtGroup) : ℕ :=
  (toRatio (s.rtBandwidth g).rtPeriod (s.rtBandwidth g).rtRuntime).toNat

/-- The share of the whole system. -/
def globalShare (s : RtState) : ℕ :=
  (toRatio s.globalRtPeriod s.globalRtRuntime).toNat

/-- The shares of the children of a group together. -/
def childShares (s : RtState) (g : RtGroup) : ℕ :=
  ((s.children g).map fun tg => s.share (tg :: g)).sum

/-- The bandwidth of the groups fits into that of their parents and of the whole system. -/
structure Admitted (s : RtState) : Prop where
  runtime_le : ∀ g ∈ s.taskGroups, (s.rtBandwidth g).rtRuntime ≤ (s.rtBandwidth g).rtPeriod ∨
    (s.rtBandwidth g).rtRuntime = runtimeInf
  share_le : ∀ g ∈ s.taskGroups, s.share g ≤ s.globalShare
  childShares_le : ∀ g ∈ s.taskGroups, s.childShares g ≤ s.share g

theorem Admitted.share_le_one (h : s.Admitted) (hg : g ∈ s.taskGroups) : s.share g ≤ 2 ^ 20 :=
  toNat_toRatio_le (h.runtime_le g hg)

/-! ## The check of one group -/

/-- The share `tg_rt_schedulable` sees. -/
def requestedShare (s : RtState) (d : RtSchedulableData) (g : RtGroup) : ℕ :=
  (toRatio (s.requested d g).1 (s.requested d g).2).toNat

/-- The tasks of the root group would starve. -/
def Starves (s : RtState) (d : RtSchedulableData) : Prop :=
  s.rtBandwidthEnabled = true ∧ (s.requested d []).2 = 0 ∧ s.tgHasRtTasks [] = true

/-- When `tg_rt_schedulable` finds nothing wrong with a group. -/
theorem tgRtSchedulable_eq_zero_iff (d : RtSchedulableData) :
    s.tgRtSchedulable d g = 0 ↔
      ((s.requested d g).2 ≤ (s.requested d g).1 ∨ (s.requested d g).2 = runtimeInf) ∧
      ¬ (g = [] ∧ s.Starves d) ∧ s.requestedShare d g ≤ s.globalShare ∧
      ((s.children g).map fun tg => s.requestedShare d (tg :: g)).sum % 2 ^ 32 ≤
        s.requestedShare d g := by
  -- only the root group is asked for RT tasks
  have hstarve : (s.rtBandwidthEnabled = true ∧ (s.requested d g).2 = 0 ∧
      s.tgHasRtTasks g = true) ↔ g = [] ∧ s.Starves d := by
    by_cases hg : g = []
    · subst hg
      simp [Starves]
    · simp [tgHasRtTasks, hg]
  have hsum := toNat_foldl_add
    (fun child => toRatio (s.requested d child).1 (s.requested d child).2)
    (s.groupTree.children g) 0
  have hmap : ((s.groupTree.children g).map fun child =>
      (toRatio (s.requested d child).1 (s.requested d child).2).toNat) =
      (s.children g).map fun tg => s.requestedShare d (tg :: g) := by
    simp only [groupTree, List.map_map]
    rfl
  rw [hmap, UInt32.toNat_zero, Nat.zero_add] at hsum
  unfold tgRtSchedulable
  simp only
  rw [requestedShare, globalShare, ← hsum, ← UInt32.le_iff_toNat_le, ← UInt32.le_iff_toNat_le,
    ← UInt32.not_lt, ← UInt32.not_lt, ← UInt64.not_lt]
  have hinval : -einval ≠ 0 := by decide
  have hbusy : -ebusy ≠ 0 := by decide
  -- the four tests of the source in their order
  split_ifs with h1 h2 h3 h4
  · simp only [hinval, false_iff]
    exact fun h => h.1.elim (fun h' => h' h1.1) h1.2
  · simp only [hbusy, false_iff]
    exact fun h => h.2.1 (hstarve.mp h2)
  · simp only [hinval, false_iff]
    exact fun h => h.2.2.1 h3
  · simp only [hinval, false_iff]
    exact fun h => h.2.2.2 h4
  · simp only [true_iff]
    refine ⟨?_, fun h => h2 (hstarve.mpr h), h3, h4⟩
    by_contra hnot
    rw [not_or, not_not] at hnot
    exact h1 hnot

/-! ## The check of all groups -/

/-- The walk grants a request when it finds nothing wrong with any group. -/
theorem GroupsOk.rtSchedulable_eq_zero_iff (h : s.GroupsOk) (d : RtSchedulableData) :
    s.rtSchedulable d = 0 ↔ ∀ g ∈ s.taskGroups, s.tgRtSchedulable d g = 0 := by
  set f : Walk.Visitors RtGroup Unit :=
    { down := fun tg _ => (s.tgRtSchedulable d tg, ()), up := fun _ _ => (0, ()) } with hf
  have hdepth : Walk.DepthLt s.groupTree s.taskGroups.length [] :=
    h.depthLt h.root (Nat.le_add_left _ _)
  have hwalk := h.walkTgTreeFrom_eq h.root f ()
  have hret : s.rtSchedulable d =
      (f.runCalls (Walk.calls s.groupTree s.taskGroups.length []) ()).1 := by
    rw [rtSchedulable, ← hf, hwalk]
  rw [hret, Walk.runCalls_eq_zero_iff (f := f) (fun _ _ => rfl) (fun _ _ => rfl)]
  refine forall_congr' fun g => imp_congr_left ?_
  rw [h.mem_nodes_iff h.root hdepth]
  simp

/-- The request to give the group `g` this bandwidth. -/
abbrev requestFor (g : RtGroup) (period runtime : UInt64) : RtSchedulableData :=
  { tg := some g, rtPeriod := period, rtRuntime := runtime }

@[simp] theorem requested_self : s.requested (requestFor g period runtime) g = (period, runtime) :=
  if_pos rfl

@[simp] theorem requested_of_ne (h : q ≠ g) : s.requested (requestFor g period runtime) q =
    ((s.rtBandwidth q).rtPeriod, (s.rtBandwidth q).rtRuntime) := by
  simp [requested, h.symm]

theorem requestedShare_self : s.requestedShare (requestFor g period runtime) g =
    (toRatio period runtime).toNat := by
  simp [requestedShare]

theorem requestedShare_of_ne (h : q ≠ g) :
    s.requestedShare (requestFor g period runtime) q = s.share q := by
  simp [requestedShare, share, h]

/-- A request changes the sum for the parent of its group by the difference of the shares. -/
theorem GroupsOk.requestedShares_parent (h : s.GroupsOk) {tg : TaskGroupPtr} {parent : RtGroup}
    (hg : tg :: parent ∈ s.taskGroups) (period runtime : UInt64) :
    ((s.children parent).map fun c =>
        s.requestedShare (requestFor (tg :: parent) period runtime) (c :: parent)).sum +
      s.share (tg :: parent) = s.childShares parent + (toRatio period runtime).toNat := by
  have hmem : tg ∈ s.children parent := (h.children tg parent).mpr hg
  have hnew := List.sum_map_erase
    (fun c => s.requestedShare (requestFor (tg :: parent) period runtime) (c :: parent)) hmem
  have hold := List.sum_map_erase (fun c => s.share (c :: parent)) hmem
  have hrest : ((s.children parent).erase tg).map (fun c =>
      s.requestedShare (requestFor (tg :: parent) period runtime) (c :: parent)) =
      ((s.children parent).erase tg).map fun c => s.share (c :: parent) := by
    refine List.map_congr_left fun c hc => requestedShare_of_ne fun heq => ?_
    have hct : c = tg := (List.cons_eq_cons.mp heq).1
    exact (h.childrenNodup parent).not_mem_erase (hct ▸ hc)
  rw [hrest, requestedShare_self] at hnew
  rw [childShares]
  omega

/-- It leaves the sums for the other groups alone. -/
theorem requestedShares_of_ne (h : ∀ tg, g ≠ tg :: q) :
    ((s.children q).map fun c => s.requestedShare (requestFor g period runtime) (c :: q)).sum =
      s.childShares q := by
  rw [childShares]
  congr 1
  exact List.map_congr_left fun c _ => requestedShare_of_ne (h c).symm

/-- No sum wraps around. -/
theorem Admitted.requestedShares_lt (h : s.Admitted) (hok : s.GroupsOk) (hg : g ∈ s.taskGroups)
    (hfit : runtime ≤ period ∨ runtime = runtimeInf) (hq : q ∈ s.taskGroups) :
    ((s.children q).map fun c => s.requestedShare (requestFor g period runtime) (c :: q)).sum <
      2 ^ 32 := by
  have hone := toNat_toRatio_le hfit
  have hsum := h.childShares_le q hq
  have hle := h.share_le_one hq
  by_cases hparent : ∃ tg, g = tg :: q
  · obtain ⟨tg, rfl⟩ := hparent
    have hchange := hok.requestedShares_parent hg period runtime
    omega
  · rw [requestedShares_of_ne fun tg heq => hparent ⟨tg, heq⟩]
    omega

/-- When the walk grants a request: the runtime fits into the period, the share fits into that of
the system and that of the parent beside the other children, and the children fit into it; and the
tasks of the root group do not starve. -/
theorem Admitted.rtSchedulable_eq_zero_iff (h : s.Admitted) (hok : s.GroupsOk)
    (hg : g ∈ s.taskGroups) :
    s.rtSchedulable (requestFor g period runtime) = 0 ↔
      (runtime ≤ period ∨ runtime = runtimeInf) ∧ ¬ s.Starves (requestFor g period runtime) ∧
      (toRatio period runtime).toNat ≤ s.globalShare ∧
      s.childShares g ≤ (toRatio period runtime).toNat ∧
      ∀ tg parent, g = tg :: parent →
        s.childShares parent + (toRatio period runtime).toNat ≤ s.share parent + s.share g := by
  rw [hok.rtSchedulable_eq_zero_iff]
  simp only [tgRtSchedulable_eq_zero_iff]
  have hself : ∀ tg, g ≠ tg :: g := fun tg heq => by
    have hlen := congrArg List.length heq
    simp at hlen
  constructor
  · -- the checks at the group itself and at its parent give the four conditions
    intro hall
    obtain ⟨hfit', -, hglobal, hsum⟩ := hall g hg
    have hfit : runtime ≤ period ∨ runtime = runtimeInf := by simpa using hfit'
    rw [Nat.mod_eq_of_lt (h.requestedShares_lt hok hg hfit hg), requestedShares_of_ne hself,
      requestedShare_self] at hsum
    rw [requestedShare_self] at hglobal
    refine ⟨hfit, fun hs => (hall [] hok.root).2.1 ⟨rfl, hs⟩, hglobal, hsum, ?_⟩
    rintro tg parent rfl
    have hparent := hok.parent tg parent hg
    have hne : parent ≠ tg :: parent := fun heq => by
      have hlen := congrArg List.length heq
      simp at hlen
    obtain ⟨-, -, -, hsum'⟩ := hall parent hparent
    rw [Nat.mod_eq_of_lt (h.requestedShares_lt hok hg hfit hparent),
      requestedShare_of_ne hne] at hsum'
    have hchange := hok.requestedShares_parent hg period runtime
    omega
  · -- at all other groups the request changes nothing
    rintro ⟨hfit, hstarves, hglobal, hsum, hup⟩ q hq
    rw [Nat.mod_eq_of_lt (h.requestedShares_lt hok hg hfit hq)]
    by_cases hqg : q = g
    · subst hqg
      rw [requestedShares_of_ne hself, requestedShare_self, requested_self]
      exact ⟨hfit, fun hs => hstarves hs.2, hglobal, hsum⟩
    · rw [requested_of_ne hqg, requestedShare_of_ne hqg]
      refine ⟨h.runtime_le q hq, fun hs => hstarves hs.2, h.share_le q hq, ?_⟩
      by_cases hparent : ∃ tg, g = tg :: q
      · obtain ⟨tg, rfl⟩ := hparent
        have hchange := hok.requestedShares_parent hg period runtime
        have hle := hup tg q rfl
        omega
      · rw [requestedShares_of_ne fun tg heq => hparent ⟨tg, heq⟩]
        exact h.childShares_le q hq

/-! ## Every step -/

/-- What the operations on tasks leave alone. -/
structure BandwidthFrame (s s' : RtState) : Prop where
  taskGroups : s'.taskGroups = s.taskGroups
  children : s'.children = s.children
  sysctlSchedRtPeriod : s'.sysctlSchedRtPeriod = s.sysctlSchedRtPeriod
  sysctlSchedRtRuntime : s'.sysctlSchedRtRuntime = s.sysctlSchedRtRuntime
  rtPeriod : ∀ q, (s'.rtBandwidth q).rtPeriod = (s.rtBandwidth q).rtPeriod
  rtRuntime : ∀ q, (s'.rtBandwidth q).rtRuntime = (s.rtBandwidth q).rtRuntime

namespace BandwidthFrame

theorem trans {s'' : RtState} (h : BandwidthFrame s s') (h' : BandwidthFrame s' s'') :
    BandwidthFrame s s'' where
  taskGroups := h'.taskGroups.trans h.taskGroups
  children := h'.children.trans h.children
  sysctlSchedRtPeriod := h'.sysctlSchedRtPeriod.trans h.sysctlSchedRtPeriod
  sysctlSchedRtRuntime := h'.sysctlSchedRtRuntime.trans h.sysctlSchedRtRuntime
  rtPeriod q := (h'.rtPeriod q).trans (h.rtPeriod q)
  rtRuntime q := (h'.rtRuntime q).trans (h.rtRuntime q)

theorem of_queue (h : QueueFrame s s') : BandwidthFrame s s' :=
  ⟨h.taskGroups, h.children, h.sysctlSchedRtPeriod, h.sysctlSchedRtRuntime, h.rtPeriod,
    h.bandwidthRuntime⟩

theorem of_time (h : TimeFrame g s s') : BandwidthFrame s s' :=
  ⟨h.taskGroups, h.children, h.sysctlSchedRtPeriod, h.sysctlSchedRtRuntime, h.rtPeriod,
    h.bandwidthRuntime⟩

theorem share (h : BandwidthFrame s s') : s'.share = s.share := by
  funext q
  rw [RtState.share, h.rtPeriod, h.rtRuntime]
  rfl

theorem globalShare (h : BandwidthFrame s s') : s'.globalShare = s.globalShare := by
  simp only [RtState.globalShare, globalRtPeriod, globalRtRuntime, h.sysctlSchedRtPeriod,
    h.sysctlSchedRtRuntime]

theorem childShares (h : BandwidthFrame s s') : s'.childShares = s.childShares := by
  funext q
  rw [RtState.childShares, RtState.childShares, h.children, h.share]

end BandwidthFrame

theorem Admitted.frame (h : s.Admitted) (hf : BandwidthFrame s s') : s'.Admitted where
  runtime_le q hq := by
    rw [hf.rtRuntime, hf.rtPeriod]
    exact h.runtime_le q (hf.taskGroups ▸ hq)
  share_le q hq := by
    rw [hf.share, hf.globalShare]
    exact h.share_le q (hf.taskGroups ▸ hq)
  childShares_le q hq := by
    rw [hf.childShares, hf.share]
    exact h.childShares_le q (hf.taskGroups ▸ hq)

theorem RtInv.bandwidthFrame_updateCurrRt (h : s.RtInv) : BandwidthFrame s s.updateCurrRt := by
  obtain ⟨-, hframe, -, -⟩ := updateCurrRt_spec h.consistent
  exact .of_time hframe

/-- A granted request leaves all groups admitted. -/
theorem Admitted.tgSetRtBandwidth (h : s.Admitted) (hok : s.GroupsOk) (hg : g ∈ s.taskGroups)
    (period runtime : UInt64) : (s.tgSetRtBandwidth g period runtime).2.Admitted := by
  unfold RtState.tgSetRtBandwidth
  simp only
  split_ifs with herr
  · exact h
  · -- the walk has checked exactly what is to hold afterwards
    have hgrant := not_not.mp herr
    have hiff := (h.rtSchedulable_eq_zero_iff hok hg).mp hgrant
    have hall := (hok.rtSchedulable_eq_zero_iff _).mp hgrant
    simp only [tgRtSchedulable_eq_zero_iff] at hall
    have hrequested : ∀ q, s.requested (requestFor g period runtime) q =
        ((Function.update s.rtBandwidth g
            { s.rtBandwidth g with rtPeriod := period, rtRuntime := runtime } q).rtPeriod,
          (Function.update s.rtBandwidth g
            { s.rtBandwidth g with rtPeriod := period, rtRuntime := runtime } q).rtRuntime) := by
      intro q
      by_cases hqg : q = g
      · subst hqg
        simp
      · simp [hqg]
    refine ⟨fun q hq => ?_, fun q hq => ?_, fun q hq => ?_⟩
    · obtain ⟨hfit, -⟩ := hall q hq
      rw [hrequested] at hfit
      exact hfit
    · obtain ⟨-, -, hle, -⟩ := hall q hq
      rw [requestedShare, hrequested] at hle
      exact hle
    · obtain ⟨-, -, -, hsum⟩ := hall q hq
      rw [Nat.mod_eq_of_lt (h.requestedShares_lt hok hg hiff.1 hq)] at hsum
      simp only [requestedShare, hrequested] at hsum
      exact hsum

/-- A new group has no share. -/
theorem Admitted.schedCreateGroup (h : s.Admitted) (hok : s.GroupsOk) {parent : RtGroup}
    {tg : TaskGroupPtr} (hnew : tg :: parent ∉ s.taskGroups) :
    (s.schedCreateGroup parent tg).Admitted := by
  set s' := s.schedCreateGroup parent tg with hs'
  have hglobal : s'.globalShare = s.globalShare := rfl
  -- the bandwidth of the other groups stays
  have hold : ∀ q, q ≠ tg :: parent → s'.rtBandwidth q = s.rtBandwidth q := by
    intro q hq
    simp [hs', RtState.schedCreateGroup, hq]
  have hshare : ∀ q, q ≠ tg :: parent → s'.share q = s.share q := by
    intro q hq
    rw [share, hold q hq, share]
  -- the new group has no runtime, and so no share of its parent
  have hself : (s'.rtBandwidth (tg :: parent)).rtRuntime = 0 := by
    simp [hs', RtState.schedCreateGroup]
  have hzero : s'.share (tg :: parent) = 0 := by
    rw [share, hself]
    simp [toRatio, runtimeInf]
  have hchild : ∀ q, ∀ c ∈ s.children q, c :: q ≠ tg :: parent := fun q c hc heq =>
    hnew (heq ▸ (hok.children c q).mp hc)
  -- the sum of the parent has one more term, which is zero
  have hsum : ∀ q, q ≠ tg :: parent → s'.childShares q = s.childShares q := by
    intro q hq
    have hmap : (s.children q).map (fun c => s'.share (c :: q)) =
        (s.children q).map fun c => s.share (c :: q) :=
      List.map_congr_left fun c hc => hshare _ (hchild q c hc)
    rw [childShares, childShares]
    by_cases hqp : q = parent
    · subst hqp
      have hlist : s'.children q = tg :: s.children q := by simp [hs', RtState.schedCreateGroup]
      rw [hlist, List.map_cons, List.sum_cons, hzero, hmap, Nat.zero_add]
    · have hlist : s'.children q = s.children q := by
        simp [hs', RtState.schedCreateGroup, hqp, hq]
      rw [hlist, hmap]
  have hmem : ∀ q ∈ s'.taskGroups, q ≠ tg :: parent → q ∈ s.taskGroups :=
    fun q hq hne => (List.mem_cons.mp hq).resolve_left hne
  refine ⟨fun q hq => ?_, fun q hq => ?_, fun q hq => ?_⟩
  · by_cases hne : q = tg :: parent
    · subst hne
      rw [hself]
      exact .inl UInt64.zero_le
    · rw [hold q hne]
      exact h.runtime_le q (hmem q hq hne)
  · by_cases hne : q = tg :: parent
    · rw [hne, hzero]
      exact Nat.zero_le _
    · rw [hshare q hne, hglobal]
      exact h.share_le q (hmem q hq hne)
  · by_cases hne : q = tg :: parent
    · subst hne
      have hlist : s'.children (tg :: parent) = [] := by
        have hne : tg :: parent ≠ parent := fun heq => by
          have hlen := congrArg List.length heq
          simp at hlen
        simp [hs', RtState.schedCreateGroup, hne]
      simp [childShares, hlist]
    · rw [hsum q hne, hshare q hne]
      exact h.childShares_le q (hmem q hq hne)

/-- A group that is gone leaves its share to the others. -/
theorem Admitted.schedDestroyGroup (h : s.Admitted) (hok : s.GroupsOk) {parent : RtGroup} {tg : TaskGroupPtr} :
    (s.schedDestroyGroup tg parent).Admitted := by
  have hmem : ∀ q ∈ (s.schedDestroyGroup tg parent).taskGroups, q ∈ s.taskGroups :=
    fun q hq => ((mem_listDelInit_iff hok.nodup).mp hq).2
  have hperiod : ∀ q, ((s.schedDestroyGroup tg parent).rtBandwidth q).rtPeriod =
      (s.rtBandwidth q).rtPeriod := by
    intro q
    by_cases hq : q = tg :: parent <;> simp [RtState.schedDestroyGroup, hq]
  have hruntime : ∀ q, ((s.schedDestroyGroup tg parent).rtBandwidth q).rtRuntime =
      (s.rtBandwidth q).rtRuntime := by
    intro q
    by_cases hq : q = tg :: parent <;> simp [RtState.schedDestroyGroup, hq]
  have hshare : (s.schedDestroyGroup tg parent).share = s.share := by
    funext q
    rw [share, hperiod, hruntime, share]
  refine ⟨fun q hq => ?_, fun q hq => ?_, fun q hq => ?_⟩
  · rw [hperiod, hruntime]
    exact h.runtime_le q (hmem q hq)
  · rw [hshare]
    exact h.share_le q (hmem q hq)
  · rw [hshare]
    -- the parent has one child less
    refine le_trans ?_ (h.childShares_le q (hmem q hq))
    rw [childShares, childShares, hshare]
    by_cases hq : q = parent
    · subst hq
      have hlist : (s.schedDestroyGroup tg q).children q = (s.children q).erase tg := by
        simp [RtState.schedDestroyGroup, listDelInit]
      rw [hlist]
      exact (List.Sublist.map _ List.erase_sublist).sum_le_sum fun _ _ => Nat.zero_le _
    · have hlist : (s.schedDestroyGroup tg parent).children q = s.children q := by
        simp [RtState.schedDestroyGroup, hq]
      rw [hlist]

/-- A sysctl is stored only if the groups fit into the new bandwidth of the system. -/
theorem Admitted.schedRtHandler (h : s.Admitted) (hok : s.GroupsOk) (w : RtSysctl) :
    (s.schedRtHandler w).2.Admitted := by
  unfold RtState.schedRtHandler
  simp only
  split_ifs with hret
  · have hback : ({ s.storeSysctl w with
        sysctlSchedRtPeriod := s.sysctlSchedRtPeriod
        sysctlSchedRtRuntime := s.sysctlSchedRtRuntime } : RtState) = s := by
      cases w <;> rfl
    rw [hback]
    exact h
  · have hok' : (s.storeSysctl w).GroupsOk := by
      cases w <;> exact { hok with }
    have hgrant : (s.storeSysctl w).rtSchedulable { tg := none, rtPeriod := 0, rtRuntime := 0 } = 0 := by
      have hzero := not_not.mp hret
      have hinval : -einval ≠ 0 := by decide
      unfold schedRtGlobalConstraints at hzero
      split_ifs at hzero <;> first | exact hzero | exact absurd hzero hinval
    have hall := (hok'.rtSchedulable_eq_zero_iff _).mp hgrant
    have hadmitted : (s.storeSysctl w).Admitted := by
      refine ⟨?_, fun q hq => ?_, ?_⟩
      · cases w <;> exact h.runtime_le
      · obtain ⟨-, -, hle, -⟩ := (tgRtSchedulable_eq_zero_iff _).mp (hall q hq)
        simpa [requestedShare, requested, share] using hle
      · cases w <;> exact h.childShares_le
    exact ⟨hadmitted.runtime_le, hadmitted.share_le, hadmitted.childShares_le⟩

/-- Every step keeps the groups admitted. -/
theorem RtInv.admitted_next (h : s.RtInv) (ha : s.Admitted) (op : RtOp) (hen : s.Enabled op) :
    (s.next cfg op).Admitted := by
  cases op with
  | enqueueTaskRt p flags =>
    obtain ⟨-, hoff, -, h0, hN⟩ := hen
    obtain ⟨-, hframe, -⟩ :=
      h.consistent.enqueueTask hoff h0 hN (decide (flags &&& enqueueHead ≠ 0))
    have hf := BandwidthFrame.of_queue hframe
    exact ha.frame ⟨hf.1, hf.2, hf.3, hf.4, hf.5, hf.6⟩
  | dequeueTaskRt p =>
    obtain ⟨hcons, hupdate, -, -⟩ := updateCurrRt_spec h.consistent
    have hon : s.updateCurrRt.onRtRq (.task p) = true := by
      rw [hupdate.onRtRq_task h.consistent.queues hcons.queues]
      exact hen
    obtain ⟨-, hframe, -⟩ := hcons.dequeueTask hon
    have hf := h.bandwidthFrame_updateCurrRt.trans (.of_queue hframe)
    exact ha.frame ⟨hf.1, hf.2, hf.3, hf.4, hf.5, hf.6⟩
  | yieldTaskRt =>
    obtain ⟨-, hframe, -⟩ := requeueTaskRt_spec h.consistent s.core.curr false
    exact ha.frame (.of_queue hframe)
  | pickNextTaskRt =>
    obtain ⟨hpick, -⟩ | ⟨p, hpick, -⟩ := h.consistent.pickNextTaskRt_spec h.groups
    · simpa only [RtState.next, hpick] using ha
    · simp only [RtState.next, hpick]
      exact ha.frame ⟨rfl, rfl, rfl, rfl, fun _ => rfl, fun _ => rfl⟩
  | putPrevTaskRt => exact ha.frame h.bandwidthFrame_updateCurrRt
  | setCurrTaskRt => exact ha.frame ⟨rfl, rfl, rfl, rfl, fun _ => rfl, fun _ => rfl⟩
  | taskTickRt =>
    -- neither charges nor requeues touch a bandwidth
    have hupdate := h.bandwidthFrame_updateCurrRt
    obtain ⟨slice, htick | htick⟩ := taskTickRt_eq cfg s s.core.curr
    · simp only [RtState.next, htick]
      exact ha.frame ⟨hupdate.1, hupdate.2, hupdate.3, hupdate.4, hupdate.5, hupdate.6⟩
    · have hinv := h.updateCurrRt.timeSlice slice
      obtain ⟨-, hframe, -⟩ := requeueTaskRt_spec hinv.consistent s.core.curr false
      have hslice : BandwidthFrame s { s.updateCurrRt with timeSlice := slice } :=
        ⟨hupdate.1, hupdate.2, hupdate.3, hupdate.4, hupdate.5, hupdate.6⟩
      have hf := hslice.trans (.of_queue hframe)
      simp only [RtState.next, htick]
      exact ha.frame ⟨hf.1, hf.2, hf.3, hf.4, hf.5, hf.6⟩
  | schedRtPeriodTimer g overruns =>
    obtain ⟨-, hframe, -, -⟩ := schedRtPeriodTimer_spec (g := g) h.consistent overruns
    exact ha.frame (.of_time hframe)
  | setTaskRq p g => exact ha.frame ⟨rfl, rfl, rfl, rfl, fun _ => rfl, fun _ => rfl⟩
  | schedCreateGroup parent tg => exact ha.schedCreateGroup h.groups hen.2
  | schedDestroyGroup tg parent => exact ha.schedDestroyGroup h.groups
  | schedGroupSetRtRuntime g usec => exact ha.tgSetRtBandwidth h.groups hen _ _
  | schedGroupSetRtPeriod g usec =>
    simp only [RtState.next, RtState.schedGroupSetRtPeriod]
    split_ifs
    · exact ha
    · exact ha.tgSetRtBandwidth h.groups hen _ _
  | schedRtHandler w => exact ha.schedRtHandler h.groups w
  | other core => exact ha.frame ⟨rfl, rfl, rfl, rfl, fun _ => rfl, fun _ => rfl⟩

end RtState

/-! ## The main results -/

open RtState

variable {cfg : Config} {s : RtState} {g : RtGroup}

/-- In every reachable state no group has more runtime than its period, unless it has no limit, or a
larger share than the system, and the children of a group together have no larger share than the
group. -/
theorem rtSystem_admitted (h : (rtSystem cfg).Reachable s) : s.Admitted := by
  refine h.invariant_with (J := RtInv) (fun _ hs => rtSystem_inv hs) (fun s hs => ?_)
    fun s op hinv ha hen => hinv.admitted_next ha op hen
  obtain ⟨core, timeSlice, -, rfl⟩ := hs
  have hfit : 950000 * nsecPerUsec ≤ 1000000 * nsecPerUsec := by decide
  refine ⟨fun _ _ => .inl hfit, fun _ _ => ?_, fun _ _ => Nat.zero_le _⟩
  change (toRatio (1000000 * nsecPerUsec) (950000 * nsecPerUsec)).toNat ≤
    (toRatio ((1000000 : UInt32).toUInt64 * nsecPerUsec)
      (if (950000 : ℤ) < 0 then runtimeInf else UInt64.ofInt 950000 * nsecPerUsec)).toNat
  decide

/-- In every reachable state, the walk over all groups grants a request exactly when the runtime
fits into the period or is no limit, the share fits into that of the system, the children of the
group fit into the share, and the share fits into that of the parent beside the other children; and
when the root group is not left without runtime while there are RT tasks. -/
theorem rtSystem_grants (h : (rtSystem cfg).Reachable s) (hg : g ∈ s.taskGroups)
    (period runtime : UInt64) :
    (s.tgSetRtBandwidth g period runtime).1 = 0 ↔
      (runtime ≤ period ∨ runtime = runtimeInf) ∧ ¬ s.Starves (requestFor g period runtime) ∧
      (toRatio period runtime).toNat ≤ s.globalShare ∧
      s.childShares g ≤ (toRatio period runtime).toNat ∧
      ∀ tg parent, g = tg :: parent →
        s.childShares parent + (toRatio period runtime).toNat ≤ s.share parent + s.share g := by
  rw [← (rtSystem_admitted h).rtSchedulable_eq_zero_iff (rtSystem_inv h).groups hg,
    tgSetRtBandwidth]
  simp only
  split_ifs with herr
  · exact Iff.rfl
  · exact iff_of_true rfl (not_not.mp herr)

/-- The first group gets 300 ms of each second. -/
theorem rtSystem_grants_grouped :
    (SmallRt.grouped.tgSetRtBandwidth [1] (1000000 * nsecPerUsec) (300000 * nsecPerUsec)).1 = 0 := by
  refine (rtSystem_grants SmallRt.reachable_grouped (by decide) _ _).mpr
    ⟨.inl (by decide), fun hs => ?_, by decide +kernel, by decide +kernel, ?_⟩
  · exact absurd hs.2.1 (by decide)
  · intro tg parent heq
    obtain ⟨-, rfl⟩ := List.cons_eq_cons.mp heq
    decide +kernel

/-- Groups at or below a group, of which none is in another one, have no larger share together than
the group. -/
theorem rtSystem_antichain (h : (rtSystem cfg).Reachable s) {A : Finset RtGroup}
    (hA : ∀ a ∈ A, a ∈ s.taskGroups ∧ g <:+ a) (hanti : ∀ a ∈ A, ∀ b ∈ A, a <:+ b → a = b)
    (hg : g ∈ s.taskGroups) : ∑ a ∈ A, s.share a ≤ s.share g := by
  have hgroups := (rtSystem_inv h).groups
  have hadmitted := rtSystem_admitted h
  obtain ⟨n, hn⟩ : ∃ n, s.taskGroups.length ≤ g.length + n := ⟨_, Nat.le_add_left _ _⟩
  -- by induction on the levels that are left below `g`
  induction n generalizing g A with
  | zero =>
    have hlt := hgroups.length_lt hg
    omega
  | succ n ih =>
    by_cases hmem : g ∈ A
    · have hsingle : A = {g} :=
        Finset.eq_singleton_iff_unique_mem.mpr
          ⟨hmem, fun a ha => (hanti g hmem a ha (hA a ha).2).symm⟩
      rw [hsingle, Finset.sum_singleton]
    · -- each group of `A` is below one of the children
      have hcover : A ⊆ (s.children g).toFinset.biUnion fun c =>
          A.filter fun a => c :: g <:+ a := by
        intro a ha
        obtain ⟨hex, r, rfl⟩ := hA a ha
        obtain rfl | ⟨r, c, rfl⟩ := r.eq_nil_or_concat
        · exact absurd ha hmem
        · have hsuf : c :: g <:+ r.concat c ++ g := ⟨r, by simp⟩
          refine Finset.mem_biUnion.mpr ⟨c, ?_, Finset.mem_filter.mpr ⟨ha, hsuf⟩⟩
          exact List.mem_toFinset.mpr ((hgroups.children c g).mpr (hgroups.suffix hex hsuf))
      calc ∑ a ∈ A, s.share a
          ≤ ∑ a ∈ (s.children g).toFinset.biUnion fun c => A.filter fun a => c :: g <:+ a,
              s.share a := Finset.sum_le_sum_of_subset hcover
        _ = ∑ c ∈ (s.children g).toFinset, ∑ a ∈ A.filter fun a => c :: g <:+ a, s.share a := by
            refine Finset.sum_biUnion fun c _ c' _ hne => Finset.disjoint_left.mpr fun a ha ha' => hne ?_
            have hsuf := List.suffix_of_suffix_length_le (Finset.mem_filter.mp ha).2
              (Finset.mem_filter.mp ha').2 (by simp)
            exact (List.cons_eq_cons.mp (hsuf.eq_of_length (by simp))).1
        _ ≤ ∑ c ∈ (s.children g).toFinset, s.share (c :: g) := by
            refine Finset.sum_le_sum fun c hc => ?_
            have hex := (hgroups.children c g).mp (List.mem_toFinset.mp hc)
            refine ih (fun a ha => ?_) (fun a ha b hb => ?_) hex (by simp only [List.length_cons]; omega)
            · obtain ⟨ha, hsuf⟩ := Finset.mem_filter.mp ha
              exact ⟨(hA a ha).1, hsuf⟩
            · exact hanti a (Finset.mem_filter.mp ha).1 b (Finset.mem_filter.mp hb).1
        _ = s.childShares g := List.sum_toFinset _ (hgroups.childrenNodup g)
        _ ≤ s.share g := hadmitted.childShares_le g hg

/-- The three groups below the root get 300, 200 and 100 ms of each second, the last of them out of
the time of the first. -/
def SmallRt.shared : RtState :=
  ((grouped.next Small.cfg (.schedGroupSetRtRuntime [1] 300000)).next Small.cfg
    (.schedGroupSetRtRuntime [2] 200000)).next Small.cfg (.schedGroupSetRtRuntime [3, 1] 100000)

theorem SmallRt.reachable_shared : (rtSystem Small.cfg).Reachable shared := by
  have h1 : grouped.Enabled (.schedGroupSetRtRuntime [1] 300000) := by
    show [1] ∈ grouped.taskGroups
    decide
  have h2 : (grouped.next Small.cfg (.schedGroupSetRtRuntime [1] 300000)).Enabled
      (.schedGroupSetRtRuntime [2] 200000) := by
    show [2] ∈ (grouped.next Small.cfg (.schedGroupSetRtRuntime [1] 300000)).taskGroups
    decide +kernel
  have h3 : ((grouped.next Small.cfg (.schedGroupSetRtRuntime [1] 300000)).next Small.cfg
      (.schedGroupSetRtRuntime [2] 200000)).Enabled (.schedGroupSetRtRuntime [3, 1] 100000) := by
    show [3, 1] ∈ ((grouped.next Small.cfg (.schedGroupSetRtRuntime [1] 300000)).next Small.cfg
      (.schedGroupSetRtRuntime [2] 200000)).taskGroups
    decide +kernel
  exact reachable_next (reachable_next (reachable_next reachable_grouped _ h1) _ h2) _ h3

theorem rtSystem_admitted_shared :
    SmallRt.shared.Admitted ∧ 0 < SmallRt.shared.childShares [1] ∧
      SmallRt.shared.childShares [1] ≤ SmallRt.shared.share [1] := by
  have hadmitted := rtSystem_admitted SmallRt.reachable_shared
  exact ⟨hadmitted, by decide +kernel, hadmitted.childShares_le [1] (by decide +kernel)⟩

theorem rtSystem_antichain_shared :
    0 < SmallRt.shared.share [2] ∧ 0 < SmallRt.shared.share [3, 1] ∧
      ∑ a ∈ ({[2], [3, 1]} : Finset RtGroup), SmallRt.shared.share a ≤ SmallRt.shared.share [] :=
  ⟨by decide +kernel, by decide +kernel,
    rtSystem_antichain SmallRt.reachable_shared (by decide +kernel) (by decide) (by decide +kernel)⟩

/-! ### Reading back -/

/-- A small `u64` is the same as a `long`. -/
theorem longOfU64_eq {x : UInt64} (h : x.toNat < 2 ^ 31) : longOfU64 x = x.toNat := by
  have hbits : x.toUInt32.toInt32.toBitVec.toNat = x.toNat := by
    change x.toUInt32.toNat = x.toNat
    rw [UInt64.toNat_toUInt32]
    omega
  have hint : longOfU64 x = x.toUInt32.toInt32.toBitVec.toInt := rfl
  rw [hint, BitVec.toInt_eq_toNat_of_lt (by omega), hbits]

/-- The nanoseconds of a time that is not negative. -/
theorem toNat_nsec {usec : Int32} (h0 : 0 ≤ usec) :
    (UInt64.ofInt usec.toInt * nsecPerUsec).toNat = usec.toInt.toNat * 1000 ∧
      usec.toInt.toNat < 2 ^ 31 := by
  have h0' : 0 ≤ usec.toInt := Int32.le_iff_toInt_le.mp h0
  have hlt := usec.toInt_lt
  have husec : (UInt64.ofInt usec.toInt).toNat = usec.toInt.toNat := by
    rw [UInt64.ofInt, UInt64.toNat_ofNat']
    omega
  have hthousand : nsecPerUsec.toNat = 1000 := rfl
  rw [UInt64.toNat_mul, husec, hthousand]
  omega

/-- A time in microseconds survives the conversion to nanoseconds and back. -/
theorem longOfU64_usec {usec : Int32} (h0 : 0 ≤ usec) :
    longOfU64 (UInt64.ofInt usec.toInt * nsecPerUsec / nsecPerUsec) = usec.toInt := by
  have h0' : 0 ≤ usec.toInt := Int32.le_iff_toInt_le.mp h0
  obtain ⟨hnsec, hlt⟩ := toNat_nsec h0
  have hthousand : nsecPerUsec.toNat = 1000 := rfl
  have hdiv : (UInt64.ofInt usec.toInt * nsecPerUsec / nsecPerUsec).toNat = usec.toInt.toNat := by
    rw [UInt64.toNat_div, hnsec, hthousand]
    omega
  rw [longOfU64_eq (by omega), hdiv, Int.toNat_of_nonneg h0']

/-- What a granted request stores. -/
theorem RtState.tgSetRtBandwidth_granted {period runtime : UInt64}
    (h : (s.tgSetRtBandwidth g period runtime).1 = 0) :
    ((s.tgSetRtBandwidth g period runtime).2.rtBandwidth g).rtPeriod = period ∧
      ((s.tgSetRtBandwidth g period runtime).2.rtBandwidth g).rtRuntime = runtime := by
  unfold tgSetRtBandwidth at h ⊢
  simp only at h ⊢
  split_ifs at h ⊢ with herr
  · exact absurd h herr
  · simp [modifyRtRq]

theorem RtState.tgSetRtBandwidth_refused {period runtime : UInt64}
    (h : (s.tgSetRtBandwidth g period runtime).1 ≠ 0) :
    (s.tgSetRtBandwidth g period runtime).2 = s := by
  unfold tgSetRtBandwidth at h ⊢
  simp only at h ⊢
  split_ifs at h ⊢ with herr
  · rfl
  · exact absurd rfl h

/-- What `sched_group_set_rt_runtime` and `sched_group_set_rt_period` set is read back: a runtime,
where every negative one means no limit, and a positive period. A request that is refused changes
nothing. -/
theorem schedGroupSetRt_readBack (s : RtState) (g : RtGroup) (usec : Int32) :
    ((s.schedGroupSetRtRuntime g usec).1 ≠ 0 → (s.schedGroupSetRtRuntime g usec).2 = s) ∧
    ((s.schedGroupSetRtPeriod g usec).1 ≠ 0 → (s.schedGroupSetRtPeriod g usec).2 = s) ∧
    ((s.schedGroupSetRtRuntime g usec).1 = 0 →
      (s.schedGroupSetRtRuntime g usec).2.schedGroupRtRuntime g =
        if usec < 0 then -1 else usec.toInt) ∧
    (0 < usec → (s.schedGroupSetRtPeriod g usec).1 = 0 →
      (s.schedGroupSetRtPeriod g usec).2.schedGroupRtPeriod g = usec.toInt) := by
  refine ⟨fun hret => tgSetRtBandwidth_refused hret, fun hret => ?_, fun hret => ?_,
    fun hpos hret => ?_⟩
  · unfold schedGroupSetRtPeriod at hret ⊢
    simp only at hret ⊢
    split_ifs at hret ⊢
    · rfl
    · exact tgSetRtBandwidth_refused hret
  · unfold schedGroupSetRtRuntime at hret ⊢
    rw [schedGroupRtRuntime, (tgSetRtBandwidth_granted hret).2]
    by_cases hneg : usec < 0
    · simp [hneg]
    · have h0 := Int32.not_lt.mp hneg
      -- no number of microseconds becomes RUNTIME_INF
      have hfinite : UInt64.ofInt usec.toInt * nsecPerUsec ≠ runtimeInf := by
        intro heq
        obtain ⟨hnsec, hlt⟩ := toNat_nsec h0
        have hinf : runtimeInf.toNat = 2 ^ 64 - 1 := rfl
        rw [heq, hinf] at hnsec
        omega
      simp only [hneg, if_false, hfinite]
      exact longOfU64_usec h0
  · have h0 : 0 ≤ usec := Int32.le_of_lt hpos
    have hnsec := (toNat_nsec h0).1
    have hpos' : 0 < usec.toInt := Int32.lt_iff_toInt_lt.mp hpos
    -- a positive period does not become zero
    have hne : UInt64.ofInt usec.toInt * nsecPerUsec ≠ 0 := by
      intro heq
      rw [heq, UInt64.toNat_zero] at hnsec
      omega
    unfold schedGroupSetRtPeriod at hret ⊢
    simp only [hne, if_false] at hret ⊢
    rw [schedGroupRtPeriod, (tgSetRtBandwidth_granted hret).1]
    exact longOfU64_usec h0

end WrrSched
