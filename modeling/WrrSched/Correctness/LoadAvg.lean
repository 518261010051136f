import Mathlib.Algebra.BigOperators.Fin
import Mathlib.Tactic.Abel
import Mathlib.Tactic.FinCases
import WrrSched.Lib.FixedPoint
import WrrSched.Model.LoadAvg

/-!
# The load average

"We can simply take per-cpu deltas and fold those into a global accumulate to obtain the same
result": whatever the order of the steps, `calc_load_tasks`, the counters of `calc_load_idle` and
the deltas that are on the way add up to the active tasks of the CPUs. The averages are ideal moving
averages up to rounding, also when ticks were missed and the updates are caught up in bulk.

- `loadSystem_conserved`: no delta is lost or counted twice;
- `loadSystem_exact`: when the deltas of the last tick-less CPU have reached `calc_load_tasks`;
- `loadSystem_window`: after `calc_global_load` the next update is in the future;
- `loadSystem_avenrun_le`: the averages do not exceed the number of active tasks;
- `loadSystem_average`: the averages after any number of periods;
- `calcLoadN_error`: an update in bulk against as many single ones.
-/

namespace WrrSched

open Finset FixedPoint

/-! ## Deltas -/

/-- A delta on the way to one of the counters. -/
def FoldStep.delta : FoldStep → Long
  | .none => 0
  | .accountActive delta => delta
  | .enterIdle delta => delta
  | .readJiffies delta _ => delta
  | .readUpdate delta _ _ => delta
  | .addIdle delta _ => delta

/-- A delta on the way from a counter of `calc_load_idle` to `calc_load_tasks`. -/
def GlobalStep.delta : GlobalStep → Long
  | .folded delta => delta
  | _ => 0

namespace LoadRq

/-- What the CPU has added to the counters. -/
def added (rq : LoadRq) : Long := rq.calcLoadActive - rq.step.delta

/-- The delta is how much `calc_load_active` moves. -/
theorem calcLoadFoldActive_added (rq : LoadRq) :
    rq.calcLoadFoldActive.2.calcLoadActive - rq.calcLoadFoldActive.1 = rq.calcLoadActive := by
  unfold calcLoadFoldActive
  split_ifs
  · exact sub_sub_cancel _ _
  · exact sub_zero _

end LoadRq

namespace LoadState

variable {Cpu : Type*} [DecidableEq Cpu] [Fintype Cpu] {cfg : LoadConfig} {s : LoadState Cpu}

/-- No delta is lost or counted twice. -/
def Conserved (s : LoadState Cpu) : Prop :=
  ∑ c, (s.rq c).added = s.calcLoadTasks + ∑ i, s.calcLoadIdle i + s.global.delta

/-- A sum in which one term changes. -/
theorem sum_update {ι : Type*} [DecidableEq ι] [Fintype ι] {β : Type*} (g : β → Long) (f : ι → β)
    (i : ι) (b : β) : ∑ j, g (Function.update f i b j) = ∑ j, g (f j) + (g b - g (f i)) := by
  have hrest : ∑ j ∈ univ.erase i, g (Function.update f i b j) = ∑ j ∈ univ.erase i, g (f j) := by
    refine sum_congr rfl fun j hj => ?_
    rw [Function.update_of_ne (ne_of_mem_erase hj)]
  rw [← add_sum_erase univ _ (mem_univ i), ← add_sum_erase univ (fun j => g (f j)) (mem_univ i),
    hrest, Function.update_self]
  abel

/-- A step of one CPU moves as much into the counters as its `added` grows. -/
theorem Conserved.setRq {t : LoadState Cpu} (h : s.Conserved) (c : Cpu) (rq : LoadRq)
    (hrq : t.rq = s.rq) (hglobal : t.global = s.global)
    (hadded : t.calcLoadTasks + ∑ i, t.calcLoadIdle i + (s.rq c).added =
      s.calcLoadTasks + ∑ i, s.calcLoadIdle i + rq.added) : (t.setRq c rq).Conserved := by
  have hsum : ∑ d, ((t.setRq c rq).rq d).added =
      ∑ d, (s.rq d).added + (rq.added - (s.rq c).added) := by
    rw [← hrq]
    exact sum_update LoadRq.added t.rq c rq
  unfold Conserved at h ⊢
  rw [hsum, h]
  change _ = t.calcLoadTasks + ∑ i, t.calcLoadIdle i + t.global.delta
  rw [hglobal]
  grind

/-- A function of one CPU that leaves the counters alone. -/
theorem Conserved.setRq_same (h : s.Conserved) (c : Cpu) {rq : LoadRq}
    (hrq : rq.added = (s.rq c).added) : (s.setRq c rq).Conserved :=
  h.setRq c rq rfl rfl (by rw [hrq])

/-- A CPU that goes on with its fold loses nothing. -/
theorem Conserved.foldStep (h : s.Conserved) (c : Cpu) : (s.foldStep c).Conserved := by
  cases hstep : (s.rq c).step with
  | none =>
    simp only [LoadState.foldStep, hstep]
    exact h
  | accountActive delta =>
    simp only [LoadState.foldStep, hstep]
    refine h.setRq c _ rfl rfl ?_
    simp only [addTasks, LoadRq.added, hstep, FoldStep.delta]
    grind
  | enterIdle delta =>
    simp only [LoadState.foldStep, hstep]
    exact h.setRq_same c (by simp only [LoadRq.added, hstep, FoldStep.delta])
  | readJiffies delta idx =>
    simp only [LoadState.foldStep, hstep]
    exact h.setRq_same c (by simp only [LoadRq.added, hstep, FoldStep.delta])
  | readUpdate delta idx jiffies =>
    simp only [LoadState.foldStep, hstep]
    exact h.setRq_same c (by simp only [LoadRq.added, hstep, FoldStep.delta])
  | addIdle delta idx =>
    simp only [LoadState.foldStep, hstep]
    refine h.setRq c _ rfl rfl ?_
    have hsum := sum_update id s.calcLoadIdle (Fin.ofNat 2 idx)
      (s.calcLoadIdle (Fin.ofNat 2 idx) + delta)
    simp only [id_eq] at hsum
    simp only [setIdle, LoadRq.added, hstep, FoldStep.delta, hsum]
    grind

omit [DecidableEq Cpu] in
/-- The CPU that counts the ticks only moves deltas from one counter to the other. -/
theorem Conserved.globalStep (h : s.Conserved) : (s.globalStep cfg).Conserved := by
  unfold LoadState.globalStep
  unfold Conserved at h ⊢
  split
  · exact h
  · rename_i hstep
    rw [hstep] at h
    split_ifs
    · exact h
    · -- what `calc_load_fold_idle` takes from a counter is on its way
      have hsum := sum_update id s.calcLoadIdle (Fin.ofNat 2 s.calcLoadIdx) 0
      simp only [id_eq] at hsum
      simp only [calcLoadFoldIdle, setIdle, GlobalStep.delta, hsum]
      rw [h]
      simp only [GlobalStep.delta]
      grind
  · rename_i delta hstep
    rw [hstep] at h
    simp only [addTasks, GlobalStep.delta] at h ⊢
    rw [h]
    grind
  · rename_i hstep
    rw [hstep] at h
    exact h
  · rename_i hstep
    rw [hstep] at h
    split_ifs
    · exact h
    · exact h
  · rename_i hstep
    rw [hstep] at h
    exact h

/-- No step loses anything or counts it twice. -/
theorem Conserved.next (h : s.Conserved) (op : LoadOp Cpu) (hen : s.Enabled op) :
    (s.next cfg op).Conserved := by
  cases op with
  | other c nrRunning nrUninterruptible => exact h.setRq_same c rfl
  | calcLoadAccountActive c =>
    -- what the fold returns is on its way to `calc_load_tasks`
    have hnone : (s.rq c).step = .none := hen
    have hadded := (s.rq c).calcLoadFoldActive_added
    simp only [LoadState.next, LoadState.calcLoadAccountActive]
    split_ifs with htime hdelta
    · exact h
    · refine h.setRq_same c ?_
      simp only [LoadRq.added, hnone, FoldStep.delta, hadded, sub_zero]
    · refine h.setRq_same c ?_
      rw [not_not.mp hdelta, sub_zero] at hadded
      simp only [LoadRq.added, hnone, FoldStep.delta, hadded]
  | calcLoadEnterIdle c =>
    -- here it is on its way to `calc_load_idle`
    have hnone : (s.rq c).step = .none := hen
    have hadded := (s.rq c).calcLoadFoldActive_added
    simp only [LoadState.next, LoadState.calcLoadEnterIdle]
    split_ifs with hdelta
    · refine h.setRq_same c ?_
      simp only [LoadRq.added, hnone, FoldStep.delta, hadded, sub_zero]
    · refine h.setRq_same c ?_
      rw [not_not.mp hdelta, sub_zero] at hadded
      simp only [LoadRq.added, hnone, FoldStep.delta, hadded]
  | calcLoadExitIdle c =>
    simp only [LoadState.next, LoadState.calcLoadExitIdle]
    split_ifs
    · exact h
    · exact h.setRq_same c rfl
    · exact h.setRq_same c rfl
  | calcGlobalLoadRemove c =>
    -- the CPU goes away together with what it has accounted for
    have hnone : (s.rq c).step = .none := hen
    refine h.setRq c _ rfl rfl ?_
    simp only [addTasks, LoadRq.added, hnone, FoldStep.delta]
    grind
  | cpuUpPrepare c => exact h.setRq_same c rfl
  | foldStep c => exact h.foldStep c
  | doTimer ticks =>
    have hnone : s.global = .none := hen
    unfold Conserved at h ⊢
    rw [hnone] at h
    exact h
  | globalStep => exact h.globalStep

/-! ## The counters of `calc_load_idle` -/

/-- No CPU is about to write to `calc_load_idle`. -/
def NoIdle (s : LoadState Cpu) : Prop :=
  ∀ c, (s.rq c).step = .none ∨ ∃ delta, (s.rq c).step = .accountActive delta

/-- Nothing has been added to `calc_load_idle` since `calc_load_idx` was `idx`: the counters that
were folded in the meantime are still zero. -/
structure Draining (idx : ℕ) (s : LoadState Cpu) : Prop where
  noIdle : s.NoIdle
  drained : ∀ k, idx ≤ k → k < s.calcLoadIdx → s.calcLoadIdle (Fin.ofNat 2 k) = 0
  current : s.global ≠ .none → s.global ≠ .start →
    s.calcLoadIdle (Fin.ofNat 2 s.calcLoadIdx) = 0
  folded : idx + 2 ≤ s.calcLoadIdx → s.global.delta = 0

omit [Fintype Cpu] in
/-- A step of one CPU that does not write to `calc_load_idle`. -/
theorem NoIdle.setRq {t : LoadState Cpu} (h : s.NoIdle) (hrq : t.rq = s.rq) (c : Cpu) {rq : LoadRq}
    (hstep : rq.step = .none ∨ ∃ delta, rq.step = .accountActive delta) :
    (t.setRq c rq).NoIdle := by
  intro d
  by_cases hd : d = c
  · subst hd
    simpa [LoadState.setRq] using hstep
  · simpa [LoadState.setRq, hd, hrq] using h d

omit [DecidableEq Cpu] [Fintype Cpu] in
/-- A step that touches neither the counters nor the index. -/
theorem Draining.of_same {idx : ℕ} {t : LoadState Cpu} (h : s.Draining idx) (hnoIdle : t.NoIdle)
    (hidle : t.calcLoadIdle = s.calcLoadIdle) (hidx : t.calcLoadIdx = s.calcLoadIdx)
    (hglobal : t.global = s.global) : t.Draining idx where
  noIdle := hnoIdle
  drained := by
    rw [hidx, hidle]
    exact h.drained
  current := by
    rw [hidx, hidle, hglobal]
    exact h.current
  folded := by
    rw [hidx, hglobal]
    exact h.folded

/-- Two flips lead back to the same counter. -/
theorem ofNat_two_add_two (k : ℕ) : Fin.ofNat 2 (k + 2) = Fin.ofNat 2 k :=
  Fin.ext (Nat.add_mod_right k 2)

omit [DecidableEq Cpu] [Fintype Cpu] in
/-- Once the counters have been folded, folding them again yields nothing. -/
theorem Draining.idle_eq_zero {idx : ℕ} (h : s.Draining idx) (hidx : idx + 2 ≤ s.calcLoadIdx) :
    s.calcLoadIdle (Fin.ofNat 2 s.calcLoadIdx) = 0 := by
  obtain ⟨k, hk⟩ := Nat.exists_eq_add_of_le' (show 2 ≤ s.calcLoadIdx by omega)
  rw [hk, ofNat_two_add_two]
  exact h.drained k (by omega) (by omega)

omit [DecidableEq Cpu] [Fintype Cpu] in
/-- The global update folds one counter and flips the index. -/
theorem Draining.globalStep {idx : ℕ} (h : s.Draining idx) : (s.globalStep cfg).Draining idx := by
  cases hstep : s.global with
  | none =>
    simp only [LoadState.globalStep, hstep]
    exact h
  | start =>
    simp only [LoadState.globalStep, hstep]
    split_ifs
    · exact ⟨h.noIdle, h.drained, fun hne => absurd rfl hne, fun _ => rfl⟩
    · refine ⟨h.noIdle, fun k hk hlt => ?_, fun _ _ => ?_, h.idle_eq_zero⟩
      · -- the counter at the index is folded and set to zero
        change Function.update s.calcLoadIdle _ 0 (Fin.ofNat 2 k) = 0
        rw [Function.update_apply, h.drained k hk hlt, ite_self]
      · exact Function.update_self _ _ _
  | folded delta =>
    simp only [LoadState.globalStep, hstep]
    exact ⟨h.noIdle, h.drained, fun _ _ => h.current (by simp [hstep]) (by simp [hstep]),
      fun _ => rfl⟩
  | read =>
    simp only [LoadState.globalStep, hstep]
    exact ⟨h.noIdle, h.drained, fun _ _ => h.current (by simp [hstep]) (by simp [hstep]),
      fun _ => rfl⟩
  | nohz =>
    have hcurrent := h.current (by simp [hstep]) (by simp [hstep])
    simp only [LoadState.globalStep, hstep]
    split_ifs
    · exact ⟨h.noIdle, h.drained, fun _ _ => hcurrent, fun _ => rfl⟩
    · exact ⟨h.noIdle, h.drained, fun _ _ => hcurrent, fun _ => rfl⟩
  | flip =>
    have hcurrent := h.current (by simp [hstep]) (by simp [hstep])
    simp only [LoadState.globalStep, hstep]
    refine ⟨h.noIdle, fun k hk hlt => ?_, fun hne => absurd rfl hne, fun _ => rfl⟩
    -- the counters before this flip, and the one that was folded in this update
    obtain hlt | rfl := Nat.lt_succ_iff_lt_or_eq.mp hlt
    · exact h.drained k hk hlt
    · exact hcurrent

omit [Fintype Cpu] in
/-- The counters of `calc_load_idle` stay as they are unless a CPU stops its tick. -/
theorem Draining.next {idx : ℕ} (h : s.Draining idx) (op : LoadOp Cpu) (hen : s.Enabled op)
    (hop : ∀ c, op ≠ .calcLoadEnterIdle c) : (s.next cfg op).Draining idx := by
  cases op with
  | other c nrRunning nrUninterruptible =>
    exact h.of_same (h.noIdle.setRq rfl c (h.noIdle c)) rfl rfl rfl
  | calcLoadAccountActive c =>
    simp only [LoadState.next, LoadState.calcLoadAccountActive]
    split_ifs with htime hdelta
    · exact h
    · exact h.of_same (h.noIdle.setRq rfl c (.inr ⟨_, rfl⟩)) rfl rfl rfl
    · exact h.of_same (h.noIdle.setRq rfl c (.inl rfl)) rfl rfl rfl
  | calcLoadEnterIdle c => exact absurd rfl (hop c)
  | calcLoadExitIdle c =>
    simp only [LoadState.next, LoadState.calcLoadExitIdle]
    split_ifs
    · exact h
    · exact h.of_same (h.noIdle.setRq rfl c (h.noIdle c)) rfl rfl rfl
    · exact h.of_same (h.noIdle.setRq rfl c (h.noIdle c)) rfl rfl rfl
  | calcGlobalLoadRemove c => exact h.of_same (h.noIdle.setRq rfl c (h.noIdle c)) rfl rfl rfl
  | cpuUpPrepare c => exact h.of_same (h.noIdle.setRq rfl c (h.noIdle c)) rfl rfl rfl
  | foldStep c =>
    obtain hstep | ⟨delta, hstep⟩ := h.noIdle c
    · simp only [LoadState.next, LoadState.foldStep, hstep]
      exact h
    · simp only [LoadState.next, LoadState.foldStep, hstep]
      exact h.of_same (h.noIdle.setRq rfl c (.inl rfl)) rfl rfl rfl
  | doTimer ticks =>
    exact ⟨h.noIdle, h.drained, fun _ hne => absurd rfl hne, fun _ => rfl⟩
  | globalStep => exact h.globalStep

end LoadState

/-- `time_before` looks at the sign bit of the difference. -/
theorem timeBefore_iff {a b : Long} : timeBefore a b = true ↔ 2 ^ 31 ≤ (a - b).toNat := by
  rw [timeBefore, decide_eq_true_eq, BitVec.toInt_neg_iff]
  omega

/-- The period is positive and far below half the range of jiffies. -/
theorem LoadConfig.toNat_loadFreq (cfg : LoadConfig) :
    0 < cfg.loadFreq.toNat ∧ cfg.loadFreq.toNat + 10 < 2 ^ 31 := by
  have hlt := cfg.hz_lt
  rw [loadFreq, BitVec.toNat_ofNat, Nat.mod_eq_of_lt (by omega)]
  omega

namespace LoadState
variable {Cpu : Type*} {s : LoadState Cpu}

/-- How long the next update is overdue. -/
def overdue (s : LoadState Cpu) : Long := s.jiffies - (s.calcLoadUpdate + 10)

/-- The update is overdue by less than half the range. -/
theorem overdue_lt (h : timeBefore s.jiffies (s.calcLoadUpdate + 10) = false) :
    s.overdue.toNat < 2 ^ 31 := by
  rw [← Bool.not_eq_true, timeBefore_iff] at h
  exact Nat.lt_of_not_le h

/-- How many periods were missed. -/
theorem toNat_missedPeriods (cfg : LoadConfig) (h : s.overdue.toNat < 2 ^ 31) :
    (s.missedPeriods cfg).toNat = 1 + s.overdue.toNat / cfg.loadFreq.toNat := by
  obtain ⟨-, hfreq⟩ := cfg.toNat_loadFreq
  have hdelta : s.jiffies - s.calcLoadUpdate - 10 = s.overdue := sub_sub _ _ _
  have hmsb : s.overdue.msb = false := by
    rw [BitVec.msb_eq_false_iff_two_mul_lt]
    omega
  have hmsb' : cfg.loadFreq.msb = false := by
    rw [BitVec.msb_eq_false_iff_two_mul_lt]
    omega
  have hdiv : s.overdue.toNat / cfg.loadFreq.toNat ≤ s.overdue.toNat := Nat.div_le_self _ _
  have hone : (1 : Long).toNat = 1 := rfl
  simp only [missedPeriods, hdelta, BitVec.sdiv_eq, hmsb, hmsb']
  rw [BitVec.toNat_add, BitVec.udiv_eq, BitVec.toNat_udiv, hone, Nat.mod_eq_of_lt (by omega)]

/-- The missed periods end after `jiffies`. -/
theorem timeBefore_missedPeriods (cfg : LoadConfig) (h : s.overdue.toNat < 2 ^ 31) :
    timeBefore s.jiffies (s.calcLoadUpdate + s.missedPeriods cfg * cfg.loadFreq + 10) = true := by
  obtain ⟨hpos, hfreq⟩ := cfg.toNat_loadFreq
  have hmod := Nat.mod_lt s.overdue.toNat hpos
  have hmul : (s.missedPeriods cfg * cfg.loadFreq).toNat =
      s.overdue.toNat + cfg.loadFreq.toNat - s.overdue.toNat % cfg.loadFreq.toNat := by
    have hprod : (1 + s.overdue.toNat / cfg.loadFreq.toNat) * cfg.loadFreq.toNat =
        s.overdue.toNat + cfg.loadFreq.toNat - s.overdue.toNat % cfg.loadFreq.toNat := by
      have hdiv := Nat.div_add_mod' s.overdue.toNat cfg.loadFreq.toNat
      rw [Nat.add_mul, Nat.one_mul]
      omega
    rw [BitVec.toNat_mul, toNat_missedPeriods cfg h, hprod]
    exact Nat.mod_eq_of_lt (by omega)
  have hsub : s.jiffies - (s.calcLoadUpdate + s.missedPeriods cfg * cfg.loadFreq + 10) =
      s.overdue - s.missedPeriods cfg * cfg.loadFreq := by
    rw [overdue]
    ring
  rw [timeBefore_iff, hsub, BitVec.toNat_sub, hmul]
  omega

end LoadState
/-! ## Averages -/

/-- The shift of a sum with half a unit rounds. -/
theorem toNat_shiftRight_fshift {m : Long} {n : ℕ} (hm : m.toNat = n + 2 ^ (fshift - 1)) :
    (m >>> fshift).toNat = roundShift fshift n := by
  rw [BitVec.toNat_ushiftRight, Nat.shiftRight_eq_div_pow, hm, roundShift]

/-- A product of two numbers up to one does not overflow. -/
theorem toNat_mul_fshift {a b : Long} (ha : a.toNat ≤ 2 ^ fshift) (hb : b.toNat ≤ 2 ^ fshift) :
    ((a * b + 1#32 <<< (fshift - 1)) >>> fshift).toNat =
      roundShift fshift (a.toNat * b.toNat) := by
  have hle := Nat.mul_le_mul ha hb
  have hhalf : (1#32 <<< (fshift - 1)).toNat = 2 ^ (fshift - 1) := rfl
  apply toNat_shiftRight_fshift
  rw [BitVec.toNat_add, BitVec.toNat_mul, hhalf]
  simp only [fshift] at hle ⊢
  omega

/-- The loop of `fixed_power_int` computes the powers of a number up to one. -/
theorem toNat_fixedPowerLoop {result x : Long} {n : ℕ} (hr : result.toNat ≤ 2 ^ fshift)
    (hx : x.toNat ≤ 2 ^ fshift) :
    (fixedPowerLoop fshift result x n).toNat = powLoop fshift result.toNat x.toNat n := by
  have hf : 0 < fshift := by decide
  induction result, x, n using fixedPowerLoop.induct fshift with
  | case1 result x n hn =>
    rw [fixedPowerLoop, powLoop, if_pos hn, if_pos hn, apply_ite BitVec.toNat,
      toNat_mul_fshift hr hx]
  | case2 result x n next hn ih =>
    have hnext : next.toNat =
        if n % 2 = 1 then roundShift fshift (result.toNat * x.toNat) else result.toNat := by
      simp only [next]
      split_ifs
      · exact toNat_mul_fshift hr hx
      · rfl
    have hle : next.toNat ≤ 2 ^ fshift := by
      rw [hnext]
      split_ifs
      · exact roundShift_mul_le hf hr hx
      · exact hr
    have hsquare := toNat_mul_fshift hx hx
    have hih := ih hle (hsquare ▸ roundShift_mul_le hf hx hx)
    rw [hsquare] at hih
    rw [fixedPowerLoop, powLoop, if_neg hn, if_neg hn, ← hnext]
    exact hih

/-- `fixed_power_int` is the rounded power. -/
theorem toNat_fixedPowerInt {x : Long} (hx : x.toNat ≤ 2 ^ fshift) (n : ℕ) :
    (fixedPowerInt x fshift n).toNat = powRound fshift x.toNat n := by
  have hone : (1#32 <<< fshift).toNat = 2 ^ fshift := rfl
  simp only [fixedPowerInt, powRound]
  split_ifs
  · exact hone
  · rw [toNat_fixedPowerLoop hone.le hx, hone]

/-- The largest load average without an overflow. -/
def maxLoad : ℕ := 1023 * 2 ^ fshift

/-- `calc_load` is a weighted mean. -/
theorem toNat_calcLoad {load exp active : Long} (hload : load.toNat ≤ maxLoad)
    (hactive : active.toNat ≤ maxLoad) (hexp : exp.toNat ≤ 2 ^ fshift) :
    (calcLoad load exp active).toNat = mean fshift exp.toNat load.toNat active.toNat := by
  have hfixed : fixed1.toNat = 2 ^ fshift := rfl
  have hhalf : (1#32 <<< (fshift - 1)).toNat = 2 ^ (fshift - 1) := rfl
  have hsub : (fixed1 - exp).toNat = 2 ^ fshift - exp.toNat := by
    rw [BitVec.toNat_sub_of_le (by rw [BitVec.le_def, hfixed]; exact hexp), hfixed]
  have hload' := Nat.mul_le_mul_right exp.toNat hload
  have hactive' := Nat.mul_le_mul_right (2 ^ fshift - exp.toNat) hactive
  have hsum : maxLoad * exp.toNat + maxLoad * (2 ^ fshift - exp.toNat) = maxLoad * 2 ^ fshift := by
    rw [← Nat.mul_add, Nat.add_sub_cancel' hexp]
  have hmax : maxLoad * 2 ^ fshift + 2 ^ (fshift - 1) < 2 ^ 32 := by decide
  rw [calcLoad, mean]
  apply toNat_shiftRight_fshift
  rw [BitVec.toNat_add, BitVec.toNat_add, BitVec.toNat_mul, BitVec.toNat_mul, hsub, hhalf]
  rw [Nat.mod_eq_of_lt (a := load.toNat * exp.toNat) (by omega),
    Nat.mod_eq_of_lt (a := active.toNat * _) (by omega), Nat.mod_eq_of_lt (by omega),
    Nat.mod_eq_of_lt (by omega)]

/-- `calc_load_n` is a mean whose weight is the rounded power. -/
theorem toNat_calcLoadN {load exp active : Long} (hload : load.toNat ≤ maxLoad)
    (hactive : active.toNat ≤ maxLoad) (hexp : exp.toNat ≤ 2 ^ fshift) (n : ℕ) :
    (calcLoadN load exp active n).toNat =
      mean fshift (powRound fshift exp.toNat n) load.toNat active.toNat := by
  have hpow := toNat_fixedPowerInt hexp n
  have hle : (fixedPowerInt exp fshift n).toNat ≤ 2 ^ fshift := by
    rw [hpow]
    exact powRound_le (by decide) hexp n
  rw [calcLoadN, toNat_calcLoad hload hactive hle, hpow]

/-- A single update is an update in bulk for one period. -/
theorem calcLoad_eq_calcLoadN {load exp active : Long} (hexp : exp.toNat ≤ 2 ^ fshift) :
    calcLoad load exp active = calcLoadN load exp active 1 := by
  have hpow : fixedPowerInt exp fshift 1 = exp := by
    apply BitVec.eq_of_toNat_eq
    rw [toNat_fixedPowerInt hexp, powRound_one (by decide)]
  rw [calcLoadN, hpow]

/-- The three factors are at most one. -/
theorem expFactor_le (i : Fin 3) : (expFactor i).toNat ≤ 2 ^ fshift := by
  fin_cases i <;> decide

/-! ## Periods -/

namespace LoadState

variable {Cpu : Type*} [DecidableEq Cpu] {cfg : LoadConfig} {s t : LoadState Cpu}

/-- The variables of the CPU that counts the ticks are as they were. -/
structure SameGlobal (s t : LoadState Cpu) : Prop where
  jiffies : t.jiffies = s.jiffies
  calcLoadUpdate : t.calcLoadUpdate = s.calcLoadUpdate
  avenrun : t.avenrun = s.avenrun
  global : t.global = s.global
  periods : t.periods = s.periods

/-- Only the CPU that counts the ticks writes to its variables. -/
theorem next_cases (cfg : LoadConfig) (s : LoadState Cpu) (op : LoadOp Cpu) :
    (∃ ticks, op = .doTimer ticks) ∨ op = .globalStep ∨ s.SameGlobal (s.next cfg op) := by
  cases op with
  | other c nrRunning nrUninterruptible => exact .inr (.inr ⟨rfl, rfl, rfl, rfl, rfl⟩)
  | calcLoadAccountActive c =>
    refine .inr (.inr ?_)
    simp only [LoadState.next, LoadState.calcLoadAccountActive]
    split_ifs <;> exact ⟨rfl, rfl, rfl, rfl, rfl⟩
  | calcLoadEnterIdle c => exact .inr (.inr ⟨rfl, rfl, rfl, rfl, rfl⟩)
  | calcLoadExitIdle c =>
    refine .inr (.inr ?_)
    simp only [LoadState.next, LoadState.calcLoadExitIdle]
    split_ifs <;> exact ⟨rfl, rfl, rfl, rfl, rfl⟩
  | calcGlobalLoadRemove c => exact .inr (.inr ⟨rfl, rfl, rfl, rfl, rfl⟩)
  | cpuUpPrepare c => exact .inr (.inr ⟨rfl, rfl, rfl, rfl, rfl⟩)
  | foldStep c =>
    refine .inr (.inr ?_)
    simp only [LoadState.next, LoadState.foldStep]
    split <;> exact ⟨rfl, rfl, rfl, rfl, rfl⟩
  | doTimer ticks => exact .inl ⟨ticks, rfl⟩
  | globalStep => exact .inr (.inl rfl)

/-- `calc_global_load` has returned, or is about to. -/
def AtEnd (s : LoadState Cpu) : Prop := s.global = .none ∨ s.global = .flip

/-- At the end of `calc_global_load` the next update is in the future. -/
def InTime (s : LoadState Cpu) : Prop :=
  s.AtEnd → timeBefore s.jiffies (s.calcLoadUpdate + 10) = true

/-- Every step keeps the window. -/
theorem InTime.next (h : s.InTime) (op : LoadOp Cpu) : (s.next cfg op).InTime := by
  -- a tick, a step of the update, or a step of a CPU
  obtain ⟨ticks, rfl⟩ | rfl | hsame := next_cases cfg s op
  · rintro (hend | hend) <;> cases hend
  · change (s.globalStep cfg).InTime
    cases hstep : s.global with
    | none =>
      simp only [LoadState.globalStep, hstep]
      exact h
    | start =>
      simp only [LoadState.globalStep, hstep]
      split_ifs with htime
      · exact fun _ => htime
      · rintro (hend | hend) <;> cases hend
    | folded delta =>
      simp only [LoadState.globalStep, hstep]
      rintro (hend | hend) <;> cases hend
    | read =>
      simp only [LoadState.globalStep, hstep]
      rintro (hend | hend) <;> cases hend
    | nohz =>
      simp only [LoadState.globalStep, hstep]
      split_ifs with htime
      · -- periods were missed: the bulk update catches up
        have hlt := overdue_lt (Bool.not_eq_true' _ ▸ htime)
        exact fun _ => timeBefore_missedPeriods cfg hlt
      · rw [Bool.not_eq_true', Bool.not_eq_false] at htime
        exact fun _ => htime
    | flip =>
      have htime := h (.inr hstep)
      simp only [LoadState.globalStep, hstep]
      exact fun _ => htime
  · intro hend
    rw [hsame.jiffies, hsame.calcLoadUpdate]
    refine h ?_
    rwa [AtEnd, hsame.global] at hend

/-! ## The averages of the machine -/

/-- The averages are kept, or updated in bulk for some periods. -/
def Averaged (s t : LoadState Cpu) : Prop :=
  t.avenrun = s.avenrun ∧ t.periods = s.periods ∨
    ∃ n, 0 < n ∧ t.periods = s.periods + n ∧ ∀ i,
      t.avenrun i = calcLoadN (s.avenrun i) (expFactor i) (fixedActive s.calcLoadTasks) n

/-- What a step does to the averages and to the count of periods. -/
theorem averaged_next (cfg : LoadConfig) (s : LoadState Cpu) (op : LoadOp Cpu) :
    s.Averaged (s.next cfg op) := by
  obtain ⟨ticks, rfl⟩ | rfl | hsame := next_cases cfg s op
  · exact .inl ⟨rfl, rfl⟩
  · change s.Averaged (s.globalStep cfg)
    cases hstep : s.global with
    | none =>
      simp only [LoadState.globalStep, hstep]
      exact .inl ⟨rfl, rfl⟩
    | start =>
      simp only [LoadState.globalStep, hstep]
      split_ifs <;> exact .inl ⟨rfl, rfl⟩
    | folded delta =>
      simp only [LoadState.globalStep, hstep]
      exact .inl ⟨rfl, rfl⟩
    | read =>
      simp only [LoadState.globalStep, hstep]
      -- one period
      exact .inr ⟨1, one_pos, rfl, fun i => calcLoad_eq_calcLoadN (expFactor_le i)⟩
    | nohz =>
      simp only [LoadState.globalStep, hstep]
      split_ifs with htime
      · -- all missed periods in bulk
        have hlt := overdue_lt (Bool.not_eq_true' _ ▸ htime)
        refine .inr ⟨_, ?_, rfl, fun i => rfl⟩
        rw [toNat_missedPeriods cfg hlt]
        exact Nat.add_pos_left one_pos _
      · exact .inl ⟨rfl, rfl⟩
    | flip =>
      simp only [LoadState.globalStep, hstep]
      exact .inl ⟨rfl, rfl⟩
  · exact .inl ⟨hsame.avenrun, hsame.periods⟩

end LoadState

/-- The number of active tasks in `calc_load_tasks`. -/
def activeTasks (tasks : Long) : ℕ := tasks.toInt.toNat

/-- `active * FIXED_1` does not overflow for up to 1023 tasks. -/
theorem toNat_fixedActive {tasks : Long} (h : activeTasks tasks ≤ 1023) :
    (fixedActive tasks).toNat = activeTasks tasks * 2 ^ fshift := by
  have hfixed : fixed1.toNat = 2 ^ fshift := rfl
  have hpow : 2 ^ fshift = 2048 := rfl
  unfold fixedActive
  unfold activeTasks at h ⊢
  split_ifs with hpos
  · have hval : tasks.toInt.toNat = tasks.toNat := by
      rw [BitVec.toInt_eq_toNat_cond] at hpos ⊢
      split_ifs at hpos ⊢ <;> omega
    rw [hval] at h ⊢
    rw [BitVec.toNat_mul, hfixed, hpow]
    omega
  · rw [Int.toNat_of_nonpos (not_lt.mp hpos), Nat.zero_mul]
    rfl

/-! ## Ideal averages -/

/-- `a0 * e ^ n + a * (1 - e ^ n)`. -/
def idealLoad (w load active n : ℕ) : ℚ :=
  active + (load - active) * (w / 2 ^ fshift) ^ n

/-- After `n` periods with the same input an average that was `load` is `load'`. -/
structure Follows (w load active n load' : ℕ) : Prop where
  le_maxLoad : load' ≤ maxLoad
  dist : |(load' : ℚ) - active| ≤ |(load : ℚ) - active|
  error : |(load' : ℚ) - idealLoad w load active n| ≤
    n * ((|(load : ℚ) - active| / 2 ^ fshift + 1) / 2)

namespace Follows

variable {w load active n load' m : ℕ}

/-- No period. -/
theorem refl (h : load ≤ maxLoad) : Follows w load active 0 load where
  le_maxLoad := h
  dist := le_rfl
  error := by simp [idealLoad]

/-- The average is updated for some periods. -/
theorem step (h : Follows w load active n load') (hw : w ≤ 2 ^ fshift) (hactive : active ≤ maxLoad)
    (hm : 0 < m) :
    Follows w load active (n + m) (mean fshift (powRound fshift w m) load' active) where
  le_maxLoad :=
    (mean_le_max (by decide) (powRound_le (by decide) hw m)).trans (max_le h.le_maxLoad hactive)
  dist := (abs_mean_sub_le (by decide) (powRound_le (by decide) hw m)).trans h.dist
  error := by
    have hideal : idealLoad w load active (n + m) =
        active + (idealLoad w load active n - active) * (w / 2 ^ fshift) ^ m := by
      rw [idealLoad, idealLoad, pow_add]
      ring
    have herror := moving_error (by decide) hw hm h.error h.dist
    rw [hideal]
    refine herror.trans_eq ?_
    push_cast
    ring

end Follows

/-- Single updates. -/
theorem follows_iterate {load exp active : Long} (hload : load.toNat ≤ maxLoad)
    (hactive : active.toNat ≤ maxLoad) (hexp : exp.toNat ≤ 2 ^ fshift) (n : ℕ) :
    Follows exp.toNat load.toNat active.toNat n ((calcLoad · exp active)^[n] load).toNat := by
  induction n with
  | zero => exact .refl hload
  | succ n ih =>
    rw [Function.iterate_succ_apply', calcLoad_eq_calcLoadN hexp,
      toNat_calcLoadN ih.le_maxLoad hactive hexp]
    exact ih.step hexp hactive one_pos

/-! ## A small machine -/

namespace SmallLoad

/-- `HZ = 100`. -/
def cfg : LoadConfig := ⟨100, by decide⟩

/-- Two CPUs without tasks. -/
def boot : LoadState Bool := .boot cfg 0

/-- The steps one after the other. -/
def run : List (LoadOp Bool) → LoadState Bool → LoadState Bool
  | [], s => s
  | op :: ops, s => run ops (s.next cfg op)

/-- The steps may be taken, and satisfy `P`. -/
def Allowed (P : LoadState Bool → LoadOp Bool → Bool) :
    List (LoadOp Bool) → LoadState Bool → Bool
  | [], _ => true
  | op :: ops, s => decide (s.Enabled op) && P s op && Allowed P ops (s.next cfg op)

/-- Steps that are allowed make a stretch of a run. -/
theorem path_run {P : LoadState Bool → LoadOp Bool → Bool}
    {Q : LoadState Bool → LoadOp Bool → Prop} (hPQ : ∀ s op, P s op = true → Q s op)
    {s t : LoadState Bool} (hpath : (loadSystem cfg Bool).Path Q s t)
    {ops : List (LoadOp Bool)} (h : Allowed P ops t = true) :
    (loadSystem cfg Bool).Path Q s (run ops t) := by
  induction ops generalizing t with
  | nil => exact hpath
  | cons op ops ih =>
    rw [Allowed, Bool.and_eq_true, Bool.and_eq_true, decide_eq_true_eq] at h
    exact ih (hpath.step h.1.1 (hPQ t op h.1.2)) h.2

/-- A task runs on the first CPU and is accounted for. -/
def busy : LoadState Bool :=
  run [.other false 1 0, .doTimer 501, .globalStep, .calcLoadAccountActive false, .foldStep false]
    boot

/-- `calc_global_load` after `ticks`. -/
def globalLoad (ticks : Long) : List (LoadOp Bool) :=
  [.doTimer ticks, .globalStep, .globalStep, .globalStep, .globalStep, .globalStep]

/-- The averages have been updated twice. -/
def updated : LoadState Bool := run (globalLoad 10 ++ globalLoad 501) busy

/-- The steps that lead there. -/
theorem busy_reachable : (loadSystem cfg Bool).Reachable busy := by
  have hpath : (loadSystem cfg Bool).Path (fun _ _ => True) boot busy :=
    path_run (P := fun _ _ => true) (fun _ _ _ => trivial) .refl (by decide +kernel)
  exact hpath.reachable (.init ⟨0, rfl⟩)

/-- The steps that lead there. -/
theorem updated_reachable : (loadSystem cfg Bool).Reachable updated := by
  have hpath : (loadSystem cfg Bool).Path (fun _ _ => True) busy updated :=
    path_run (P := fun _ _ => true) (fun _ _ _ => trivial) .refl (by decide +kernel)
  exact hpath.reachable busy_reachable

/-- The two updates as a stretch of a run. -/
theorem path_updated (P : LoadState Bool → LoadOp Bool → Bool)
    {Q : LoadState Bool → LoadOp Bool → Prop} (hPQ : ∀ s op, P s op = true → Q s op)
    (h : Allowed P (globalLoad 10 ++ globalLoad 501) busy = true) :
    (loadSystem cfg Bool).Path Q busy updated :=
  path_run hPQ .refl h

end SmallLoad

/-! ## The main results -/

variable {Cpu : Type*} [DecidableEq Cpu] [Fintype Cpu] {cfg : LoadConfig} {s s' : LoadState Cpu}

/-- In every reachable state the counters and the deltas on the way add up to the active tasks of
the CPUs, however their steps interleave. -/
theorem loadSystem_conserved (h : (loadSystem cfg Cpu).Reachable s) :
    s.calcLoadTasks + ∑ i, s.calcLoadIdle i + ∑ c, (s.rq c).step.delta + s.global.delta =
      ∑ c, (s.rq c).calcLoadActive := by
  have hcons : s.Conserved := by
    refine h.invariant (fun s hs => ?_) fun s op hs hen => hs.next op hen
    obtain ⟨jiffies, rfl⟩ := hs
    simp [LoadState.Conserved, LoadState.boot, LoadRq.added, FoldStep.delta, GlobalStep.delta]
  unfold LoadState.Conserved LoadRq.added at hcons
  rw [sum_sub_distrib] at hcons
  grind

/-- After two updates. -/
theorem loadSystem_conserved_updated :
    SmallLoad.updated.calcLoadTasks + ∑ i, SmallLoad.updated.calcLoadIdle i +
        ∑ c, (SmallLoad.updated.rq c).step.delta + SmallLoad.updated.global.delta =
      ∑ c, (SmallLoad.updated.rq c).calcLoadActive :=
  loadSystem_conserved SmallLoad.updated_reachable

/-- Two updates after the last CPU has stopped its tick nothing is left in `calc_load_idle`:
`calc_load_tasks` and the deltas that CPUs are about to add to it make up the active tasks that the
CPUs have accounted for. -/
theorem loadSystem_exact (h : (loadSystem cfg Cpu).Reachable s) (hglobal : s.global = .none)
    (hnoIdle : s.NoIdle)
    (hpath : (loadSystem cfg Cpu).Path (fun _ op => ∀ c, op ≠ .calcLoadEnterIdle c) s s')
    (hidx : s.calcLoadIdx + 2 ≤ s'.calcLoadIdx) :
    s'.calcLoadTasks + ∑ c, (s'.rq c).step.delta = ∑ c, (s'.rq c).calcLoadActive ∧
      ((∀ c, (s'.rq c).step = .none) → s'.calcLoadTasks = ∑ c, (s'.rq c).calcLoadActive) := by
  have hdrain : s'.Draining s.calcLoadIdx := by
    refine hpath.invariant h ?_ fun t op _ ht hen hop => ht.next op hen hop
    exact ⟨hnoIdle, fun k hk hlt => absurd hlt hk.not_gt, fun hne => absurd hglobal hne,
      fun hle => absurd hle (by omega)⟩
  have hcons := loadSystem_conserved (hpath.reachable h)
  have hidle : ∀ i, s'.calcLoadIdle i = 0 := by
    intro i
    have hi : i = Fin.ofNat 2 s.calcLoadIdx ∨ i = Fin.ofNat 2 (s.calcLoadIdx + 1) := by
      simp only [Fin.ext_iff, Fin.val_ofNat]
      omega
    obtain rfl | rfl := hi
    · exact hdrain.drained _ le_rfl (by omega)
    · exact hdrain.drained _ (Nat.le_succ _) (by omega)
  rw [hdrain.folded hidx, sum_eq_zero fun i _ => hidle i] at hcons
  have hsum : s'.calcLoadTasks + ∑ c, (s'.rq c).step.delta = ∑ c, (s'.rq c).calcLoadActive := by
    simpa using hcons
  refine ⟨hsum, fun hdone => ?_⟩
  have hsteps : ∑ c, (s'.rq c).step.delta = 0 := by
    refine sum_eq_zero fun c _ => ?_
    rw [hdone c]
    rfl
  rwa [hsteps, add_zero] at hsum

/-- After two updates. -/
theorem loadSystem_exact_updated :
    SmallLoad.updated.calcLoadTasks = ∑ c, (SmallLoad.updated.rq c).calcLoadActive :=
  (loadSystem_exact SmallLoad.busy_reachable (by decide +kernel)
    (fun c => .inl (by cases c <;> rfl))
    (SmallLoad.path_updated (fun _ op => match op with | .calcLoadEnterIdle _ => false | _ => true)
      (fun _ op h c hc => by rw [hc] at h; cases h) (by decide +kernel))
    (by decide +kernel)).2 (fun c => by cases c <;> rfl)

omit [Fintype Cpu] in
/-- After `calc_global_load` the next update is in the future, however many periods were missed. -/
theorem loadSystem_window (h : (loadSystem cfg Cpu).Reachable s) (hend : s.global = .none) :
    timeBefore s.jiffies (s.calcLoadUpdate + 10) = true := by
  have hinTime : s.InTime := by
    refine h.invariant (fun s hs _ => ?_) fun s op hs _ => hs.next op
    obtain ⟨jiffies, rfl⟩ := hs
    obtain ⟨-, hlt⟩ := cfg.toNat_loadFreq
    have hsub : jiffies - (jiffies + cfg.loadFreq + 10) = -(cfg.loadFreq + 10) := by ring
    have hten : (10 : Long).toNat = 10 := rfl
    rw [timeBefore_iff]
    change 2 ^ 31 ≤ (jiffies - (jiffies + cfg.loadFreq + 10)).toNat
    rw [hsub, BitVec.toNat_neg, BitVec.toNat_add, hten]
    omega
  exact hinTime (.inl hend)

/-- After two updates. -/
theorem loadSystem_window_updated :
    timeBefore SmallLoad.updated.jiffies (SmallLoad.updated.calcLoadUpdate + 10) = true :=
  loadSystem_window SmallLoad.updated_reachable (by decide +kernel)

omit [Fintype Cpu] in
/-- The averages do not exceed the number of active tasks, as long as this is less than 1024. -/
theorem loadSystem_avenrun_le {jiffies : Long} {m : ℕ} (hm : m ≤ 1023)
    (hpath : (loadSystem cfg Cpu).Path (fun t _ => activeTasks t.calcLoadTasks ≤ m)
      (LoadState.boot cfg jiffies) s) (i : Fin 3) : (s.avenrun i).toNat ≤ m * 2 ^ fshift := by
  have hmax : m * 2 ^ fshift ≤ maxLoad := Nat.mul_le_mul_right _ hm
  induction hpath with
  | refl => exact Nat.zero_le _
  | @step t op _ _ hactive ih =>
    obtain ⟨havenrun, -⟩ | ⟨n, -, -, havenrun⟩ := t.averaged_next cfg op
    · change ((t.next cfg op).avenrun i).toNat ≤ _
      rwa [havenrun]
    · have hfixed := toNat_fixedActive (hactive.trans hm)
      have hactive' : (fixedActive t.calcLoadTasks).toNat ≤ m * 2 ^ fshift := by
        rw [hfixed]
        exact Nat.mul_le_mul_right _ hactive
      change ((t.next cfg op).avenrun i).toNat ≤ _
      rw [havenrun, toNat_calcLoadN (ih.trans hmax) (hactive'.trans hmax) (expFactor_le i)]
      exact (mean_le_max (by decide) (powRound_le (by decide) (expFactor_le i) n)).trans
        (max_le ih hactive')

/-- The first average after two updates with one task. -/
theorem loadSystem_avenrun_le_updated :
    (SmallLoad.updated.avenrun 0).toNat ≤ 1 * 2 ^ fshift := by
  have hpath : (loadSystem SmallLoad.cfg Bool).Path
      (fun t _ => activeTasks t.calcLoadTasks ≤ 1) SmallLoad.boot SmallLoad.updated :=
    SmallLoad.path_run (P := fun t _ => decide (activeTasks t.calcLoadTasks ≤ 1))
      (fun _ _ => of_decide_eq_true)
      (SmallLoad.path_run (P := fun t _ => decide (activeTasks t.calcLoadTasks ≤ 1))
        (fun _ _ => of_decide_eq_true) .refl (by decide +kernel))
      (by decide +kernel)
  exact loadSystem_avenrun_le (by decide) hpath 0

omit [Fintype Cpu] in
/-- While `a` tasks are active, an average follows the ideal moving average, no matter which updates
were missed and caught up in bulk. Each period adds at most half a unit to the error, and another
half for each task between the average and its input. -/
theorem loadSystem_average {a : ℕ} (ha : a ≤ 1023) {i : Fin 3}
    (hmax : (s.avenrun i).toNat ≤ maxLoad)
    (hpath : (loadSystem cfg Cpu).Path (fun t _ => activeTasks t.calcLoadTasks = a) s s') :
    ∃ k, s'.periods = s.periods + k ∧
      Follows (expFactor i).toNat (s.avenrun i).toNat (a * 2 ^ fshift) k (s'.avenrun i).toNat := by
  have hactive : a * 2 ^ fshift ≤ maxLoad := Nat.mul_le_mul_right _ ha
  induction hpath with
  | refl => exact ⟨0, rfl, .refl hmax⟩
  | @step t op _ _ hP ih =>
    obtain ⟨k, hk, hfollows⟩ := ih
    change ∃ k', (t.next cfg op).periods = s.periods + k' ∧
      Follows _ _ _ k' ((t.next cfg op).avenrun i).toNat
    obtain ⟨havenrun, hperiods⟩ | ⟨n, hn, hperiods, havenrun⟩ := t.averaged_next cfg op
    · rw [havenrun, hperiods]
      exact ⟨k, hk, hfollows⟩
    · have hfixed := toNat_fixedActive (hP.trans_le ha)
      rw [hP] at hfixed
      refine ⟨k + n, by rw [hperiods, hk, Nat.add_assoc], ?_⟩
      rw [havenrun i, toNat_calcLoadN hfollows.le_maxLoad (hfixed.trans_le hactive)
        (expFactor_le i), hfixed]
      exact hfollows.step (expFactor_le i) hactive hn

/-- The first average over two updates with one task. -/
theorem loadSystem_average_updated : ∃ k, SmallLoad.updated.periods = SmallLoad.busy.periods + k ∧
    Follows (expFactor 0).toNat (SmallLoad.busy.avenrun 0).toNat (1 * 2 ^ fshift) k
      (SmallLoad.updated.avenrun 0).toNat :=
  loadSystem_average (by decide) (by decide +kernel)
    (SmallLoad.path_updated (fun t _ => decide (activeTasks t.calcLoadTasks = 1))
      (fun _ _ => of_decide_eq_true) (by decide +kernel))

/-- "Compute x^n in O(log n) time": an update in bulk for `n` periods differs from `n` single
updates by at most one unit for each period, and another one for each period and each task between
the average and its input. -/
theorem calcLoadN_error {load exp active : Long} (hload : load.toNat ≤ maxLoad)
    (hactive : active.toNat ≤ maxLoad) (hexp : exp.toNat ≤ 2 ^ fshift) {n : ℕ} (hn : 0 < n) :
    |((calcLoadN load exp active n).toNat : ℚ) -
        (((calcLoad · exp active)^[n] load).toNat : ℚ)| ≤
      n * (|(load.toNat : ℚ) - active.toNat| / 2 ^ fshift + 1) := by
  have hbulk := (Follows.refl hload).step hexp hactive hn
  rw [Nat.zero_add, ← toNat_calcLoadN hload hactive hexp] at hbulk
  have hsingle := follows_iterate hload hactive hexp n
  calc |((calcLoadN load exp active n).toNat : ℚ) -
          (((calcLoad · exp active)^[n] load).toNat : ℚ)|
      ≤ |((calcLoadN load exp active n).toNat : ℚ) -
            idealLoad exp.toNat load.toNat active.toNat n| +
          |(((calcLoad · exp active)^[n] load).toNat : ℚ) -
            idealLoad exp.toNat load.toNat active.toNat n| := by
        rw [abs_sub_comm (((calcLoad · exp active)^[n] load).toNat : ℚ)]
        exact abs_sub_le _ _ _
    _ ≤ n * ((|(load.toNat : ℚ) - active.toNat| / 2 ^ fshift + 1) / 2) +
          n * ((|(load.toNat : ℚ) - active.toNat| / 2 ^ fshift + 1) / 2) :=
        add_le_add hbulk.error hsingle.error
    _ = n * (|(load.toNat : ℚ) - active.toNat| / 2 ^ fshift + 1) := by ring

/-- Three periods from zero to one task. -/
theorem calcLoadN_error_three :
    |((calcLoadN 0 1884 2048 3).toNat : ℚ) - (((calcLoad · 1884 2048)^[3] 0).toNat : ℚ)| ≤
      (3 : ℕ) * (|((0 : Long).toNat : ℚ) - (2048 : Long).toNat| / 2 ^ fshift + 1) :=
  calcLoadN_error (by decide) (by decide) (by decide) (by decide)

end WrrSched
