import Mathlib.Algebra.Order.Field.Basic
import Mathlib.Data.Nat.Cast.Order.Field
import Mathlib.Data.Nat.Dist
import Mathlib.Data.Rat.Cast.Order
import Mathlib.Tactic.FinCases
import Mathlib.Tactic.IntervalCases
import Mathlib.Tactic.Linarith
import Mathlib.Tactic.NormNum
import Mathlib.Tactic.Positivity
import Mathlib.Tactic.Ring
import WrrSched.Model.CpuLoad

/-!
# The load of a CPU

The table of `decay_load_missed` and the averages of `update_cpu_load`. A load below `2 ^ 25` does
not overflow.

- `decayLoadMissed_error`: the table against the exact decay;
- `run_cpuLoad`: in a run the averages stay below the largest load, and the table is large enough;
- `run_steady`: with a steady load every average reaches it.
-/

namespace WrrSched

/-! ## Decay -/

/-- `(2 ^ idx - 1) / 2 ^ idx`. -/
def decayFactor (idx : Fin 5) : ℚ := 1 - 1 / 2 ^ idx.val

/-- The exact factor of one tick is not negative. -/
theorem decayFactor_nonneg (idx : Fin 5) : 0 ≤ decayFactor idx := by
  fin_cases idx <;> norm_num [decayFactor]

/-- Nor is it more than one. -/
theorem decayFactor_le_one (idx : Fin 5) : decayFactor idx ≤ 1 := by
  fin_cases idx <;> norm_num [decayFactor]

/-- "Each column corresponds to degradation factor for a power of two ticks, based on 128 point
scale", rounded down. -/
def Approximates (row : List Long) (x : ℚ) : Prop :=
  ∀ j < 7, ∃ c : Long, row[j]? = some c ∧ (c.toNat : ℚ) / 128 ≤ x ^ 2 ^ j ∧
    x ^ 2 ^ j ≤ c.toNat / 128 + 1 / 128

/-- The rows of the table, but for the first two. -/
theorem approximates_degradeFactor {idx : Fin 5} (h0 : idx ≠ 0) (h1 : idx ≠ 1) :
    Approximates (degradeFactor idx) (decayFactor idx) := by
  intro j hj
  fin_cases idx
  · exact absurd rfl h0
  · exact absurd rfl h1
  all_goals
    interval_cases j <;> exact ⟨_, rfl, by norm_num [decayFactor], by norm_num [decayFactor]⟩

section Loop

variable {row : List Long} {x L : ℚ}

/-- The loop decays a load that is at most `delta` below an exact one. -/
theorem decayLoop_spec (hrow : Approximates row x) (hx0 : 0 ≤ x) (hx1 : x ≤ 1) {k j n : ℕ}
    (hjk : j + k ≤ 7) (hn : n < 2 ^ k) {load : Long} (hload : load.toNat < 2 ^ 25) {e delta : ℚ}
    (he : load.toNat ≤ e) (heL : e ≤ L) (hdelta : e - load.toNat ≤ delta) :
    ∃ r, decayLoop row load n j = some r ∧ r.toNat ≤ load.toNat ∧
      (r.toNat : ℚ) ≤ e * (x ^ 2 ^ j) ^ n ∧
      e * (x ^ 2 ^ j) ^ n - r.toNat ≤ delta + k * (L / 128 + 1) := by
  have he0 : 0 ≤ e := (Nat.cast_nonneg _).trans he
  have hL0 : 0 ≤ L := he0.trans heL
  induction k generalizing j n load e delta with
  | zero =>
    have hn0 : n = 0 := by omega
    subst hn0
    refine ⟨load, by rw [decayLoop, if_pos rfl], le_rfl, by simpa using he, ?_⟩
    simpa using hdelta
  | succ k ih =>
    obtain ⟨m, rfl | rfl⟩ := Nat.even_or_odd' n
    · -- an even number of ticks
      have hpow : (x ^ 2 ^ j) ^ (2 * m) = (x ^ 2 ^ (j + 1)) ^ m := by
        rw [pow_mul, ← pow_mul x, ← pow_succ]
      obtain ⟨r, hr, hle, hup, hlow⟩ :=
        ih (j := j + 1) (n := m) (by omega) (by omega) hload he heL hdelta he0
      refine ⟨r, ?_, hle, by rwa [hpow], ?_⟩
      · rw [← hr]
        rcases Nat.eq_zero_or_pos m with rfl | hm
        · rw [decayLoop, decayLoop, if_pos rfl, if_pos rfl]
        · have hne : 2 * m ≠ 0 := by omega
          have heven : ¬2 * m % 2 = 1 := by omega
          have hhalf : 2 * m / 2 = m := by omega
          rw [decayLoop, if_neg hne, if_neg heven, hhalf]
      · rw [hpow]
        push_cast
        linarith
    · -- an odd number of ticks
      obtain ⟨c, hc, hclow, hcup⟩ := hrow j (by omega)
      have hy0 : 0 ≤ x ^ 2 ^ j := pow_nonneg hx0 _
      have hy1 : x ^ 2 ^ j ≤ 1 := pow_le_one₀ hx0 hx1
      have hc1 : (c.toNat : ℚ) / 128 ≤ 1 := hclow.trans hy1
      have hc128 : c.toNat ≤ 128 := by
        rw [div_le_one (by norm_num)] at hc1
        exact_mod_cast hc1
      -- what the multiplication leaves
      have hprod : load.toNat * c.toNat ≤ load.toNat * 128 := Nat.mul_le_mul_left _ hc128
      have hnext : ((load * c) >>> degradeShift).toNat = load.toNat * c.toNat / 128 := by
        rw [BitVec.toNat_ushiftRight, BitVec.toNat_mul, Nat.shiftRight_eq_div_pow,
          Nat.mod_eq_of_lt (by omega)]
        rfl
      have hle' : ((load * c) >>> degradeShift).toNat ≤ load.toNat := by
        rw [hnext]
        omega
      have hup' : (((load * c) >>> degradeShift).toNat : ℚ) ≤ load.toNat * (c.toNat / 128) := by
        rw [hnext, ← mul_div_assoc]
        exact_mod_cast Nat.cast_div_le (α := ℚ) (m := load.toNat * c.toNat) (n := 128)
      have hlow' : (load.toNat : ℚ) * (c.toNat / 128) ≤
          ((load * c) >>> degradeShift).toNat + 1 := by
        have hlt : load.toNat * c.toNat < (load.toNat * c.toNat / 128 + 1) * 128 := by omega
        rw [hnext, ← mul_div_assoc, div_le_iff₀ (by norm_num)]
        exact_mod_cast hlt.le
      have hdelta0 : 0 ≤ delta := (sub_nonneg.mpr he).trans hdelta
      have he' : (((load * c) >>> degradeShift).toNat : ℚ) ≤ e * x ^ 2 ^ j :=
        hup'.trans (mul_le_mul he hclow (by positivity) he0)
      have heL' : e * x ^ 2 ^ j ≤ L := (mul_le_of_le_one_right he0 hy1).trans heL
      have hdelta' : e * x ^ 2 ^ j - ((load * c) >>> degradeShift).toNat ≤
          delta + (L / 128 + 1) := by
        have hfirst : (e - load.toNat) * (c.toNat / 128) ≤ delta :=
          (mul_le_of_le_one_right (sub_nonneg.mpr he) hc1).trans hdelta
        have hsecond : e * (x ^ 2 ^ j - c.toNat / 128) ≤ L * (1 / 128) :=
          mul_le_mul heL (by linarith) (by linarith) hL0
        linarith
      have hpow : (x ^ 2 ^ j) ^ (2 * m + 1) = x ^ 2 ^ j * (x ^ 2 ^ (j + 1)) ^ m := by
        rw [pow_succ', pow_mul, ← pow_mul x, ← pow_succ]
      obtain ⟨r, hr, hle, hup, hlow⟩ := ih (j := j + 1) (n := m) (by omega) (by omega)
        (hle'.trans_lt hload) he' heL' hdelta' (mul_nonneg he0 hy0)
      refine ⟨r, ?_, hle.trans hle', ?_, ?_⟩
      · have hne : 2 * m + 1 ≠ 0 := by omega
        have hodd : (2 * m + 1) % 2 = 1 := by omega
        have hhalf : (2 * m + 1) / 2 = m := by omega
        rw [decayLoop, if_neg hne, if_pos hodd, hhalf, hc]
        exact hr
      · rwa [hpow, ← mul_assoc]
      · rw [hpow, ← mul_assoc]
        push_cast
        linarith

end Loop

/-- After `degrade_zero_ticks` less than `1 / 128` is left. -/
theorem decayFactor_pow_le {idx : Fin 5} (h0 : idx ≠ 0) {n : ℕ} (hn : degradeZeroTicks idx ≤ n) :
    decayFactor idx ^ n ≤ 1 / 128 := by
  refine (pow_le_pow_of_le_one (decayFactor_nonneg idx) (decayFactor_le_one idx) hn).trans ?_
  fin_cases idx
  · exact absurd rfl h0
  all_goals norm_num [decayFactor, degradeZeroTicks]

/-- No average lasts longer than 128 ticks. -/
theorem degradeZeroTicks_le (idx : Fin 5) : degradeZeroTicks idx ≤ 2 ^ 7 := by
  fin_cases idx <;> decide

/-- The table never yields more than the exact decay, and less only by a hundredth of the load for
each of the 7 columns, and rounding. -/
theorem decayLoadMissed_error {load missedUpdates : Long} {idx : Fin 5} (h0 : idx ≠ 0)
    (hload : load.toNat < 2 ^ 25) :
    ∃ r, decayLoadMissed load missedUpdates idx = some r ∧ r.toNat ≤ load.toNat ∧
      (r.toNat : ℚ) ≤ load.toNat * decayFactor idx ^ missedUpdates.toNat ∧
      load.toNat * decayFactor idx ^ missedUpdates.toNat - r.toNat ≤
        7 * ((load.toNat : ℚ) / 128 + 1) := by
  have hload0 : (0 : ℚ) ≤ load.toNat := Nat.cast_nonneg _
  unfold decayLoadMissed
  split_ifs with hnone hzero hone
  · -- no tick was missed
    refine ⟨load, rfl, le_rfl, ?_, ?_⟩
    · simp [hnone]
    · have : (0 : ℚ) ≤ 7 * ((load.toNat : ℚ) / 128 + 1) := by positivity
      simpa [hnone] using this
  · -- so many that the answer is zero
    have hpow := decayFactor_pow_le h0 hzero
    refine ⟨0#32, rfl, Nat.zero_le _, ?_, ?_⟩
    · exact mul_nonneg hload0 (pow_nonneg (decayFactor_nonneg idx) _)
    · have hmul := mul_le_mul_of_nonneg_left hpow hload0
      change (load.toNat : ℚ) * _ - 0 ≤ _
      linarith
  · -- the factor is one half: a shift
    subst hone
    have hhalf : decayFactor 1 ^ missedUpdates.toNat = 1 / 2 ^ missedUpdates.toNat := by
      have hval : decayFactor 1 = 1 / 2 := by norm_num [decayFactor]
      rw [hval, div_pow, one_pow]
    have hshift : (load >>> missedUpdates.toNat).toNat = load.toNat / 2 ^ missedUpdates.toNat := by
      rw [BitVec.toNat_ushiftRight, Nat.shiftRight_eq_div_pow]
    have hlt : load.toNat < (load.toNat / 2 ^ missedUpdates.toNat + 1) * 2 ^ missedUpdates.toNat :=
      (Nat.div_lt_iff_lt_mul (Nat.two_pow_pos _)).mp (Nat.lt_succ_self _)
    refine ⟨_, rfl, ?_, ?_, ?_⟩
    · rw [hshift]
      exact Nat.div_le_self _ _
    · rw [hshift, hhalf, mul_one_div]
      exact_mod_cast Nat.cast_div_le (α := ℚ) (m := load.toNat) (n := 2 ^ missedUpdates.toNat)
    · rw [hshift, hhalf, mul_one_div]
      have hdiv : (load.toNat : ℚ) / 2 ^ missedUpdates.toNat ≤
          (load.toNat / 2 ^ missedUpdates.toNat : ℕ) + 1 := by
        rw [div_le_iff₀ (by positivity)]
        exact_mod_cast hlt.le
      linarith
  · -- the loop over the seven bits of the number
    have hn : missedUpdates.toNat < 2 ^ 7 :=
      lt_of_lt_of_le (Nat.lt_of_not_le hzero) (degradeZeroTicks_le idx)
    have hself : (load.toNat : ℚ) - load.toNat ≤ 0 := (sub_self _).le
    obtain ⟨r, hr, hle, hup, hlow⟩ := decayLoop_spec (approximates_degradeFactor h0 hone)
      (decayFactor_nonneg idx) (decayFactor_le_one idx) (j := 0) (k := 7) le_rfl hn hload le_rfl
      le_rfl hself
    rw [pow_zero, pow_one] at hup hlow
    refine ⟨r, hr, hle, hup, ?_⟩
    linarith

/-- Ten missed ticks. -/
theorem decayLoadMissed_error_ten : ∃ r, decayLoadMissed 1024#32 10#32 2 = some r ∧
    r.toNat ≤ (1024#32).toNat ∧
    (r.toNat : ℚ) ≤ (1024#32).toNat * decayFactor 2 ^ (10#32).toNat ∧
    (1024#32).toNat * decayFactor 2 ^ (10#32).toNat - r.toNat ≤
      7 * (((1024#32).toNat : ℚ) / 128 + 1) :=
  decayLoadMissed_error (by decide) (by decide)

/-! ## Averages -/

/-- An average moves towards its input. The distance to it is decayed exactly: without the
rounding up "we would get stuck on 9 if the load is 10". -/
theorem averageLoad_dist {oldLoad newLoad : Long} {i : Fin 5} (h0 : i ≠ 0)
    (hold : oldLoad.toNat < 2 ^ 25) (hnew : newLoad.toNat < 2 ^ 25) :
    Nat.dist (averageLoad oldLoad newLoad i).toNat newLoad.toNat =
        Nat.dist oldLoad.toNat newLoad.toNat * (2 ^ i.val - 1) / 2 ^ i.val ∧
      (averageLoad oldLoad newLoad i).toNat ≤ max oldLoad.toNat newLoad.toNat := by
  have hscale : ∀ k : Fin 5, ((1#32 <<< k.val) - 1).toNat = 2 ^ k.val - 1 := by decide
  have hshift : (averageLoad oldLoad newLoad i).toNat =
      (oldLoad.toNat * (2 ^ i.val - 1) +
        if oldLoad.toNat < newLoad.toNat then newLoad.toNat + (2 ^ i.val - 1) else newLoad.toNat) /
        2 ^ i.val := by
    -- the products stay below 2 ^ 29
    have hi : 2 ^ i.val - 1 ≤ 15 := by revert i; decide
    have hmul := Nat.mul_le_mul_left oldLoad.toNat hi
    simp only [averageLoad, BitVec.lt_def]
    split_ifs
    · rw [BitVec.toNat_ushiftRight, BitVec.toNat_add, BitVec.toNat_add, BitVec.toNat_mul, hscale,
        Nat.shiftRight_eq_div_pow]
      congr 1
      omega
    · rw [BitVec.toNat_ushiftRight, BitVec.toNat_add, BitVec.toNat_mul, hscale,
        Nat.shiftRight_eq_div_pow]
      congr 1
      omega
  rw [hshift, Nat.dist, Nat.dist]
  generalize oldLoad.toNat = a at *
  generalize newLoad.toNat = b at *
  -- the four rows by linear arithmetic
  fin_cases i
  · exact absurd rfl h0
  all_goals
    simp only []
    split_ifs <;> omega

/-! ## Runs -/

namespace CpuLoad

variable {s : CpuLoad} {m : ℕ}

/-- One average stays at most `m`. -/
theorem updateIdx_le (hm : m < 2 ^ 25) (hweight : s.weight.toNat ≤ m) {i : Fin 5} (h0 : i ≠ 0)
    (hload : (s.cpuLoad i).toNat ≤ m) (pendingUpdates : Long) :
    ∃ load, s.updateIdx pendingUpdates i = some load ∧ load.toNat ≤ m := by
  obtain ⟨oldLoad, hold, hle, -⟩ :=
    @decayLoadMissed_error (s.cpuLoad i) (pendingUpdates - 1) i h0 (hload.trans_lt hm)
  refine ⟨averageLoad oldLoad s.weight i, by rw [updateIdx, hold], ?_⟩
  have havg := (averageLoad_dist h0 (hle.trans_lt (hload.trans_lt hm)) (hweight.trans_lt hm)).2
  exact havg.trans (max_le (hle.trans hload) hweight)

/-- The call does its work when a tick has passed. -/
theorem updateCpuLoad_of_ne (htick : s.jiffies ≠ s.lastLoadUpdateTick) {load : Fin 5 → Long}
    (h : ∀ i, i ≠ 0 → s.updateIdx (s.jiffies - s.lastLoadUpdateTick) i = some (load i)) :
    s.updateCpuLoad = some { s with
      nrLoadUpdates := s.nrLoadUpdates + 1
      lastLoadUpdateTick := s.jiffies
      cpuLoad := ![s.weight, load 1, load 2, load 3, load 4] } := by
  -- the loop does not read `nr_load_updates`
  have hsame : ∀ i n, updateIdx { s with nrLoadUpdates := n } (s.jiffies - s.lastLoadUpdateTick) i =
      s.updateIdx (s.jiffies - s.lastLoadUpdateTick) i := fun _ _ => rfl
  simp only [updateCpuLoad, if_neg htick, hsame]
  rw [h 1 (by decide), h 2 (by decide), h 3 (by decide), h 4 (by decide)]
  rfl

/-- `update_cpu_load` does not read outside the table, and keeps the bound. -/
theorem updateCpuLoad_le (hm : m < 2 ^ 25) (hweight : s.weight.toNat ≤ m)
    (hload : ∀ i, (s.cpuLoad i).toNat ≤ m) :
    ∃ t, s.updateCpuLoad = some t ∧ t.weight = s.weight ∧ ∀ i, (t.cpuLoad i).toNat ≤ m := by
  by_cases htick : s.jiffies = s.lastLoadUpdateTick
  · exact ⟨_, if_pos htick, rfl, hload⟩
  · have hidx : ∀ i, ∃ load : Long, i ≠ 0 →
        s.updateIdx (s.jiffies - s.lastLoadUpdateTick) i = some load ∧ load.toNat ≤ m := by
      intro i
      by_cases h0 : i = 0
      · exact ⟨0, fun hne => absurd h0 hne⟩
      · obtain ⟨load, h⟩ := updateIdx_le hm hweight h0 (hload i) (s.jiffies - s.lastLoadUpdateTick)
        exact ⟨load, fun _ => h⟩
    choose load hload' using hidx
    refine ⟨_, updateCpuLoad_of_ne htick fun i h0 => (hload' i h0).1, rfl, fun i => ?_⟩
    fin_cases i
    · exact hweight
    · exact (hload' 1 (by decide)).2
    · exact (hload' 2 (by decide)).2
    · exact (hload' 3 (by decide)).2
    · exact (hload' 4 (by decide)).2

/-- One tick with a steady load. -/
theorem updateCpuLoad_steady (hm : m < 2 ^ 25) (hweight : s.weight.toNat ≤ m)
    (hload : ∀ i, (s.cpuLoad i).toNat ≤ m) (htick : s.jiffies = s.lastLoadUpdateTick + 1) :
    ∃ t, s.updateCpuLoad = some t ∧ t.weight = s.weight ∧ t.jiffies = t.lastLoadUpdateTick ∧
      (∀ i, (t.cpuLoad i).toNat ≤ m) ∧ ∀ i, i ≠ 0 →
        Nat.dist (t.cpuLoad i).toNat s.weight.toNat =
          Nat.dist (s.cpuLoad i).toNat s.weight.toNat * (2 ^ i.val - 1) / 2 ^ i.val := by
  -- exactly one tick has passed, so nothing decays in bulk
  have hone : s.jiffies - s.lastLoadUpdateTick = 1 := by
    rw [htick]
    exact add_sub_cancel_left _ _
  have hne : s.jiffies ≠ s.lastLoadUpdateTick := by
    intro heq
    rw [heq, sub_self] at hone
    exact absurd hone (by decide)
  have hidx : ∀ i, i ≠ 0 → s.updateIdx (s.jiffies - s.lastLoadUpdateTick) i =
      some (averageLoad (s.cpuLoad i) s.weight i) := by
    intro i _
    rw [hone]
    rfl
  have havg := fun i (h0 : i ≠ 0) =>
    averageLoad_dist h0 ((hload i).trans_lt hm) (hweight.trans_lt hm)
  have hle := fun i (h0 : i ≠ 0) => (havg i h0).2.trans (max_le (hload i) hweight)
  refine ⟨_, updateCpuLoad_of_ne hne hidx, rfl, rfl, fun i => ?_, fun i h0 => ?_⟩
  · fin_cases i
    · exact hweight
    · exact hle 1 (by decide)
    · exact hle 2 (by decide)
    · exact hle 3 (by decide)
    · exact hle 4 (by decide)
  · fin_cases i
    · exact absurd rfl h0
    · exact (havg 1 h0).1
    · exact (havg 2 h0).1
    · exact (havg 3 h0).1
    · exact (havg 4 h0).1

/-- A load of 10 has appeared on an idle CPU. -/
def fresh : CpuLoad where
  jiffies := 0#32
  weight := 10#32
  cpuLoad _ := 0#32
  lastLoadUpdateTick := 0#32
  nrLoadUpdates := 0#32

end CpuLoad

open CpuLoad

variable {s : CpuLoad}

/-- Whatever the load does and however many ticks are missed, the averages do not exceed the largest
load so far, and `decay_load_missed` finds its factors in the table. -/
theorem run_cpuLoad {m : ℕ} (hm : m < 2 ^ 25) (hweight : s.weight.toNat ≤ m)
    (hload : ∀ i, (s.cpuLoad i).toNat ≤ m) {ops : List CpuLoadOp}
    (hops : ∀ weight, .weight weight ∈ ops → weight.toNat ≤ m) :
    ∃ t, s.run ops = some t ∧ ∀ i, (t.cpuLoad i).toNat ≤ m := by
  induction ops generalizing s with
  | nil => exact ⟨s, rfl, hload⟩
  | cons op ops ih =>
    have hrest := fun weight hmem => hops weight (List.mem_cons_of_mem op hmem)
    cases op with
    | weight weight => exact ih (hops weight List.mem_cons_self) hload hrest
    | ticks ticks => exact ih hweight hload hrest
    | updateCpuLoad =>
      obtain ⟨t, ht, hsame, hload'⟩ := updateCpuLoad_le hm hweight hload
      obtain ⟨u, hu, hload''⟩ := ih (hsame ▸ hweight) hload' hrest
      refine ⟨u, ?_, hload''⟩
      rw [run, CpuLoad.next, ht]
      exact hu

/-- A load that falls, with missed ticks. -/
theorem run_cpuLoad_fresh :
    ∃ t, fresh.run [.ticks 3#32, .updateCpuLoad, .weight 7#32, .ticks 1#32, .updateCpuLoad] =
      some t ∧ ∀ i, (t.cpuLoad i).toNat ≤ 10 :=
  run_cpuLoad (by decide) (by decide) (fun _ => Nat.zero_le 10) fun weight hmem => by
    simp only [List.mem_cons, CpuLoadOp.weight.injEq, reduceCtorEq, List.not_mem_nil, or_false,
      false_or] at hmem
    rw [hmem]
    decide

/-- With a steady load the distance of each average to it shrinks by the factor of its horizon at
every tick, and vanishes: nothing gets stuck. -/
theorem run_steady (hweight : s.weight.toNat < 2 ^ 25) (hload : ∀ i, (s.cpuLoad i).toNat < 2 ^ 25)
    (htick : s.jiffies = s.lastLoadUpdateTick) (n : ℕ) :
    ∃ t, s.run (List.replicate n [.ticks 1, .updateCpuLoad]).flatten = some t ∧ ∀ i, i ≠ 0 →
      Nat.dist (t.cpuLoad i).toNat s.weight.toNat =
        (fun d => d * (2 ^ i.val - 1) / 2 ^ i.val)^[n]
          (Nat.dist (s.cpuLoad i).toNat s.weight.toNat) ∧
      (Nat.dist (s.cpuLoad i).toNat s.weight.toNat ≤ n → t.cpuLoad i = s.weight) := by
  induction n generalizing s with
  | zero =>
    refine ⟨s, rfl, fun i _ => ⟨rfl, fun hle => ?_⟩⟩
    exact BitVec.eq_of_toNat_eq (Nat.eq_of_dist_eq_zero (Nat.le_zero.mp hle))
  | succ n ih =>
    -- the first tick, then the others by induction
    obtain ⟨t, ht, hsame, htick', hload', hdist⟩ :=
      updateCpuLoad_steady (s := { s with jiffies := s.jiffies + 1 }) (m := 2 ^ 25 - 1) (by omega)
        (Nat.le_pred_of_lt hweight) (fun i => Nat.le_pred_of_lt (hload i)) (by rw [htick])
    obtain ⟨u, hu, hfinal⟩ := ih (hsame ▸ hweight)
      (fun i => (hload' i).trans_lt (by omega)) htick'
    rw [hsame] at hfinal
    refine ⟨u, ?_, fun i h0 => ?_⟩
    · rw [List.replicate_succ, List.flatten_cons]
      simp only [List.cons_append, List.nil_append, run, CpuLoad.next, ht]
      exact hu
    · obtain ⟨hiter, hreach⟩ := hfinal i h0
      have hstep := hdist i h0
      refine ⟨?_, fun hle => hreach ?_⟩
      · rw [Function.iterate_succ_apply, hiter, hstep]
      · -- every tick takes at least one off the distance
        have hless : Nat.dist (s.cpuLoad i).toNat s.weight.toNat * (2 ^ i.val - 1) / 2 ^ i.val ≤
            Nat.dist (s.cpuLoad i).toNat s.weight.toNat - 1 := by
          generalize Nat.dist (s.cpuLoad i).toNat s.weight.toNat = d
          fin_cases i
          · exact absurd rfl h0
          all_goals
            simp only []
            omega
        rw [hstep]
        refine hless.trans ?_
        omega

/-- Ten ticks from zero. -/
theorem run_steady_fresh :
    ∃ t, fresh.run (List.replicate 10 [.ticks 1, .updateCpuLoad]).flatten = some t ∧ ∀ i, i ≠ 0 →
      Nat.dist (t.cpuLoad i).toNat fresh.weight.toNat =
        (fun d => d * (2 ^ i.val - 1) / 2 ^ i.val)^[10]
          (Nat.dist (fresh.cpuLoad i).toNat fresh.weight.toNat) ∧
      (Nat.dist (fresh.cpuLoad i).toNat fresh.weight.toNat ≤ 10 → t.cpuLoad i = fresh.weight) :=
  run_steady (s := fresh) (by decide) (fun _ => Nat.two_pow_pos 25) rfl 10

end WrrSched
