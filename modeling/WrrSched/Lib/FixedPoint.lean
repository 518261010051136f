import Mathlib.Algebra.Order.Ring.Abs
import Mathlib.Algebra.Order.Field.GeomSum
import Mathlib.Data.Rat.Cast.Order
import Mathlib.Tactic.FieldSimp
import Mathlib.Tactic.GCongr
import Mathlib.Tactic.Linarith
import Mathlib.Tactic.Positivity
import Mathlib.Tactic.Ring

/-!
# Fixed-point arithmetic with rounding

Numbers with `f` fractional bits, that is multiples of `1 / 2 ^ f`, which a program keeps as natural
numbers and rounds to nearest after each multiplication.

- `abs_roundShift_sub_le`: the error of one rounding;
- `powRound_error`: the error of exponentiation by squaring, half a unit for each factor;
- `mean_error`, `min_le_mean`, `mean_le_max`: the weighted mean of two numbers;
- `moving_error`: the error of an exponential moving average, updated in bulk.
-/

namespace FixedPoint

variable {f : ℕ}

/-! ## Rounding -/

/-- `m / 2 ^ f`, rounded to nearest. -/
def roundShift (f m : ℕ) : ℕ := (m + 2 ^ (f - 1)) / 2 ^ f

/-- Rounding keeps the order. -/
theorem roundShift_mono {m n : ℕ} (h : m ≤ n) : roundShift f m ≤ roundShift f n :=
  Nat.div_le_div_right (Nat.add_le_add_right h _)

/-- Half a unit twice is a unit. -/
theorem two_pow_pred (hf : 0 < f) : 2 * 2 ^ (f - 1) = 2 ^ f := by
  rw [← Nat.pow_succ', Nat.succ_eq_add_one, Nat.sub_add_cancel hf]

/-- Numbers that need no rounding. -/
theorem roundShift_mul (hf : 0 < f) (a : ℕ) : roundShift f (a * 2 ^ f) = a := by
  have hpos : 0 < 2 ^ (f - 1) := by positivity
  have hlt : 2 ^ (f - 1) < 2 ^ f := by
    have := two_pow_pred hf
    omega
  rw [roundShift, Nat.mul_comm, Nat.mul_add_div (by positivity), Nat.div_eq_of_lt hlt, Nat.add_zero]

/-- Rounding changes a number by half a unit at most. -/
theorem abs_roundShift_sub_le (hf : 0 < f) (m : ℕ) :
    |(roundShift f m : ℚ) - m / 2 ^ f| ≤ 1 / 2 := by
  have hpow : (0 : ℚ) < 2 ^ f := by positivity
  have hhalf : (2 : ℚ) * 2 ^ (f - 1) = 2 ^ f := by exact_mod_cast two_pow_pred hf
  have hmod := Nat.mod_lt (m + 2 ^ (f - 1)) (Nat.two_pow_pos f)
  have hdiv := Nat.div_add_mod (m + 2 ^ (f - 1)) (2 ^ f)
  have hlow : (2 : ℚ) ^ f * roundShift f m ≤ m + 2 ^ (f - 1) := by
    exact_mod_cast (show 2 ^ f * roundShift f m ≤ m + 2 ^ (f - 1) by rw [roundShift]; omega)
  have hhigh : (m : ℚ) + 2 ^ (f - 1) < 2 ^ f * roundShift f m + 2 ^ f := by
    exact_mod_cast (show m + 2 ^ (f - 1) < 2 ^ f * roundShift f m + 2 ^ f by
      rw [roundShift]
      omega)
  rw [abs_le, neg_le_sub_iff_le_add, sub_le_iff_le_add, div_le_iff₀ hpow]
  refine ⟨by linarith, ?_⟩
  rw [← mul_le_mul_iff_left₀ hpow, add_mul, div_mul_cancel₀ _ hpow.ne']
  linarith

/-! ## Powers -/

/-- The product of two approximations of numbers in the unit interval. -/
theorem abs_mul_sub_mul_le {a b c d F e g : ℚ} (hF : 0 < F) (hb0 : 0 ≤ b) (hb : b ≤ F)
    (hc0 : 0 ≤ c) (hc : c ≤ F) (hac : |a - c| ≤ e) (hbd : |b - d| ≤ g) :
    |a * b / F - c * d / F| ≤ e + g := by
  have hsplit : a * b / F - c * d / F = (a - c) * (b / F) + c / F * (b - d) := by ring
  have hbF : |b / F| ≤ 1 := by
    rw [abs_of_nonneg (by positivity), div_le_one hF]
    exact hb
  have hcF : |c / F| ≤ 1 := by
    rw [abs_of_nonneg (by positivity), div_le_one hF]
    exact hc
  rw [hsplit]
  calc |(a - c) * (b / F) + c / F * (b - d)|
      ≤ |(a - c) * (b / F)| + |c / F * (b - d)| := abs_add_le _ _
    _ = |a - c| * |b / F| + |c / F| * |b - d| := by rw [abs_mul, abs_mul]
    _ ≤ |a - c| * 1 + 1 * |b - d| := by gcongr
    _ ≤ e + g := by linarith

/-- Exponentiation by squaring, with rounding: the loop for `result * x ^ n`. -/
def powLoop (f result x n : ℕ) : ℕ :=
  let result := if n % 2 = 1 then roundShift f (result * x) else result
  if n / 2 = 0 then result else powLoop f result (roundShift f (x * x)) (n / 2)
termination_by n
decreasing_by omega

/-- `x ^ n`. -/
def powRound (f x n : ℕ) : ℕ := if n = 0 then 2 ^ f else powLoop f (2 ^ f) x n

/-- A product of two numbers up to one is at most one. -/
theorem roundShift_mul_le (hf : 0 < f) {a b : ℕ} (ha : a ≤ 2 ^ f) (hb : b ≤ 2 ^ f) :
    roundShift f (a * b) ≤ 2 ^ f := by
  refine (roundShift_mono (Nat.mul_le_mul ha hb)).trans ?_
  rw [roundShift_mul hf]

/-- The loop stays at most one. -/
theorem powLoop_le (hf : 0 < f) {result x n : ℕ} (hr : result ≤ 2 ^ f) (hx : x ≤ 2 ^ f) :
    powLoop f result x n ≤ 2 ^ f := by
  have hmul := roundShift_mul_le hf hr hx
  induction result, x, n using powLoop.induct f with
  | case1 result x n hn =>
    rw [powLoop, if_pos hn]
    split_ifs
    · exact hmul
    · exact hr
  | case2 result x n next hn ih =>
    have hnext : next ≤ 2 ^ f := by
      simp only [next]
      split_ifs
      · exact hmul
      · exact hr
    have hsquare := roundShift_mul_le hf hx hx
    rw [powLoop, if_neg hn]
    exact ih hnext hsquare (roundShift_mul_le hf hnext hsquare)

/-- So does the power. -/
theorem powRound_le (hf : 0 < f) {x : ℕ} (hx : x ≤ 2 ^ f) (n : ℕ) : powRound f x n ≤ 2 ^ f := by
  unfold powRound
  split_ifs
  · exact le_rfl
  · exact powLoop_le hf le_rfl hx

/-- The first power is exact. -/
theorem powRound_one (hf : 0 < f) (x : ℕ) : powRound f x 1 = x := by
  rw [powRound, if_neg one_ne_zero, powLoop, if_pos rfl, if_pos rfl, Nat.mul_comm,
    roundShift_mul hf]

/-- One rounded multiplication of approximations. -/
theorem abs_roundShift_mul_sub_le (hf : 0 < f) {a b : ℕ} {A B e g : ℚ} (hb : b ≤ 2 ^ f)
    (hA0 : 0 ≤ A) (hA : A ≤ 2 ^ f) (ha : |(a : ℚ) - A| ≤ e) (hB : |(b : ℚ) - B| ≤ g) :
    |(roundShift f (a * b) : ℚ) - A * B / 2 ^ f| ≤ e + g + 1 / 2 := by
  have hround := abs_roundShift_sub_le hf (a * b)
  push_cast at hround
  have hmul := abs_mul_sub_mul_le (by positivity) (Nat.cast_nonneg b) (by exact_mod_cast hb) hA0 hA
    ha hB
  calc |(roundShift f (a * b) : ℚ) - A * B / 2 ^ f|
      ≤ |(roundShift f (a * b) : ℚ) - a * b / 2 ^ f| + |(a : ℚ) * b / 2 ^ f - A * B / 2 ^ f| :=
        abs_sub_le _ _ _
    _ ≤ e + g + 1 / 2 := by linarith

/-- What the loop still costs: the error of `result`, and that of each of the `n` factors. -/
theorem powLoop_error (hf : 0 < f) {result x n : ℕ} {R X e g : ℚ} (hx : x ≤ 2 ^ f) (hR0 : 0 ≤ R)
    (hR : R ≤ 2 ^ f) (hX0 : 0 ≤ X) (hX : X ≤ 2 ^ f) (hr : |(result : ℚ) - R| ≤ e)
    (hg : |(x : ℚ) - X| ≤ g) :
    |(powLoop f result x n : ℚ) - R * (X / 2 ^ f) ^ n| ≤ e + n * (g + 1 / 2) := by
  induction n using Nat.strong_induction_on generalizing result x R X e g with
  | _ n ih =>
    have hXF0 : 0 ≤ X / 2 ^ f := by positivity
    have hXF : X / 2 ^ f ≤ 1 := (div_le_one (by positivity)).mpr hX
    -- after the multiplication of this round, if there is one
    obtain ⟨result', R', e', hloop, hr', hR0', hR', hval, hcost⟩ : ∃ result' : ℕ, ∃ R' e' : ℚ,
        powLoop f result x n =
          (if n / 2 = 0 then result' else powLoop f result' (roundShift f (x * x)) (n / 2)) ∧
        |(result' : ℚ) - R'| ≤ e' ∧ 0 ≤ R' ∧ R' ≤ 2 ^ f ∧
        R * (X / 2 ^ f) ^ n = R' * ((X / 2 ^ f) ^ 2) ^ (n / 2) ∧
        e' + (n / 2 : ℕ) * (g + g + 1 / 2 + 1 / 2) = e + n * (g + 1 / 2) := by
      obtain ⟨m, rfl | rfl⟩ := Nat.even_or_odd' n
      · have hm : 2 * m / 2 = m := by omega
        refine ⟨result, R, e, ?_, hr, hR0, hR, ?_, ?_⟩
        · have heven : ¬2 * m % 2 = 1 := by omega
          rw [powLoop, if_neg heven]
        · rw [hm, pow_mul]
        · rw [hm]
          push_cast
          ring
      · have hm : (2 * m + 1) / 2 = m := by omega
        refine ⟨roundShift f (result * x), R * (X / 2 ^ f), e + g + 1 / 2, ?_, ?_, by positivity,
          (mul_le_of_le_one_right hR0 hXF).trans hR, ?_, ?_⟩
        · have hodd : (2 * m + 1) % 2 = 1 := by omega
          rw [powLoop, if_pos hodd]
        · rw [← mul_div_assoc]
          exact abs_roundShift_mul_sub_le hf hx hR0 hR hr hg
        · rw [hm, pow_succ, pow_mul]
          ring
        · rw [hm]
          push_cast
          ring
    rw [hloop, hval, ← hcost]
    by_cases hn : n / 2 = 0
    · rw [if_pos hn, hn, pow_zero, mul_one, Nat.cast_zero, zero_mul, add_zero]
      exact hr'
    · have hsquare := abs_roundShift_mul_sub_le hf hx hX0 hX hg hg
      have hsq : X * X / 2 ^ f / 2 ^ f = (X / 2 ^ f) ^ 2 := by ring
      have hsq1 : X * X / 2 ^ f ≤ 2 ^ f := by
        rw [mul_div_assoc]
        exact (mul_le_of_le_one_right hX0 hXF).trans hX
      rw [if_neg hn, ← hsq]
      exact ih (n / 2) (by omega) (roundShift_mul_le hf hx hx) hR0' hR' (by positivity) hsq1 hr'
        hsquare

/-- Exponentiation by squaring loses half a unit for each factor at most. -/
theorem powRound_error (hf : 0 < f) {x : ℕ} (hx : x ≤ 2 ^ f) (n : ℕ) :
    |(powRound f x n : ℚ) - 2 ^ f * (x / 2 ^ f) ^ n| ≤ n / 2 := by
  have hF : (0 : ℚ) ≤ 2 ^ f := by positivity
  unfold powRound
  split_ifs with hn
  · simp [hn]
  · have hone : |((2 ^ f : ℕ) : ℚ) - 2 ^ f| ≤ 0 := by simp
    have hself : |(x : ℚ) - x| ≤ 0 := by simp
    have herror := powLoop_error (n := n) hf hx hF le_rfl (Nat.cast_nonneg x)
      (by exact_mod_cast hx) hone hself
    linarith

/-! ## Weighted means -/

/-- The mean of `a` and `b` with weights `w / 2 ^ f` and `1 - w / 2 ^ f`. -/
def mean (f w a b : ℕ) : ℕ := roundShift f (a * w + b * (2 ^ f - w))

variable {w a b : ℕ}

/-- A mean is not above both numbers. -/
theorem mean_le_max (hf : 0 < f) (hw : w ≤ 2 ^ f) : mean f w a b ≤ max a b := by
  have hle : a * w + b * (2 ^ f - w) ≤ max a b * 2 ^ f := by
    calc a * w + b * (2 ^ f - w) ≤ max a b * w + max a b * (2 ^ f - w) := by
          gcongr
          · exact le_max_left a b
          · exact le_max_right a b
      _ = max a b * 2 ^ f := by rw [← Nat.mul_add, Nat.add_sub_cancel' hw]
  exact (roundShift_mono hle).trans (roundShift_mul hf _).le

/-- Nor below both. -/
theorem min_le_mean (hf : 0 < f) (hw : w ≤ 2 ^ f) : min a b ≤ mean f w a b := by
  have hle : min a b * 2 ^ f ≤ a * w + b * (2 ^ f - w) := by
    calc min a b * 2 ^ f = min a b * w + min a b * (2 ^ f - w) := by
          rw [← Nat.mul_add, Nat.add_sub_cancel' hw]
      _ ≤ a * w + b * (2 ^ f - w) := by
          gcongr
          · exact min_le_left a b
          · exact min_le_right a b
  exact (roundShift_mul hf _).ge.trans (roundShift_mono hle)

/-- The mean is not farther from `b` than `a` is. -/
theorem abs_mean_sub_le (hf : 0 < f) (hw : w ≤ 2 ^ f) :
    |(mean f w a b : ℚ) - b| ≤ |(a : ℚ) - b| := by
  have hmax : (mean f w a b : ℚ) ≤ max (a : ℚ) b := by exact_mod_cast mean_le_max hf hw
  have hmin : min (a : ℚ) b ≤ mean f w a b := by exact_mod_cast min_le_mean hf hw
  have hle := le_abs_self ((a : ℚ) - b)
  have hge := neg_le_abs ((a : ℚ) - b)
  rw [abs_le]
  constructor
  · obtain h | h := min_choice (a : ℚ) b <;> linarith [abs_nonneg ((a : ℚ) - b)]
  · obtain h | h := max_choice (a : ℚ) b <;> linarith [abs_nonneg ((a : ℚ) - b)]

/-- A mean is off by at most half a unit. -/
theorem mean_error (hf : 0 < f) (hw : w ≤ 2 ^ f) :
    |(mean f w a b : ℚ) - (b + (a - b) * (w / 2 ^ f))| ≤ 1 / 2 := by
  have hround := abs_roundShift_sub_le hf (a * w + b * (2 ^ f - w))
  have hcast : ((a * w + b * (2 ^ f - w) : ℕ) : ℚ) / 2 ^ f = b + (a - b) * (w / 2 ^ f) := by
    rw [Nat.cast_add, Nat.cast_mul, Nat.cast_mul, Nat.cast_sub hw]
    push_cast
    field_simp
    ring
  rwa [hcast] at hround

/-! ## Moving averages -/

/-- A moving average is updated in bulk, for `n` periods with the same input `b`. It differs from an
ideal average `A` at first, by `e`, and from its input by `D`. -/
theorem moving_error (hf : 0 < f) (hw : w ≤ 2 ^ f) {n : ℕ} (hn : 0 < n) {A e D : ℚ}
    (he : |(a : ℚ) - A| ≤ e) (hD : |(a : ℚ) - b| ≤ D) :
    |(mean f (powRound f w n) a b : ℚ) - (b + (A - b) * (w / 2 ^ f) ^ n)| ≤
      e + n * ((D / 2 ^ f + 1) / 2) := by
  have hF : (0 : ℚ) < 2 ^ f := by positivity
  have hmean := mean_error (a := a) (b := b) hf (powRound_le hf hw n)
  have hpow := powRound_error hf hw n
  have hx0 : (0 : ℚ) ≤ (w / 2 ^ f) ^ n := by positivity
  have hx1 : ((w : ℚ) / 2 ^ f) ^ n ≤ 1 :=
    pow_le_one₀ (by positivity) ((div_le_one hF).mpr (by exact_mod_cast hw))
  have hn1 : (1 : ℚ) ≤ n := by exact_mod_cast hn
  set P : ℚ := (powRound f w n : ℚ)
  set x : ℚ := ((w : ℚ) / 2 ^ f) ^ n
  -- the error of the power, and the one that was there before
  have hsplit : (b + (a - b) * (P / 2 ^ f)) - (b + (A - b) * x) =
      (a - b) * ((P - 2 ^ f * x) / 2 ^ f) + (a - A) * x := by
    field_simp
    ring
  have hfactor : |((a : ℚ) - b) * ((P - 2 ^ f * x) / 2 ^ f)| ≤ D * (n / 2 / 2 ^ f) := by
    rw [abs_mul, abs_div, abs_of_pos hF]
    gcongr
    exact (abs_nonneg _).trans hD
  have hstart : |((a : ℚ) - A) * x| ≤ e := by
    rw [abs_mul, abs_of_nonneg hx0]
    exact (mul_le_of_le_one_right (abs_nonneg _) hx1).trans he
  calc |(mean f (powRound f w n) a b : ℚ) - (b + (A - b) * x)|
      ≤ |(mean f (powRound f w n) a b : ℚ) - (b + (a - b) * (P / 2 ^ f))| +
          |(b + (a - b) * (P / 2 ^ f)) - (b + (A - b) * x)| := abs_sub_le _ _ _
    _ ≤ 1 / 2 + (D * (n / 2 / 2 ^ f) + e) := by
        rw [hsplit]
        exact add_le_add hmean ((abs_add_le _ _).trans (add_le_add hfactor hstart))
    _ ≤ e + n * ((D / 2 ^ f + 1) / 2) := by
        have hring : D * (n / 2 / 2 ^ f) = n * (D / 2 ^ f) / 2 := by ring
        rw [hring]
        linarith

end FixedPoint
