import Mathlib.Algebra.Order.BigOperators.Group.Finset
import Mathlib.Data.Finset.Card
import Mathlib.Tactic.Common

/-!
# Counting in 32-bit unsigned words

A counter that is kept modulo `2 ^ 32` and is meant to hold a natural number `n` holds
`UInt32.ofNat n`. This file says how such a counter moves with `n`, when an addition or a
subtraction on it wraps (`addWraps`, `subWraps`), and how the number of elements that satisfy a
flag moves when one flag is set or cleared.
-/

namespace Counter

/-- The addition `a + b` of two 32-bit words loses a carry. -/
def addWraps (a b : UInt32) : Bool :=
  decide (2 ^ 32 ≤ a.toNat + b.toNat)

/-- The subtraction `a - b` of two 32-bit words borrows past the top. -/
def subWraps (a b : UInt32) : Bool :=
  decide (a.toNat < b.toNat)

/-- A word that is added to the counter is added to the number. -/
theorem ofNat_add_word (n : ℕ) (w : UInt32) :
    UInt32.ofNat n + w = UInt32.ofNat (n + w.toNat) := by
  rw [UInt32.ofNat_add, UInt32.ofNat_toNat]

/-- A word that is taken from the counter is taken from the number. -/
theorem ofNat_sub_word {n m : ℕ} {w : UInt32} (h : m + w.toNat = n) :
    UInt32.ofNat n - w = UInt32.ofNat m := by
  rw [← h, ← ofNat_add_word, UInt32.add_sub_cancel]

/-- A small number can be read off the counter. -/
theorem toNat_ofNat_of_lt {n : ℕ} (h : n < 2 ^ 32) : (UInt32.ofNat n).toNat = n := by
  rw [UInt32.toNat_ofNat', Nat.mod_eq_of_lt h]

/-- An addition does not wrap around while the number stays small. -/
theorem addWraps_ofNat_eq_false {n : ℕ} {w : UInt32} (h : n + w.toNat < 2 ^ 32) :
    addWraps (UInt32.ofNat n) w = false := by
  rw [addWraps, toNat_ofNat_of_lt (by omega), decide_eq_false_iff_not]
  omega

/-- A subtraction does not wrap around while the number is large enough. -/
theorem subWraps_ofNat_eq_false {n : ℕ} {w : UInt32} (hn : n < 2 ^ 32) (h : w.toNat ≤ n) :
    subWraps (UInt32.ofNat n) w = false := by
  rw [subWraps, toNat_ofNat_of_lt hn, decide_eq_false_iff_not]
  omega

/-- The difference of two words is kept when both move by the same amount. -/
theorem add_sub_add_right (a b c : UInt32) : a + c - (b + c) = a - b := by
  grind

theorem sub_sub_sub_right (a b c : UInt32) : a - c - (b - c) = a - b := by
  grind

section Flags

variable {α : Type*} [DecidableEq α] {s : Finset α} {p : α} {f g : α → Bool}

/-- Setting the flag of one element of `s` adds one to the number of flagged elements. -/
theorem card_filter_set (hp : p ∈ s) (hf : f p = false) (hg : g p = true)
    (h : ∀ q, q ≠ p → g q = f q) :
    (s.filter fun q => g q).card = (s.filter fun q => f q).card + 1 := by
  have hins : (s.filter fun q => g q) = insert p (s.filter fun q => f q) := by
    ext q
    by_cases hq : q = p
    · simp [hq, hp, hg]
    · simp [hq, h q hq]
  rw [hins, Finset.card_insert_of_notMem (by simp [hf])]

omit [DecidableEq α] in
/-- A flag that does not change inside `s` leaves the count. -/
theorem card_filter_congr (h : ∀ q ∈ s, g q = f q) :
    (s.filter fun q => g q).card = (s.filter fun q => f q).card := by
  rw [Finset.filter_congr fun q hq => by rw [h q hq]]

end Flags

end Counter
