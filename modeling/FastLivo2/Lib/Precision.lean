import Mathlib

/-!
# Rounding to a binary precision

`roundEven` rounds to the nearest integer, a half to the even one, and `toPrecision p` to the
nearest number of `p` binary digits in the same way: `toFloat` has `p = 24`, `toDouble` has
`p = 53`.  Exponents have no bounds, so that neither overflow nor the loss of digits next to zero
is part of it.

Rounding is monotone (`toPrecision_mono`), keeps what has `p` digits (`toPrecision_of_digits`), and
commutes with powers of two (`toPrecision_mul_zpow`).
-/

namespace FastLivo2

/-! ## To an integer -/

/-- The nearest integer, or of two the even one. -/
def roundEven (x : ℚ) : ℤ :=
  if x - ⌊x⌋ < 1 / 2 then ⌊x⌋
  else if 1 / 2 < x - ⌊x⌋ then ⌊x⌋ + 1
  else if Even ⌊x⌋ then ⌊x⌋ else ⌊x⌋ + 1

lemma floor_le_roundEven (x : ℚ) : ⌊x⌋ ≤ roundEven x := by
  unfold roundEven
  split_ifs <;> omega

lemma roundEven_le_floor (x : ℚ) : roundEven x ≤ ⌊x⌋ + 1 := by
  unfold roundEven
  split_ifs <;> omega

@[simp] lemma roundEven_intCast (n : ℤ) : roundEven n = n := by
  unfold roundEven
  rw [Int.floor_intCast, sub_self, if_pos (by norm_num)]

lemma roundEven_mono : Monotone roundEven := by
  intro x y hxy
  rcases (Int.floor_mono hxy).lt_or_eq with hlt | heq
  · calc roundEven x ≤ ⌊x⌋ + 1 := roundEven_le_floor x
      _ ≤ ⌊y⌋ := hlt
      _ ≤ roundEven y := floor_le_roundEven y
  · unfold roundEven
    rw [← heq]
    split_ifs <;> first | omega | linarith

/-! ## To a number of digits -/

/-- The weight of the last of `p` digits of a positive `x`. -/
def lastDigit (p : ℕ) (x : ℚ) : ℚ := 2 ^ (Int.log 2 x + 1 - p)

/-- A positive number, to the nearest of `p` digits. -/
def roundPos (p : ℕ) (x : ℚ) : ℚ := roundEven (x / lastDigit p x) * lastDigit p x

/-- The nearest number of `p` digits. -/
def toPrecision (p : ℕ) (x : ℚ) : ℚ := if 0 ≤ x then roundPos p x else -roundPos p (-x)

/-- The nearest `float`. -/
abbrev toFloat : ℚ → ℚ := toPrecision 24

/-- The nearest `double`. -/
abbrev toDouble : ℚ → ℚ := toPrecision 53

variable {p : ℕ} {x y : ℚ}

lemma lastDigit_pos (p : ℕ) (x : ℚ) : 0 < lastDigit p x := zpow_pos (by norm_num) _

@[simp] lemma roundPos_zero (p : ℕ) : roundPos p 0 = 0 := by
  unfold roundPos
  have hround : roundEven 0 = 0 := by simpa using roundEven_intCast 0
  rw [zero_div, hround, Int.cast_zero, zero_mul]

lemma toPrecision_of_nonneg (h : 0 ≤ x) : toPrecision p x = roundPos p x := if_pos h

@[simp] lemma toPrecision_zero (p : ℕ) : toPrecision p 0 = 0 := by
  rw [toPrecision_of_nonneg le_rfl, roundPos_zero]

@[simp] lemma toPrecision_neg (p : ℕ) (x : ℚ) : toPrecision p (-x) = -toPrecision p x := by
  unfold toPrecision
  rcases lt_trichotomy x 0 with h | rfl | h
  · rw [if_pos (by linarith), if_neg (not_le.mpr h), neg_neg]
  · simp
  · rw [if_neg (by linarith), if_pos h.le, neg_neg]

/-- Between two powers of two, rounding stays between them. -/
lemma zpow_log_le_roundPos (hp : 0 < p) (hx : 0 < x) :
    (2 : ℚ) ^ Int.log 2 x ≤ roundPos p x ∧ roundPos p x ≤ 2 ^ (Int.log 2 x + 1) := by
  have hdigit := lastDigit_pos p x
  have hsplit : ∀ k : ℕ,
      (2 : ℚ) ^ (Int.log 2 x + 1 - p + k) = ((2 ^ k : ℤ) : ℚ) * lastDigit p x := by
    intro k
    rw [zpow_add₀ (by norm_num), lastDigit]
    push_cast
    rw [zpow_natCast, mul_comm]
  have hlow : (2 : ℚ) ^ Int.log 2 x = ((2 ^ (p - 1) : ℤ) : ℚ) * lastDigit p x := by
    rw [← hsplit]
    congr 1
    omega
  have hhigh : (2 : ℚ) ^ (Int.log 2 x + 1) = ((2 ^ p : ℤ) : ℚ) * lastDigit p x := by
    rw [← hsplit]
    congr 1
    omega
  unfold roundPos
  constructor
  · have hle : ((2 ^ (p - 1) : ℤ) : ℚ) ≤ x / lastDigit p x := by
      rw [le_div_iff₀ hdigit, ← hlow]
      exact Int.zpow_log_le_self Nat.one_lt_two hx
    have hround := roundEven_mono hle
    rw [roundEven_intCast] at hround
    rw [hlow]
    exact mul_le_mul_of_nonneg_right (Int.cast_le.mpr hround) hdigit.le
  · have hle : x / lastDigit p x ≤ ((2 ^ p : ℤ) : ℚ) := by
      rw [div_le_iff₀ hdigit, ← hhigh]
      exact (Int.lt_zpow_succ_log_self Nat.one_lt_two x).le
    have hround := roundEven_mono hle
    rw [roundEven_intCast] at hround
    rw [hhigh]
    exact mul_le_mul_of_nonneg_right (Int.cast_le.mpr hround) hdigit.le

lemma roundPos_nonneg (hp : 0 < p) (hx : 0 ≤ x) : 0 ≤ roundPos p x := by
  rcases hx.eq_or_lt with rfl | hx
  · rw [roundPos_zero]
  · exact (zpow_pos (by norm_num) _).le.trans (zpow_log_le_roundPos hp hx).1

lemma roundPos_mono (hp : 0 < p) (hx : 0 ≤ x) (hxy : x ≤ y) : roundPos p x ≤ roundPos p y := by
  rcases hx.eq_or_lt with rfl | hx
  · rw [roundPos_zero]
    exact roundPos_nonneg hp hxy
  have hy := hx.trans_le hxy
  rcases (Int.log_mono_right (b := 2) hx hxy).lt_or_eq with hlog | hlog
  · -- a power of two lies between them
    calc roundPos p x ≤ 2 ^ (Int.log 2 x + 1) := (zpow_log_le_roundPos hp hx).2
      _ ≤ 2 ^ Int.log 2 y := zpow_le_zpow_right₀ (by norm_num) hlog
      _ ≤ roundPos p y := (zpow_log_le_roundPos hp hy).1
  · have hdigit : lastDigit p x = lastDigit p y := by rw [lastDigit, lastDigit, hlog]
    unfold roundPos
    rw [hdigit]
    have hpos := lastDigit_pos p y
    refine mul_le_mul_of_nonneg_right (Int.cast_le.mpr (roundEven_mono ?_)) hpos.le
    exact div_le_div_of_nonneg_right hxy hpos.le

/-- **Rounding is monotone.** -/
theorem toPrecision_mono (hp : 0 < p) : Monotone (toPrecision p) := by
  intro x y hxy
  unfold toPrecision
  split_ifs with hx hy hy
  · exact roundPos_mono hp hx hxy
  · exact absurd (hx.trans hxy) hy
  · exact (neg_nonpos.mpr (roundPos_nonneg hp (by linarith))).trans (roundPos_nonneg hp hy)
  · exact neg_le_neg (roundPos_mono hp (by linarith) (neg_le_neg hxy))

/-- Powers of two shift the digits. -/
lemma log_mul_zpow (hx : 0 < x) (k : ℤ) : Int.log 2 (x * 2 ^ k) = Int.log 2 x + k := by
  have hpow : (0 : ℚ) < 2 ^ k := by positivity
  have hlow := mul_le_mul_of_nonneg_right (Int.zpow_log_le_self Nat.one_lt_two hx) hpow.le
  have hhigh := mul_lt_mul_of_pos_right (Int.lt_zpow_succ_log_self Nat.one_lt_two x) hpow
  push_cast at hlow hhigh
  rw [← zpow_add₀ (by norm_num)] at hlow hhigh
  apply le_antisymm
  · have hlt :=
      (Int.lt_zpow_iff_log_lt Nat.one_lt_two (mul_pos hx hpow)).mp (by exact_mod_cast hhigh)
    omega
  · exact (Int.zpow_le_iff_le_log Nat.one_lt_two (mul_pos hx hpow)).mp (by exact_mod_cast hlow)

/-- **Rounding commutes with powers of two.** -/
theorem toPrecision_mul_zpow (p : ℕ) (hx : 0 ≤ x) (k : ℤ) :
    toPrecision p (x * 2 ^ k) = toPrecision p x * 2 ^ k := by
  rcases hx.eq_or_lt with rfl | hx
  · simp
  have hdigit : lastDigit p (x * 2 ^ k) = lastDigit p x * 2 ^ k := by
    rw [lastDigit, lastDigit, log_mul_zpow hx, ← zpow_add₀ (by norm_num)]
    congr 1
    ring
  have hpow : (2 : ℚ) ^ k ≠ 0 := by positivity
  rw [toPrecision_of_nonneg (by positivity), toPrecision_of_nonneg hx.le, roundPos, roundPos,
    hdigit, mul_div_mul_right _ _ hpow, mul_assoc]

/-- **What has `p` digits stays as it is.** -/
theorem toPrecision_of_digits {m : ℕ} (hm : m < 2 ^ p) (k : ℤ) :
    toPrecision p (m * 2 ^ k) = m * 2 ^ k := by
  rcases m.eq_zero_or_pos with rfl | hpos
  · simp
  have hx : (0 : ℚ) < m * 2 ^ k := by positivity
  have hlog : Int.log 2 ((m : ℚ) * 2 ^ k) < p + k := by
    rw [← Int.lt_zpow_iff_log_lt Nat.one_lt_two hx, zpow_add₀ (by norm_num), zpow_natCast]
    have hcast : (m : ℚ) < 2 ^ p := by exact_mod_cast hm
    exact mul_lt_mul_of_pos_right hcast (by positivity)
  rw [toPrecision_of_nonneg hx.le, roundPos]
  obtain ⟨j, hj⟩ := Int.eq_ofNat_of_zero_le
    (show 0 ≤ k - (Int.log 2 ((m : ℚ) * 2 ^ k) + 1 - p) by omega)
  have hdigit : (m : ℚ) * 2 ^ k = ((m * 2 ^ j : ℤ) : ℚ) * lastDigit p ((m : ℚ) * 2 ^ k) := by
    rw [lastDigit]
    push_cast
    rw [mul_assoc, ← zpow_natCast, ← zpow_add₀ (by norm_num)]
    congr 2
    omega
  have hne := (lastDigit_pos p ((m : ℚ) * 2 ^ k)).ne'
  have hquot : (m : ℚ) * 2 ^ k / lastDigit p ((m : ℚ) * 2 ^ k) = ((m * 2 ^ j : ℤ) : ℚ) := by
    rw [div_eq_iff hne]
    exact hdigit
  rw [hquot, roundEven_intCast]
  exact hdigit.symm

end FastLivo2
