import Mathlib

/-!
# Gaussian updates in information form

A prior covariance `P` that meets an information matrix `A` has the posterior covariance
`(A + P⁻¹)⁻¹`.  A filter computes it as `(1 - G) * P` with the gain `G = (A + P⁻¹)⁻¹ * A`; the
product is symmetric only because it is that inverse (`one_sub_gain_mul`).  A measurement that
sees the first few coordinates has an information matrix with one non-zero corner, and then the
gain needs only that many columns of the inverse (`gain_setCorner`).

Positive definiteness, in the sense of `Matrix.PosDef`, passes from the prior to the posterior
(`posterior_posDef`), and through a propagation by an invertible matrix with additive noise
(`propagated_posDef`).
-/

namespace FastLivo2

open Matrix

/-! ## Corners -/

section Corner

variable {K : Type*} [CommRing K] {a b c d : ℕ}

/-- Overwrite the upper left corner. -/
def setCorner (M : Matrix (Fin a) (Fin b) K) (B : Matrix (Fin c) (Fin d) K) :
    Matrix (Fin a) (Fin b) K :=
  fun i j => if h : i.val < c ∧ j.val < d then B ⟨i, h.1⟩ ⟨j, h.2⟩ else M i j

/-- The first `d` columns. -/
def leadCols (M : Matrix (Fin a) (Fin b) K) (h : d ≤ b) : Matrix (Fin a) (Fin d) K :=
  M.submatrix id (Fin.castLE h)

/-- Columns of zeros after those there are. -/
def padCols (b : ℕ) {m : Type*} (H : Matrix m (Fin d) K) : Matrix m (Fin b) K :=
  fun i j => if h : j.val < d then H i ⟨j, h⟩ else 0

/-- The first `d` coordinates, as a matrix. -/
def leadSel (K : Type*) [CommRing K] (b d : ℕ) : Matrix (Fin d) (Fin b) K :=
  fun i j => if i.val = j.val then 1 else 0

omit [CommRing K] in
lemma setCorner_setCorner (M : Matrix (Fin a) (Fin b) K) (B B' : Matrix (Fin c) (Fin d) K) :
    setCorner (setCorner M B) B' = setCorner M B' := by
  ext i j
  by_cases h : i.val < c ∧ j.val < d <;> simp [setCorner, h]

lemma mul_leadSel {m : Type*} (H : Matrix m (Fin d) K) : H * leadSel K b d = padCols b H := by
  ext i j
  simp only [Matrix.mul_apply, leadSel, padCols, mul_ite, mul_one, mul_zero]
  by_cases h : j.val < d
  · rw [dif_pos h, Finset.sum_eq_single (⟨j, h⟩ : Fin d)]
    · simp
    · intro k _ hk
      refine if_neg fun hval => hk ?_
      exact Fin.ext hval
    · exact fun hmem => absurd (Finset.mem_univ _) hmem
  · rw [dif_neg h]
    refine Finset.sum_eq_zero fun k _ => if_neg ?_
    have := k.isLt
    omega

lemma padCols_mul {m m' : Type*} [Fintype m'] (D : Matrix m m' K) (H : Matrix m' (Fin d) K) :
    padCols b (D * H) = D * padCols b H := by
  rw [← mul_leadSel, ← mul_leadSel, Matrix.mul_assoc]

lemma leadCols_eq_mul (M : Matrix (Fin a) (Fin b) K) (h : d ≤ b) :
    leadCols M h = M * (leadSel K b d)ᵀ := by
  ext i j
  simp only [leadCols, Matrix.submatrix_apply, id_eq, Matrix.mul_apply, Matrix.transpose_apply,
    leadSel, mul_ite, mul_one, mul_zero]
  rw [Finset.sum_eq_single (Fin.castLE h j)]
  · simp
  · intro k _ hk
    refine if_neg fun hval => hk ?_
    exact Fin.ext hval.symm
  · exact fun hmem => absurd (Finset.mem_univ _) hmem

/-- A block of all rows and the first columns, written over zeros. -/
lemma setCorner_zero_left (B : Matrix (Fin a) (Fin d) K) :
    setCorner (0 : Matrix (Fin a) (Fin b) K) B = B * leadSel K b d := by
  rw [mul_leadSel]
  ext i j
  by_cases h : j.val < d <;> simp [setCorner, padCols, h]

/-- The information of rows that see the first coordinates, written as a corner. -/
lemma setCorner_gram {m : Type*} [Fintype m] (H : Matrix m (Fin d) K) (H' : Matrix m (Fin d) K) :
    setCorner (0 : Matrix (Fin b) (Fin b) K) (Hᵀ * H') = (padCols b H)ᵀ * padCols b H' := by
  ext i j
  simp only [setCorner, Matrix.mul_apply, Matrix.transpose_apply, padCols]
  by_cases hi : i.val < d <;> by_cases hj : j.val < d <;> simp [hi, hj]

/-- The columns of the gain outside the corner vanish, so those inside are the whole gain. -/
theorem gain_setCorner {m : Type*} [Fintype m] (M : Matrix (Fin b) (Fin b) K) (h : d ≤ b)
    (H H' : Matrix m (Fin d) K) :
    setCorner (0 : Matrix (Fin b) (Fin b) K) (leadCols M h * (Hᵀ * H')) =
      M * ((padCols b H)ᵀ * padCols b H') := by
  rw [setCorner_zero_left, leadCols_eq_mul, ← mul_leadSel, ← mul_leadSel, Matrix.transpose_mul]
  simp only [Matrix.mul_assoc]

end Corner

/-! ## The posterior -/

section Posterior

variable {n m K : Type*} [Fintype n] [DecidableEq n] [Fintype m] [Field K]

/-- The covariance once the information `A` has been added to the prior `P`. -/
noncomputable def posterior (A P : Matrix n n K) : Matrix n n K := (A + P⁻¹)⁻¹

/-- **The form a filter computes.**  One minus the gain, times the prior, is the posterior. -/
theorem one_sub_gain_mul {A P : Matrix n n K} (hP : IsUnit P) (hA : IsUnit (A + P⁻¹)) :
    (1 - posterior A P * A) * P = posterior A P := by
  have hdetA := (Matrix.isUnit_iff_isUnit_det _).mp hA
  have hdetP := (Matrix.isUnit_iff_isUnit_det _).mp hP
  have hone : posterior A P * (A + P⁻¹) = 1 := Matrix.nonsing_inv_mul _ hdetA
  calc (1 - posterior A P * A) * P
      = (posterior A P * (A + P⁻¹) - posterior A P * A) * P := by rw [hone]
    _ = posterior A P * P⁻¹ * P := by rw [mul_add, add_sub_cancel_left]
    _ = posterior A P := by rw [mul_assoc, Matrix.nonsing_inv_mul _ hdetP, mul_one]

/-- The gain of a prior divided by a noise variance is that of the information divided by it. -/
theorem scaled_gain_eq {A P : Matrix n n K} {c : K} (hc : c ≠ 0) (hP : IsUnit P) :
    (A + (c⁻¹ • P)⁻¹)⁻¹ * A = posterior (c⁻¹ • A) P * (c⁻¹ • A) := by
  have hdetP := (Matrix.isUnit_iff_isUnit_det _).mp hP
  have hinv : (c⁻¹ • P)⁻¹ = c • P⁻¹ := by
    refine Matrix.inv_eq_left_inv ?_
    rw [smul_mul_smul_comm, mul_inv_cancel₀ hc, Matrix.nonsing_inv_mul _ hdetP, one_smul]
  have hsum : A + c • P⁻¹ = c • (c⁻¹ • A + P⁻¹) := by
    rw [smul_add, smul_smul, mul_inv_cancel₀ hc, one_smul]
  rw [hinv, hsum, posterior]
  by_cases hdet : IsUnit (c⁻¹ • A + P⁻¹).det
  · have hscale : (c • (c⁻¹ • A + P⁻¹))⁻¹ = c⁻¹ • (c⁻¹ • A + P⁻¹)⁻¹ := by
      refine Matrix.inv_eq_left_inv ?_
      rw [smul_mul_smul_comm, inv_mul_cancel₀ hc, Matrix.nonsing_inv_mul _ hdet, one_smul]
    rw [hscale, smul_mul_assoc, mul_smul_comm]
  · have hdet' : ¬IsUnit (c • (c⁻¹ • A + P⁻¹)).det := by
      rw [Matrix.det_smul, IsUnit.mul_iff]
      exact fun h => hdet h.2
    rw [Matrix.nonsing_inv_apply_not_isUnit _ hdet, Matrix.nonsing_inv_apply_not_isUnit _ hdet',
      zero_mul, zero_mul]

end Posterior

/-! ## Positive definiteness -/

section PosDef

variable {n m K : Type*} [Fintype n] [DecidableEq n] [Fintype m] [Field K] [PartialOrder K]
  [StarRing K] [StarOrderedRing K]

/-- Information added to a positive definite prior leaves an invertible sum. -/
lemma isUnit_add_inv {A P : Matrix n n K} (hA : A.PosSemidef) (hP : P.PosDef) :
    IsUnit (A + P⁻¹) :=
  (hP.inv.posSemidef_add hA).isUnit

/-- **The posterior of a positive definite prior is positive definite.** -/
theorem posterior_posDef {A P : Matrix n n K} (hA : A.PosSemidef) (hP : P.PosDef) :
    (posterior A P).PosDef :=
  (hP.inv.posSemidef_add hA).inv

omit [DecidableEq n] in
/-- Rows weighted by the inverses of their variances give positive semidefinite information. -/
lemma weighted_gram_posSemidef [DecidableEq m] (H : Matrix m n K) {w : m → K} (hw : 0 ≤ w) :
    (Hᴴ * diagonal w * H).PosSemidef :=
  (PosSemidef.diagonal hw).conjTranspose_mul_mul_same H

/-- **Propagation.**  An invertible transition and positive semidefinite noise keep a covariance
positive definite. -/
theorem propagated_posDef {F P W : Matrix n n K} (hF : IsUnit F) (hP : P.PosDef)
    (hW : W.PosSemidef) : (F * P * Fᴴ + W).PosDef := by
  refine PosDef.add_posSemidef ?_ hW
  exact hP.mul_mul_conjTranspose_same (Matrix.vecMul_injective_of_isUnit hF)

end PosDef

end FastLivo2
