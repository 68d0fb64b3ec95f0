import FastLivo2.StateEstimation
import FastLivo2.VisualPoint

/-!
# The covariance of a point

`calcBodyCov` of `voxel_map.cpp` gives a body point a range error along its direction and a bearing
error across it, by way of two base vectors orthogonal to the direction.  In exact arithmetic, over
the reals, the base vectors do not matter: the bearing error is the same in every direction across
(`calcBodyCov_eq`).  That the code narrows the range to a `float` is left out.

The callers turn the covariance into the world and add what the covariance of the pose contributes
(`worldVar`).  All of it is positive semidefinite.
-/

namespace FastLivo2

open Matrix

variable {K : Type} [Field K]

/-- `DEG2RAD`. -/
def deg2rad (x : K) : K := x * (17453293 / 1000000000)

/-- The point `calcBodyCov` goes on with, and leaves to its caller: never in the plane of the
sensor. -/
def liftPoint [DecidableEq K] (pb : Fin 3 → K) : Fin 3 → K :=
  if pb 2 = 0 then ![pb 0, pb 1, 1 / 10000] else pb

variable [LinearOrder K]

section BodyCov

variable (m : Libm K) (direction : Fin 3 → K)

/-- `base_vector1` before it is normalised. -/
def baseRay (direction : Fin 3 → K) : Fin 3 → K :=
  ![1, 1, -(direction 0 + direction 1) / direction 2]

/-- `base_vector1`. -/
def baseVector1 : Fin 3 → K := V3D.normalized m (baseRay direction)

/-- `base_vector2`. -/
def baseVector2 : Fin 3 → K := V3D.normalized m (crossProduct (baseVector1 m direction) direction)

/-- `N`: the base vectors as columns. -/
def baseVectors : Matrix (Fin 3) (Fin 2) K :=
  Matrix.of fun j => ![baseVector1 m direction j, baseVector2 m direction j]

end BodyCov

/-- `calcBodyCov`. -/
def calcBodyCov (m : Libm K) (rangeInc degreeInc : K) (pb : Fin 3 → K) :
    Matrix (Fin 3) (Fin 3) K :=
  let pb := liftPoint pb
  let range := m.sqrt (pb ⬝ᵥ pb)
  let rangeVar := rangeInc * rangeInc
  let directionVar : Matrix (Fin 2) (Fin 2) K := diagonal fun _ => m.sin (deg2rad degreeInc) ^ 2
  let direction := V3D.normalized m pb
  let A := range • skewSymMatrx direction * baseVectors m direction
  vecMulVec (rangeVar • direction) direction + A * directionVar * Aᵀ

/-- The covariance of a point in the world: that of the body turned by `R`, and those of rotation
and position. -/
def worldVar (R : M3D) (cov : MState) (p : V3D) (bodyCov : M3D) : M3D :=
  R * bodyCov * Rᵀ + -skewSymMatrx p * getBlock cov 0 0 * (-skewSymMatrx p)ᵀ + getBlock cov 3 3

/-! ## Positive semidefinite -/

lemma posSemidef_mul_mul_transpose {k l : Type*} [Fintype k] [Fintype l] [DecidableEq l]
    {A : Matrix l l ℚ} (hA : A.PosSemidef) (B : Matrix k l ℚ) : (B * A * Bᵀ).PosSemidef := by
  have h := hA.mul_mul_conjTranspose_same B
  rwa [Matrix.conjTranspose_eq_transpose_of_trivial] at h

lemma posSemidef_vecMulVec_self {k : Type*} [Fintype k] (v : k → ℚ) :
    (vecMulVec v v).PosSemidef := by
  have h := posSemidef_vecMulVec_self_star v
  rwa [star_trivial] at h

lemma calcBodyCov_posSemidef (m : Libm) (rangeInc degreeInc : ℚ) (pb : V3D) :
    (calcBodyCov m rangeInc degreeInc pb).PosSemidef := by
  unfold calcBodyCov
  refine Matrix.PosSemidef.add ?_ (posSemidef_mul_mul_transpose ?_ _)
  · rw [smul_vecMulVec]
    exact (posSemidef_vecMulVec_self _).smul (mul_self_nonneg rangeInc)
  · exact Matrix.PosSemidef.diagonal fun _ => sq_nonneg _

lemma getBlock_posSemidef {cov : MState} (h : cov.PosSemidef) {r : ℕ} (hr : r + 3 ≤ dimState) :
    (getBlock cov r r).PosSemidef := by
  have hsub : getBlock cov r r =
      cov.submatrix (fun i : Fin 3 => ⟨r + i, by omega⟩) fun i : Fin 3 => ⟨r + i, by omega⟩ := by
    ext i j
    have hi : r + i.val < dimState := by omega
    have hj : r + j.val < dimState := by omega
    simp [getBlock, hi, hj]
  rw [hsub]
  exact h.submatrix _

lemma worldVar_posSemidef (R : M3D) {cov : MState} (hcov : cov.PosSemidef) (p : V3D)
    {bodyCov : M3D} (h : bodyCov.PosSemidef) : (worldVar R cov p bodyCov).PosSemidef :=
  ((posSemidef_mul_mul_transpose h R).add
    (posSemidef_mul_mul_transpose (getBlock_posSemidef hcov (by decide)) _)).add
    (getBlock_posSemidef hcov (by decide))

/-! ## The bearing error -/

section Real

variable {m : Libm ℝ}

/-- The root is the square root. -/
def Libm.Roots (m : Libm ℝ) : Prop := ∀ x, 0 ≤ x → m.sqrt x * m.sqrt x = x

lemma normalized_dot_self (hm : m.Roots) {v : Fin 3 → ℝ} (hv : 0 < v ⬝ᵥ v) :
    V3D.normalized m v ⬝ᵥ V3D.normalized m v = 1 := by
  have hroot := hm _ hv.le
  have hne : m.sqrt (v ⬝ᵥ v) ≠ 0 := by
    intro hzero
    rw [hzero, mul_zero] at hroot
    exact hv.ne hroot
  rw [V3D.normalized, if_pos hv, smul_dotProduct, dotProduct_smul, smul_eq_mul, smul_eq_mul]
  field_simp
  linarith

/-- A vector is orthogonal to a normalised one when it is to the other. -/
lemma dot_normalized_eq_zero {u v : Fin 3 → ℝ} (h : u ⬝ᵥ v = 0) :
    u ⬝ᵥ V3D.normalized m v = 0 := by
  unfold V3D.normalized
  split_ifs
  · rw [dotProduct_smul, h, smul_zero]
  · exact h

lemma liftPoint_ne (pb : Fin 3 → ℝ) : liftPoint pb 2 ≠ 0 := by
  unfold liftPoint
  split_ifs with h
  · simp
  · exact h

lemma dot_self_pos {v : Fin 3 → ℝ} (h : v 2 ≠ 0) : 0 < v ⬝ᵥ v := by
  have hsq := mul_self_pos.mpr h
  rw [dotProduct, Fin.sum_univ_three]
  nlinarith [mul_self_nonneg (v 0), mul_self_nonneg (v 1)]

/-- Three orthonormal vectors resolve the identity. -/
lemma sum_outer_eq_one {a b c : Fin 3 → ℝ} (haa : a ⬝ᵥ a = 1) (hbb : b ⬝ᵥ b = 1) (hcc : c ⬝ᵥ c = 1)
    (hab : a ⬝ᵥ b = 0) (hac : a ⬝ᵥ c = 0) (hbc : b ⬝ᵥ c = 0) :
    vecMulVec a a + vecMulVec b b + vecMulVec c c = 1 := by
  have hrow : (Matrix.of ![a, b, c]) * (Matrix.of ![a, b, c])ᵀ = 1 := by
    ext i j
    show ![a, b, c] i ⬝ᵥ ![a, b, c] j = (1 : Matrix _ _ ℝ) i j
    fin_cases i <;> fin_cases j <;>
      simp [haa, hbb, hcc, hab, hac, hbc, dotProduct_comm b a, dotProduct_comm c a,
        dotProduct_comm c b]
  have hcol := mul_eq_one_comm.mp hrow
  rw [← hcol]
  ext i j
  simp [Matrix.mul_apply, Fin.sum_univ_three, vecMulVec_apply]

/-- The square of the cross product with a vector. -/
lemma skewSymMatrx_mul_transpose (d : Fin 3 → ℝ) :
    skewSymMatrx d * (skewSymMatrx d)ᵀ = (d ⬝ᵥ d) • 1 - vecMulVec d d := by
  ext i j
  fin_cases i <;> fin_cases j <;>
    simp [skewSymMatrx, Matrix.mul_apply, Fin.sum_univ_three, dotProduct, vecMulVec_apply] <;> ring

lemma skewSymMatrx_mulVec_self (d : Fin 3 → ℝ) : (skewSymMatrx d).mulVec d = 0 := by
  ext i
  fin_cases i <;> simp [skewSymMatrx, Matrix.mulVec, dotProduct, Fin.sum_univ_three] <;> ring

/-- The base vectors complete the direction to an orthonormal basis. -/
lemma baseVectors_outer (hm : m.Roots) {d : Fin 3 → ℝ} (hd : d ⬝ᵥ d = 1) (hd2 : d 2 ≠ 0) :
    baseVectors m d * (baseVectors m d)ᵀ = 1 - vecMulVec d d := by
  have hray : d ⬝ᵥ baseRay d = 0 := by
    rw [dotProduct, Fin.sum_univ_three]
    simp only [baseRay, Matrix.cons_val]
    field_simp
    ring
  have hpos : 0 < baseRay d ⬝ᵥ baseRay d := by
    rw [dotProduct, Fin.sum_univ_three]
    simp only [baseRay, Matrix.cons_val]
    nlinarith [mul_self_nonneg (-(d 0 + d 1) / d 2)]
  have h11 : baseVector1 m d ⬝ᵥ baseVector1 m d = 1 := normalized_dot_self hm hpos
  have hd1 : d ⬝ᵥ baseVector1 m d = 0 := dot_normalized_eq_zero hray
  have hcross : crossProduct (baseVector1 m d) d ⬝ᵥ crossProduct (baseVector1 m d) d = 1 := by
    rw [cross_dot_cross, h11, hd, hd1]
    ring
  have h22 : baseVector2 m d ⬝ᵥ baseVector2 m d = 1 :=
    normalized_dot_self hm (by rw [hcross]; exact one_pos)
  have h12 : baseVector1 m d ⬝ᵥ baseVector2 m d = 0 := dot_normalized_eq_zero (dot_self_cross _ _)
  have hd2' : d ⬝ᵥ baseVector2 m d = 0 := dot_normalized_eq_zero (dot_cross_self _ _)
  have hsum := sum_outer_eq_one hd h11 h22 hd1 hd2' h12
  have houter : baseVectors m d * (baseVectors m d)ᵀ =
      vecMulVec (baseVector1 m d) (baseVector1 m d) +
        vecMulVec (baseVector2 m d) (baseVector2 m d) := by
    ext i j
    simp [baseVectors, Matrix.mul_apply, Fin.sum_univ_two, vecMulVec_apply]
  rw [houter, ← hsum]
  abel

/-- **The covariance of a body point.**  It is the variance of the range along the direction, and
that of the bearing, at the distance of the point, alike in every direction across. -/
theorem calcBodyCov_eq (m : Libm ℝ) (hm : m.Roots) (rangeInc degreeInc : ℝ) (pb : Fin 3 → ℝ) :
    let d := V3D.normalized m (liftPoint pb)
    d ⬝ᵥ d = 1 ∧ calcBodyCov m rangeInc degreeInc pb = rangeInc ^ 2 • vecMulVec d d +
      ((liftPoint pb ⬝ᵥ liftPoint pb) * m.sin (deg2rad degreeInc) ^ 2) • (1 - vecMulVec d d) := by
  intro d
  have hpos := dot_self_pos (liftPoint_ne pb)
  have hd : d ⬝ᵥ d = 1 := normalized_dot_self hm hpos
  have hrange := hm _ hpos.le
  have hd2 : d 2 ≠ 0 := by
    show V3D.normalized m (liftPoint pb) 2 ≠ 0
    have hne : m.sqrt (liftPoint pb ⬝ᵥ liftPoint pb) ≠ 0 := by
      intro hzero
      rw [hzero, mul_zero] at hrange
      exact hpos.ne hrange
    rw [V3D.normalized, if_pos hpos, Pi.smul_apply, smul_eq_mul]
    exact mul_ne_zero (one_div_ne_zero hne) (liftPoint_ne pb)
  refine ⟨hd, ?_⟩
  have houter := baseVectors_outer hm hd hd2
  generalize hs : m.sin (deg2rad degreeInc) ^ 2 = s
  have hvar : (diagonal fun _ => s) = s • (1 : Matrix (Fin 2) (Fin 2) ℝ) :=
    (Matrix.smul_one_eq_diagonal s).symm
  have hacross : skewSymMatrx d * (1 - vecMulVec d d) * (skewSymMatrx d)ᵀ = 1 - vecMulVec d d := by
    rw [Matrix.mul_sub, Matrix.mul_one, Matrix.mul_vecMulVec, skewSymMatrx_mulVec_self,
      Matrix.zero_vecMulVec, sub_zero, skewSymMatrx_mul_transpose, hd, one_smul]
  simp only [calcBodyCov, hs, hvar]
  show vecMulVec ((rangeInc * rangeInc) • d) d +
    m.sqrt (liftPoint pb ⬝ᵥ liftPoint pb) • skewSymMatrx d * baseVectors m d *
      (s • (1 : Matrix (Fin 2) (Fin 2) ℝ)) *
      (m.sqrt (liftPoint pb ⬝ᵥ liftPoint pb) • skewSymMatrx d * baseVectors m d)ᵀ = _
  generalize m.sqrt (liftPoint pb ⬝ᵥ liftPoint pb) = r at hrange ⊢
  have hbearing : r • skewSymMatrx d * baseVectors m d * (s • (1 : Matrix (Fin 2) (Fin 2) ℝ)) *
      (r • skewSymMatrx d * baseVectors m d)ᵀ =
      (r * r * s) • (skewSymMatrx d * (baseVectors m d * (baseVectors m d)ᵀ) *
        (skewSymMatrx d)ᵀ) := by
    rw [Matrix.transpose_mul, Matrix.transpose_smul, Matrix.mul_smul, Matrix.mul_one]
    simp only [Matrix.smul_mul, Matrix.mul_smul, smul_smul, Matrix.mul_assoc]
    congr 1
    ring
  rw [hbearing, houter, hacross, hrange, smul_vecMulVec, sq]

/-- The real functions. -/
noncomputable def realLibm : Libm ℝ := ⟨Real.sin, Real.cos, Real.sqrt⟩

/-- A point at three metres, with a range error of two centimetres and a bearing error of a
twentieth of a degree. -/
theorem calcBodyCov_eq_threeMetres :
    let d := V3D.normalized realLibm ![2, -1, 2]
    d ⬝ᵥ d = 1 ∧ calcBodyCov realLibm (1 / 50) (1 / 20) ![2, -1, 2] =
      (1 / 50 : ℝ) ^ 2 • vecMulVec d d +
        (9 * Real.sin (deg2rad (1 / 20)) ^ 2) • (1 - vecMulVec d d) := by
  have hroots : realLibm.Roots := fun x hx => Real.mul_self_sqrt hx
  have hlift : liftPoint (![2, -1, 2] : Fin 3 → ℝ) = ![2, -1, 2] := if_neg (by simp)
  have hrange : (![2, -1, 2] : Fin 3 → ℝ) ⬝ᵥ ![2, -1, 2] = 9 := by
    simp only [dotProduct, Fin.sum_univ_three, Matrix.cons_val]
    norm_num
  have h := calcBodyCov_eq realLibm hroots (1 / 50) (1 / 20) ![2, -1, 2]
  rwa [hlift, hrange] at h

end Real

end FastLivo2
