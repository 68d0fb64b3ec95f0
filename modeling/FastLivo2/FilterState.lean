import FastLivo2.Common
import FastLivo2.Lib.InformationForm

/-!
# Arithmetic of the filter state

The operators of `StatesGroup` (`common_lib.h`) and the exponential and logarithm they use
(`utils/so3_math.h`), with the vectors of the tangent space they add and return.

The functions of the mathematical library and the inverse of a state-sized matrix are a
parameter, `Numerics`.  In exact arithmetic the LU-based inverse of an invertible matrix is its
inverse; of a singular matrix nothing is assumed.
-/

namespace FastLivo2

/-- The mathematical library, and the matrix inverse at the size of the state. -/
structure Numerics extends Libm where
  acos : ℚ → ℚ
  inverse : MState → MState
  inverse_mul : ∀ A, IsUnit A → inverse A * A = 1

/-- The inverse of an invertible matrix, as `inverse_mul` asks for it. -/
lemma inv_mul_of_isUnit (A : MState) (hA : IsUnit A) : A⁻¹ * A = 1 :=
  Matrix.nonsing_inv_mul A ((Matrix.isUnit_iff_isUnit_det A).mp hA)

lemma Numerics.inverse_eq (N : Numerics) {A : MState} (hA : IsUnit A) : N.inverse A = A⁻¹ :=
  (Matrix.inv_eq_left_inv (N.inverse_mul A hA)).symm

/-! ## Rotations -/

/-- `Exp(v1, v2, v3)`: the rotation by a rotation vector. -/
def expVec (m : Libm) (v : V3D) : M3D :=
  let norm := V3D.norm m v
  if 1 / 100000 < norm then
    let K := skewSymMatrx ((1 / norm) • v)
    1 + m.sin norm • K + (1 - m.cos norm) • (K * K)
  else 1

/-- `Log`: the rotation vector of a rotation. -/
def logRot (N : Numerics) (R : M3D) : V3D :=
  let theta := if 3 - 1 / 1000000 < R.trace then 0 else N.acos (1 / 2 * (R.trace - 1))
  let K : V3D := ![R 2 1 - R 1 2, R 0 2 - R 2 0, R 1 0 - R 0 1]
  if |theta| < 1 / 1000 then (1 / 2 : ℚ) • K else (1 / 2 * theta / N.sin theta) • K

lemma logRot_one (N : Numerics) : logRot N 1 = 0 := by
  have htrace : 3 - 1 / 1000000 < (1 : M3D).trace := by decide +kernel
  unfold logRot
  dsimp only
  rw [if_pos htrace, if_pos (by norm_num)]
  decide +kernel

/-! ## Segments and blocks -/

/-- `Matrix<double, DIM_STATE, 1>`. -/
abbrev VState := Fin dimState → ℚ

/-- Rotation and position come first. -/
lemma pose_le_dimState : 6 ≤ dimState := by decide

/-- `v.block<3, 1>(r, 0)`. -/
def VState.seg (v : VState) (r : ℕ) : V3D := fun k =>
  if h : r + k.val < dimState then v ⟨r + k.val, h⟩ else 0

/-- `v.block<3, 1>(r, 0) = x`. -/
def VState.setSeg (v : VState) (r : ℕ) (x : V3D) : VState := fun i =>
  if h : r ≤ i.val ∧ i.val - r < 3 then x ⟨i.val - r, h.2⟩ else v i

/-- `v.block<d, 1>(0, 0)`. -/
def VState.lead (v : VState) {d : ℕ} (h : d ≤ dimState) : Fin d → ℚ := fun j => v (Fin.castLE h j)

/-- `M.block<3, 3>(r, c)`. -/
def getBlock (M : MState) (r c : ℕ) : M3D := fun i j =>
  if h : r + i.val < dimState ∧ c + j.val < dimState then M ⟨r + i.val, h.1⟩ ⟨c + j.val, h.2⟩
  else 0

namespace StatesGroup

/-- `operator+=`: the covariance stays. -/
def add (m : Libm) (s : StatesGroup) (stateAdd : VState) : StatesGroup :=
  { s with
    rotEnd := s.rotEnd * expVec m (stateAdd.seg 0)
    posEnd := s.posEnd + stateAdd.seg 3
    invExpoTime := s.invExpoTime + stateAdd 6
    velEnd := s.velEnd + stateAdd.seg 7
    biasG := s.biasG + stateAdd.seg 10
    biasA := s.biasA + stateAdd.seg 13
    gravity := s.gravity + stateAdd.seg 16 }

@[simp] lemma add_cov (m : Libm) (s : StatesGroup) (stateAdd : VState) :
    (s.add m stateAdd).cov = s.cov := rfl

/-- `operator-`. -/
def sub (N : Numerics) (a b : StatesGroup) : VState :=
  let d := VState.setSeg 0 0 (logRot N (b.rotEnd.transpose * a.rotEnd))
  let d := d.setSeg 3 (a.posEnd - b.posEnd)
  let d : VState := fun i => if i = 6 then a.invExpoTime - b.invExpoTime else d i
  let d := d.setSeg 7 (a.velEnd - b.velEnd)
  let d := d.setSeg 10 (a.biasG - b.biasG)
  let d := d.setSeg 13 (a.biasA - b.biasA)
  d.setSeg 16 (a.gravity - b.gravity)

end StatesGroup

end FastLivo2
