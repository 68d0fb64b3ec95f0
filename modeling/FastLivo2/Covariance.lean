import FastLivo2.ImuProcess
import FastLivo2.StateEstimation
import FastLivo2.VisualUpdate

/-!
# The covariance over a run

Three pieces of code write the filter covariance: the propagation by IMU samples
(`UndistortPcl`), the LiDAR update (`StateEstimation`) and the visual update
(`computeJacobianAndUpdateEKF`).  Over any sequence of them a positive definite covariance stays
so, and each update replaces the covariance once, by the information-form posterior of its last
linearisation (`covariance_of_run`).

The transition matrix of the propagation is the identity with a few three by three blocks written
over it.  A block written over zeros adds `place r c B`; the blocks off the diagonal only lead from
later segments of the state to earlier ones in the order bias and gravity, rotation, velocity,
position, so the matrix is invertible when its rotation block is.
-/

namespace FastLivo2

open Matrix

/-! ## Blocks -/

/-- The three coordinates from `r` on. -/
def segSel (r : ℕ) : Matrix (Fin 3) (Fin dimState) ℚ := fun k j =>
  if r + k.val = j.val then 1 else 0

/-- A block over zeros. -/
def place (r c : ℕ) (B : M3D) : MState := (segSel r).transpose * B * segSel c

lemma segSel_mul_transpose_self {r : ℕ} (h : r + 3 ≤ dimState) :
    segSel r * (segSel r).transpose = 1 := by
  ext k l
  have hk : r + k.val < dimState := by omega
  rw [Matrix.mul_apply, Finset.sum_eq_single (⟨r + k.val, hk⟩ : Fin dimState)]
  · by_cases hkl : k = l
    · subst hkl
      simp [segSel]
    · have hval : l.val ≠ k.val := fun h => hkl (Fin.ext h.symm)
      simp [segSel, hkl, hval]
  · intro j _ hj
    have hval : r + k.val ≠ j.val := fun h => hj (Fin.ext h.symm)
    simp [segSel, hval]
  · exact fun hmem => absurd (Finset.mem_univ _) hmem

lemma segSel_mul_transpose_disjoint {r c : ℕ} (h : r + 3 ≤ c ∨ c + 3 ≤ r) :
    segSel r * (segSel c).transpose = 0 := by
  ext k l
  rw [Matrix.mul_apply]
  refine Finset.sum_eq_zero fun j _ => ?_
  by_cases hk : r + k.val = j.val
  · have hl : c + l.val ≠ j.val := by omega
    simp [segSel, hl]
  · simp [segSel, hk]

lemma mul_segSel_apply {m : Type*} (X : Matrix m (Fin 3) ℚ) (c : ℕ) (a : m) (j : Fin dimState) :
    (X * segSel c) a j = if h : c ≤ j.val ∧ j.val - c < 3 then X a ⟨j.val - c, h.2⟩ else 0 := by
  rw [Matrix.mul_apply]
  by_cases h : c ≤ j.val ∧ j.val - c < 3
  · rw [dif_pos h, Finset.sum_eq_single (⟨j.val - c, h.2⟩ : Fin 3)]
    · have hval : c + (j.val - c) = j.val := by omega
      simp [segSel, hval]
    · intro l _ hl
      have hval : c + l.val ≠ j.val := fun h' => hl (Fin.ext (by simp only; omega))
      simp [segSel, hval]
    · exact fun hmem => absurd (Finset.mem_univ _) hmem
  · rw [dif_neg h]
    refine Finset.sum_eq_zero fun l _ => ?_
    have hval : c + l.val ≠ j.val := by omega
    simp [segSel, hval]

lemma place_apply (r c : ℕ) (B : M3D) (i j : Fin dimState) :
    place r c B i j = if h : (r ≤ i.val ∧ i.val - r < 3) ∧ (c ≤ j.val ∧ j.val - c < 3) then
      B ⟨i.val - r, h.1.2⟩ ⟨j.val - c, h.2.2⟩ else 0 := by
  have hrow : (segSel r).transpose * B = (B.transpose * segSel r).transpose := by
    rw [Matrix.transpose_mul, Matrix.transpose_transpose]
  rw [place, mul_segSel_apply, hrow]
  simp only [Matrix.transpose_apply, mul_segSel_apply]
  by_cases hi : r ≤ i.val ∧ i.val - r < 3 <;> by_cases hj : c ≤ j.val ∧ j.val - c < 3 <;>
    simp [hi, hj]

/-- A block written over a block of zeros adds it. -/
lemma setBlock_eq_add {M : MState} {r c : ℕ} (B : M3D) (h : getBlock M r c = 0) :
    setBlock M r c B = M + place r c B := by
  ext i j
  rw [Matrix.add_apply, place_apply, setBlock]
  by_cases hij : (r ≤ i.val ∧ i.val - r < 3) ∧ (c ≤ j.val ∧ j.val - c < 3)
  · have hzero : M i j = 0 := by
      have hentry := congrFun (congrFun h ⟨i.val - r, hij.1.2⟩) ⟨j.val - c, hij.2.2⟩
      have hi : r + (i.val - r) = i.val := by omega
      have hj : c + (j.val - c) = j.val := by omega
      simpa [getBlock, hi, hj] using hentry
    rw [dif_pos hij, dif_pos hij, hzero, zero_add]
  · rw [dif_neg hij, dif_neg hij, add_zero]

/-- Writing the rotation block of the identity. -/
lemma setBlock_one_zero (B : M3D) : setBlock 1 0 0 B = 1 + place 0 0 (B - 1) := by
  ext i j
  rw [Matrix.add_apply, place_apply, setBlock]
  by_cases hij : (0 ≤ i.val ∧ i.val - 0 < 3) ∧ (0 ≤ j.val ∧ j.val - 0 < 3)
  · rw [dif_pos hij, dif_pos hij, Matrix.sub_apply]
    simp [Matrix.one_apply, Fin.ext_iff]
  · rw [dif_neg hij, dif_neg hij, add_zero]

lemma getBlock_add (M M' : MState) (r c : ℕ) :
    getBlock (M + M') r c = getBlock M r c + getBlock M' r c := by
  ext i j
  by_cases h : r + i.val < dimState ∧ c + j.val < dimState <;> simp [getBlock, h]

/-- A block reads nothing of one that shares no rows or no columns with it. -/
lemma getBlock_place {r c r' c' : ℕ} (B : M3D)
    (h : r + 3 ≤ r' ∨ r' + 3 ≤ r ∨ c + 3 ≤ c' ∨ c' + 3 ≤ c) :
    getBlock (place r' c' B) r c = 0 := by
  ext i j
  by_cases hin : r + i.val < dimState ∧ c + j.val < dimState
  · simp only [getBlock, dif_pos hin, place_apply, Matrix.zero_apply]
    refine dif_neg ?_
    omega
  · simp [getBlock, hin]

lemma getBlock_one {r c : ℕ} (h : r + 3 ≤ c ∨ c + 3 ≤ r) : getBlock 1 r c = 0 := by
  ext i j
  by_cases hin : r + i.val < dimState ∧ c + j.val < dimState
  · have hne : r + i.val ≠ c + j.val := by omega
    simp [getBlock, hin, hne]
  · simp [getBlock, hin]

@[simp] lemma place_zero (r c : ℕ) : place r c 0 = 0 := by
  rw [place, Matrix.mul_zero, Matrix.zero_mul]

lemma place_mulVec (r c : ℕ) (B : M3D) (x : VState) :
    place r c B *ᵥ x = (segSel r).transpose *ᵥ (B *ᵥ (segSel c *ᵥ x)) := by
  rw [place, Matrix.mulVec_mulVec, Matrix.mulVec_mulVec]

/-- Reading a segment of what a block gives: the block's own segment, or none of it. -/
lemma segSel_mulVec_place_self {r : ℕ} (h : r + 3 ≤ dimState) (c : ℕ) (B : M3D) (x : VState) :
    segSel r *ᵥ (place r c B *ᵥ x) = B *ᵥ (segSel c *ᵥ x) := by
  rw [place_mulVec, Matrix.mulVec_mulVec, segSel_mul_transpose_self h, Matrix.one_mulVec]

lemma segSel_mulVec_place_disjoint {r s : ℕ} (h : r + 3 ≤ s ∨ s + 3 ≤ r) (c : ℕ) (B : M3D)
    (x : VState) : segSel r *ᵥ (place s c B *ᵥ x) = 0 := by
  rw [place_mulVec, Matrix.mulVec_mulVec, segSel_mul_transpose_disjoint h, Matrix.zero_mulVec]

/-- A block written under a flag. -/
lemma ite_setBlock_eq_add (b : Bool) {M : MState} {r c : ℕ} (B : M3D) (h : getBlock M r c = 0) :
    (if b then setBlock M r c B else M) = M + place r c (if b then B else 0) := by
  cases b
  · simp
  · simpa using setBlock_eq_add B h

/-! ## The propagation -/

/-- `F_x`, written block by block. -/
def transition (baBgEstEn gravityEstEn : Bool) (rot gyr vel acc bias grav : M3D) : MState :=
  let F₀ := setBlock 1 0 0 rot
  let F₁ := if baBgEstEn then setBlock F₀ 0 10 gyr else F₀
  let F₂ := setBlock F₁ 3 7 vel
  let F₃ := setBlock F₂ 7 0 acc
  let F₄ := if baBgEstEn then setBlock F₃ 7 13 bias else F₃
  if gravityEstEn then setBlock F₄ 7 16 grav else F₄

lemma transition_eq (baBgEstEn gravityEstEn : Bool) (rot gyr vel acc bias grav : M3D) :
    transition baBgEstEn gravityEstEn rot gyr vel acc bias grav =
      1 + place 0 0 (rot - 1) + place 0 10 (if baBgEstEn then gyr else 0) + place 3 7 vel +
        place 7 0 acc + place 7 13 (if baBgEstEn then bias else 0) +
        place 7 16 (if gravityEstEn then grav else 0) := by
  unfold transition
  dsimp only
  rw [setBlock_one_zero, ite_setBlock_eq_add (r := 0) (c := 10), setBlock_eq_add (r := 3),
    setBlock_eq_add (r := 7) (c := 0), ite_setBlock_eq_add (r := 7) (c := 13),
    ite_setBlock_eq_add (r := 7) (c := 16)]
  all_goals simp (disch := omega) only [getBlock_add, getBlock_place, getBlock_one, add_zero]

/-- **The transition is invertible** when its rotation block is: a vector it annihilates has zero
bias, gravity and exposure, then zero rotation, velocity and position. -/
lemma isUnit_transition (baBgEstEn gravityEstEn : Bool) {rot : M3D} (gyr vel acc bias grav : M3D)
    (h : IsUnit rot) : IsUnit (transition baBgEstEn gravityEstEn rot gyr vel acc bias grav) := by
  refine Matrix.mulVec_injective_iff_isUnit.mp fun x y hxy => sub_eq_zero.mp ?_
  have hker : transition baBgEstEn gravityEstEn rot gyr vel acc bias grav *ᵥ (x - y) = 0 := by
    rw [Matrix.mulVec_sub, sub_eq_zero]
    exact hxy
  generalize x - y = d at hker
  rw [transition_eq] at hker
  simp only [Matrix.add_mulVec, Matrix.one_mulVec] at hker
  have hlate : ∀ r, 10 ≤ r → segSel r *ᵥ d = 0 := by
    intro r hr
    have hseg := congrArg (segSel r *ᵥ ·) hker
    simpa only [Matrix.mulVec_add, Matrix.mulVec_zero, add_zero,
      segSel_mulVec_place_disjoint (r := r) (s := 0) (by omega),
      segSel_mulVec_place_disjoint (r := r) (s := 3) (by omega),
      segSel_mulVec_place_disjoint (r := r) (s := 7) (by omega)] using hseg
  have hrot : segSel 0 *ᵥ d = 0 := by
    have hseg := congrArg (segSel 0 *ᵥ ·) hker
    simp only [Matrix.mulVec_add, Matrix.mulVec_zero, add_zero,
      segSel_mulVec_place_self (r := 0) (by decide), hlate 10 (by decide),
      segSel_mulVec_place_disjoint (r := 0) (s := 3) (by omega),
      segSel_mulVec_place_disjoint (r := 0) (s := 7) (by omega),
      Matrix.sub_mulVec, Matrix.one_mulVec, add_sub_cancel] at hseg
    exact (Matrix.mulVec_injective_of_isUnit h) (hseg.trans (Matrix.mulVec_zero rot).symm)
  have hvel : segSel 7 *ᵥ d = 0 := by
    have hseg := congrArg (segSel 7 *ᵥ ·) hker
    simpa only [Matrix.mulVec_add, Matrix.mulVec_zero, add_zero,
      segSel_mulVec_place_self (r := 7) (by decide), hlate 13 (by decide), hlate 16 (by decide),
      hrot, segSel_mulVec_place_disjoint (r := 7) (s := 0) (by omega),
      segSel_mulVec_place_disjoint (r := 7) (s := 3) (by omega)] using hseg
  simpa only [place_mulVec, hrot, hvel, hlate 10 (by decide), hlate 13 (by decide),
    hlate 16 (by decide), Matrix.mulVec_zero, add_zero] using hker

/-- The noise parameters of the propagation are positive. -/
structure ImuProcess.NoisePositive (p : ImuProcess) : Prop where
  gyr : ∀ i, 0 < p.covGyr i
  acc : ∀ i, 0 < p.covAcc i
  biasGyr : ∀ i, 0 < p.covBiasGyr i
  biasAcc : ∀ i, 0 < p.covBiasAcc i
  invExpo : 0 < p.covInvExpo

/-- `cov_w`, written block by block. -/
def processNoise (expo : ℚ) (rot vel gyr acc : M3D) : MState :=
  let W₀ : MState := Matrix.diagonal fun i => if i.val = 6 then expo else 0
  let W₁ := setBlock W₀ 0 0 rot
  let W₂ := setBlock W₁ 7 7 vel
  let W₃ := setBlock W₂ 10 10 gyr
  setBlock W₃ 13 13 acc

lemma getBlock_diagonal {expo : ℚ} {r : ℕ} (h : r + 3 ≤ 6 ∨ 6 < r) :
    getBlock (Matrix.diagonal fun i => if i.val = 6 then expo else 0) r r = 0 := by
  ext i j
  by_cases hin : r + i.val < dimState ∧ r + j.val < dimState
  · have hne : r + i.val ≠ 6 := by omega
    simp [getBlock, hin, Matrix.diagonal_apply, hne]
  · simp [getBlock, hin]

lemma processNoise_eq (expo : ℚ) (rot vel gyr acc : M3D) :
    processNoise expo rot vel gyr acc =
      Matrix.diagonal (fun i => if i.val = 6 then expo else 0) + place 0 0 rot + place 7 7 vel +
        place 10 10 gyr + place 13 13 acc := by
  unfold processNoise
  dsimp only
  rw [setBlock_eq_add (r := 0), setBlock_eq_add (r := 7), setBlock_eq_add (r := 10),
    setBlock_eq_add (r := 13)]
  all_goals simp (disch := omega) only [getBlock_add, getBlock_place, getBlock_diagonal, add_zero]

lemma place_posSemidef {B : M3D} (r : ℕ) (h : B.PosSemidef) : (place r r B).PosSemidef := by
  have hcongr := h.conjTranspose_mul_mul_same (segSel r)
  rwa [Matrix.conjTranspose_eq_transpose_of_trivial] at hcongr

lemma processNoise_posSemidef {expo : ℚ} {rot vel gyr acc : M3D} (hexpo : 0 ≤ expo)
    (hrot : rot.PosSemidef) (hvel : vel.PosSemidef) (hgyr : gyr.PosSemidef)
    (hacc : acc.PosSemidef) : (processNoise expo rot vel gyr acc).PosSemidef := by
  have hdiag : (Matrix.diagonal fun i : Fin dimState =>
      if i.val = 6 then expo else 0).PosSemidef := by
    refine PosSemidef.diagonal fun i => ?_
    by_cases hi : i.val = 6 <;> simp [hi, hexpo]
  rw [processNoise_eq]
  exact (((hdiag.add (place_posSemidef 0 hrot)).add (place_posSemidef 7 hvel)).add
    (place_posSemidef 10 hgyr)).add (place_posSemidef 13 hacc)

lemma scaled_diagonal_posSemidef {d : V3D} (h : ∀ i, 0 < d i) (dt : ℚ) :
    (Matrix.diagonal ((dt * dt) • d) : M3D).PosSemidef :=
  PosSemidef.diagonal fun i => mul_nonneg (mul_self_nonneg dt) (h i).le

namespace ImuProcess

variable {m : Libm} {p : ImuProcess}

lemma propagate_cov (stat : StatesGroup) (q : PropState) (k : PropStep) :
    ∃ gyr vel acc bias grav : M3D, ∃ angvel : V3D,
      (propagate m p stat q k).cov =
        transition p.baBgEstEn p.gravityEstEn (Exp m angvel (-k.dt)) gyr vel acc bias grav * q.cov *
          (transition p.baBgEstEn p.gravityEstEn (Exp m angvel (-k.dt)) gyr vel acc bias
            grav).transpose +
        processNoise (if p.exposureEstimateEn then p.covInvExpo * k.dt * k.dt else 0)
          (Matrix.diagonal ((k.dt * k.dt) • p.covGyr))
          ((k.dt * k.dt) • (q.rImu * Matrix.diagonal p.covAcc * q.rImu.transpose))
          (Matrix.diagonal ((k.dt * k.dt) • p.covBiasGyr))
          (Matrix.diagonal ((k.dt * k.dt) • p.covBiasAcc)) := by
  let accAvr := (gMS2 / V3D.norm m p.meanAcc) •
    ((1 / 2 : ℚ) • (k.head.linearAcceleration + k.tail.linearAcceleration)) - stat.biasA
  refine ⟨-(k.dt • (1 : M3D)), k.dt • (1 : M3D), -(k.dt • (q.rImu * skewSymMatrx accAvr)),
    -(k.dt • q.rImu), k.dt • (1 : M3D),
    (1 / 2 : ℚ) • (k.head.angularVelocity + k.tail.angularVelocity) - stat.biasG, ?_⟩
  have hnoise : (if p.exposureEstimateEn then
      Matrix.diagonal fun i : Fin dimState => if i.val = 6 then p.covInvExpo * k.dt * k.dt else 0
      else 0) = Matrix.diagonal fun i : Fin dimState => if i.val = 6 then
        (if p.exposureEstimateEn then p.covInvExpo * k.dt * k.dt else 0) else 0 := by
    by_cases hen : p.exposureEstimateEn = true
    · simp only [hen, if_true]
    · simp only [hen, if_false, ite_self, Bool.false_eq_true, Matrix.diagonal_zero]
  unfold propagate transition processNoise
  rw [← hnoise]

/-- **One propagation step** keeps the covariance positive definite. -/
lemma propagate_posDef (hExp : ∀ angvel dt, IsUnit (Exp m angvel dt)) (hp : p.NoisePositive)
    (stat : StatesGroup) {q : PropState} (hq : q.cov.PosDef) (k : PropStep) :
    (propagate m p stat q k).cov.PosDef := by
  obtain ⟨gyr, vel, acc, bias, grav, angvel, hcov⟩ := propagate_cov (m := m) (p := p) stat q k
  rw [hcov, ← Matrix.conjTranspose_eq_transpose_of_trivial]
  refine propagated_posDef (isUnit_transition _ _ _ _ _ _ _ (hExp _ _)) hq ?_
  have hdt : 0 ≤ k.dt * k.dt := mul_self_nonneg _
  refine processNoise_posSemidef ?_ (scaled_diagonal_posSemidef hp.gyr _) ?_
    (scaled_diagonal_posSemidef hp.biasGyr _) (scaled_diagonal_posSemidef hp.biasAcc _)
  · split_ifs
    · rw [mul_assoc]
      exact mul_nonneg hp.invExpo.le hdt
    · exact le_rfl
  · have hacc : (Matrix.diagonal p.covAcc : M3D).PosSemidef :=
      PosSemidef.diagonal fun i => (hp.acc i).le
    have hrot := hacc.mul_mul_conjTranspose_same q.rImu
    rw [Matrix.conjTranspose_eq_transpose_of_trivial] at hrot
    exact hrot.smul hdt

/-- **The propagation** keeps the covariance positive definite, step by step. -/
lemma undistortPcl_posDef (hExp : ∀ angvel dt, IsUnit (Exp m angvel dt)) (hp : p.NoisePositive)
    (meas : LidarMeasureGroup) {stat : StatesGroup} (h : stat.cov.PosDef) :
    (undistortPcl m p meas stat).stat.cov.PosDef := by
  have hfold : ∀ (steps : List PropStep) (q : PropState), q.cov.PosDef →
      (steps.foldl (propagate m p stat) q).cov.PosDef := by
    intro steps
    induction steps with
    | nil => exact fun _ hq => hq
    | cons k steps ih => exact fun q hq => ih _ (propagate_posDef hExp hp stat hq k)
  exact hfold (p.undistortSteps meas) _ h

end ImuProcess

/-! ## The visual update -/

/-- The information of the rows at a state, each weighted by the inverse of the pixel variance. -/
def Photometry.information {ι : Type} [Fintype ι] [DecidableEq ι] {k : ℕ} (ph : Photometry ι k)
    (imgPointCov : ℚ) (s : StatesGroup) : MState :=
  (padCols dimState (ph.hSub s)).transpose *
    (Matrix.diagonal fun _ => imgPointCov⁻¹ : Matrix ι ι ℚ) * padCols dimState (ph.hSub s)

section Visual

variable {N : Numerics} {cfg : VioConfig} {statePropagat : StatesGroup} {level : ℕ}
variable {ι : Type} [Fintype ι] [DecidableEq ι] {k : ℕ} {hk : k ≤ dimState} {ph : Photometry ι k}

lemma Photometry.information_eq_smul (s : StatesGroup) (c : ℚ) :
    ph.information c s =
      c⁻¹ • ((padCols dimState (ph.hSub s)).transpose * padCols dimState (ph.hSub s)) := by
  have hdiag : (Matrix.diagonal fun _ : ι => c⁻¹) = c⁻¹ • (1 : Matrix ι ι ℚ) := by
    rw [← Matrix.diagonal_one, ← Matrix.diagonal_smul]
    congr 1
    ext
    simp
  rw [information, hdiag, Matrix.mul_smul, Matrix.mul_one, Matrix.smul_mul]

lemma Photometry.information_posSemidef (s : StatesGroup) {c : ℚ} (hc : 0 < c) :
    (ph.information c s).PosSemidef := by
  have hgram := weighted_gram_posSemidef (padCols dimState (ph.hSub s))
    (w := fun _ => c⁻¹) fun _ => (inv_pos.mpr hc).le
  rwa [Matrix.conjTranspose_eq_transpose_of_trivial] at hgram

/-- What an update has left of the covariance before its last line: the prior `P` after every
iteration, and the gain of the last accepted linearisation. -/
structure VisualEkf.Prior (info : ℕ × StatesGroup → MState) (P : MState) (e : VisualEkf) :
    Prop where
  cov : e.state.cov = P
  covs : ∃ n, e.covs = List.replicate n P
  gain : ∀ a ∈ e.accepted.getLast?, e.G = posterior (info a) P * info a

/-- What an update leaves: the covariance was `P` after every iteration, and the last line made it
the posterior of the last accepted linearisation. -/
structure VisualEkf.Posterior (info : ℕ × StatesGroup → MState) (P : MState) (e : VisualEkf) :
    Prop where
  cov : ∃ a ∈ e.accepted.getLast?, e.state.cov = posterior (info a) P
  covs : ∃ n, e.covs = List.replicate n P ++ [e.state.cov]

/-- The gain of an accepted iteration is that of its rows. -/
lemma acceptStep_gain {v : VisualLoop} (hP : v.state.cov.PosDef) (hc : 0 < cfg.imgPointCov)
    (error : ℚ) :
    (acceptStep N cfg statePropagat level hk ph error v).G =
      posterior (ph.information cfg.imgPointCov v.state) v.state.cov *
        ph.information cfg.imgPointCov v.state := by
  have hscaled : (cfg.imgPointCov⁻¹ • v.state.cov).PosDef := hP.smul (inv_pos.mpr hc)
  have hA : ((padCols dimState (ph.hSub v.state)).transpose *
      padCols dimState (ph.hSub v.state)).PosSemidef := by
    have hgram := posSemidef_conjTranspose_mul_self (padCols dimState (ph.hSub v.state))
    rwa [Matrix.conjTranspose_eq_transpose_of_trivial] at hgram
  show setCorner 0 (leadCols (N.inverse (setCorner 0 ((ph.hSub v.state).transpose *
    ph.hSub v.state) + N.inverse (cfg.imgPointCov⁻¹ • v.state.cov))) hk *
      ((ph.hSub v.state).transpose * ph.hSub v.state)) = _
  rw [setCorner_gram, N.inverse_eq hscaled.isUnit, N.inverse_eq (isUnit_add_inv hA hscaled),
    gain_setCorner, scaled_gain_eq hc.ne' hP.isUnit, ← Photometry.information_eq_smul]

variable {info : ℕ × StatesGroup → MState} {P : MState}

/-- **One iteration** keeps the prior, and the gain of the last accepted linearisation. -/
lemma visualIteration_prior (hinfo : ∀ s, info (level, s) = ph.information cfg.imgPointCov s)
    (hP : P.PosDef) (hc : 0 < cfg.imgPointCov) {v : VisualLoop} (h : v.toVisualEkf.Prior info P)
    (hold : v.oldState.cov = P) :
    let r := visualIteration N cfg statePropagat level hk ph v
    r.toVisualEkf.Prior info P ∧ r.oldState.cov = P := by
  obtain ⟨n, hn⟩ := h.covs
  have haccept : ∀ error, (acceptStep N cfg statePropagat level hk ph error v).toVisualEkf.Prior
      info P := by
    intro error
    refine ⟨h.cov, ⟨n + 1, ?_⟩, ?_⟩
    · show v.covs ++ [v.state.cov] = _
      rw [hn, h.cov, List.replicate_succ']
    · intro a ha
      have hlast : a = (level, v.state) := by simpa [acceptStep, eq_comm] using ha
      have hP' : v.state.cov.PosDef := h.cov ▸ hP
      rw [hlast, hinfo, ← h.cov]
      exact acceptStep_gain hP' hc error
  have hreject : (rejectStep v).toVisualEkf.Prior info P := by
    refine ⟨hold, ⟨n + 1, ?_⟩, h.gain⟩
    show v.covs ++ [v.oldState.cov] = _
    rw [hn, hold, List.replicate_succ']
  intro r
  show (visualIteration N cfg statePropagat level hk ph v).toVisualEkf.Prior info P ∧
    (visualIteration N cfg statePropagat level hk ph v).oldState.cov = P
  unfold visualIteration
  split
  · exact ⟨hreject, hold⟩
  · split_ifs
    · exact ⟨haccept _, h.cov⟩
    · exact ⟨hreject, hold⟩

/-- **The loop of a level** keeps them too. -/
lemma visualLoop_prior (hinfo : ∀ s, info (level, s) = ph.information cfg.imgPointCov s)
    (hP : P.PosDef) (hc : 0 < cfg.imgPointCov) (n : ℕ) :
    ∀ v : VisualLoop, v.toVisualEkf.Prior info P → v.oldState.cov = P →
      (visualLoop N cfg statePropagat level hk ph n v).toVisualEkf.Prior info P := by
  induction n with
  | zero => exact fun v h _ => h
  | succ n ih =>
      intro v h hold
      have hstep : (visualIteration N cfg statePropagat level hk ph v).toVisualEkf.Prior info P ∧
          (visualIteration N cfg statePropagat level hk ph v).oldState.cov = P :=
        visualIteration_prior hinfo hP hc h hold
      rw [visualLoop]
      split_ifs
      · exact hstep.1
      · exact ih _ hstep.1 hstep.2

omit [DecidableEq ι] in
lemma visualIteration_accepted (v : VisualLoop) :
    v.accepted <+: (visualIteration N cfg statePropagat level hk ph v).accepted := by
  unfold visualIteration
  split
  · exact List.prefix_rfl
  · split_ifs
    · exact List.prefix_append _ _
    · exact List.prefix_rfl

omit [DecidableEq ι] in
lemma visualLoop_accepted (n : ℕ) :
    ∀ v : VisualLoop, v.accepted <+: (visualLoop N cfg statePropagat level hk ph n v).accepted := by
  induction n with
  | zero => exact fun v => List.prefix_rfl
  | succ n ih =>
      intro v
      have hstep : v.accepted <+: (visualIteration N cfg statePropagat level hk ph v).accepted :=
        visualIteration_accepted v
      rw [visualLoop]
      split_ifs
      · exact hstep
      · exact hstep.trans (ih _)

omit [DecidableEq ι] in
/-- The first iteration of a level is accepted: there is no error to compare with yet. -/
lemma updateLevel_accepted [Nonempty ι] (hiter : 0 < cfg.maxIterations) (e : VisualEkf) :
    (updateLevel N cfg statePropagat level hk ph e).accepted ≠ [] := by
  obtain ⟨n, hn⟩ := Nat.exists_eq_succ_of_ne_zero hiter.ne'
  have hcard : (Fintype.card ι : ℚ) ≠ 0 := Nat.cast_ne_zero.mpr Fintype.card_ne_zero
  have herror : ph.error e.state =
      some ((∑ r, ph.z e.state r * ph.z e.state r) / Fintype.card ι) := if_neg hcard
  have hne : (visualIteration N cfg statePropagat level hk ph
      { e with oldState := e.state }).accepted ≠ [] := by
    unfold visualIteration
    rw [herror]
    show (if _ ≤ (⊤ : WithTop ℚ) then _ else _ : VisualLoop).accepted ≠ []
    rw [if_pos le_top]
    exact List.append_ne_nil_of_right_ne_nil _ (List.cons_ne_nil _ _)
  unfold updateLevel
  rw [hn, visualLoop]
  split_ifs
  · exact hne
  · exact fun hnil => hne (List.prefix_nil.mp (hnil ▸ visualLoop_accepted n _))

lemma updateLevel_prior (hinfo : ∀ s, info (level, s) = ph.information cfg.imgPointCov s)
    (hP : P.PosDef) (hc : 0 < cfg.imgPointCov) {e : VisualEkf} (h : e.Prior info P) :
    (updateLevel N cfg statePropagat level hk ph e).Prior info P :=
  visualLoop_prior hinfo hP hc _ _ h h.cov

/-- **The last line** turns the gain into the posterior. -/
lemma VisualEkf.Prior.finishUpdate (hP : P.PosDef) (hinfo : ∀ a, (info a).PosSemidef)
    {e : VisualEkf} (h : e.Prior info P) (haccepted : e.accepted ≠ []) :
    (finishUpdate e).Posterior info P := by
  obtain ⟨n, hn⟩ := h.covs
  have hlast := List.getLast?_eq_some_getLast haccepted
  refine ⟨⟨_, hlast, ?_⟩, n, ?_⟩
  · have hform := one_sub_gain_mul hP.isUnit (isUnit_add_inv (hinfo (e.accepted.getLast haccepted))
      hP)
    rw [← hform, Matrix.sub_mul, Matrix.one_mul, ← h.gain _ hlast, ← h.cov]
    rfl
  · show e.covs ++ _ = _
    rw [hn]
    rfl

end Visual

section Levels

variable {L : VioLibs} {cfg : VioConfig} {inp : FrameInput} {v : VIOManager}

/-- A function mapped over a list that returns gives a list of the same length. -/
lemma length_of_mapM_ok {α β : Type} {f : α → Except VioFault β} {l : List α} {r : List β}
    (h : l.mapM f = .ok r) : r.length = l.length := by
  induction l generalizing r with
  | nil =>
      rw [List.mapM_nil] at h
      obtain rfl := Except.ok.inj h
      rfl
  | cons a l ih =>
      rw [List.mapM_cons] at h
      obtain ⟨b, -, h⟩ := vio_bind_eq_ok.mp h
      obtain ⟨bs, hbs, h⟩ := vio_bind_eq_ok.mp h
      rw [← Except.ok.inj h, List.length_cons, List.length_cons, ih hbs]

/-- The information of a frame's rows at a level and state, in the variant the settings choose. -/
def VIOManager.information (L : VioLibs) (cfg : VioConfig) (inp : FrameInput) (v : VIOManager)
    (a : ℕ × StatesGroup) : MState :=
  if cfg.inverseCompositionEn then
    match v.precomputeReferencePatches with
    | .ok pts => (inversePhotometry L cfg inp.img a.1 pts).information cfg.imgPointCov a.2
    | .error _ => 0
  else
    match v.subPoints with
    | .ok pts => (photometry L cfg inp.img a.1 pts).information cfg.imgPointCov a.2
    | .error _ => 0

lemma information_posSemidef (hc : 0 < cfg.imgPointCov) (a : ℕ × StatesGroup) :
    (v.information L cfg inp a).PosSemidef := by
  unfold VIOManager.information
  split_ifs <;> split <;>
    first
    | exact Photometry.information_posSemidef _ hc
    | exact Matrix.PosSemidef.zero

/-- Steps that keep a property, and each leave an accepted linearisation, do so over all levels. -/
lemma foldl_levels {f : VisualEkf → ℕ → VisualEkf} {p : VisualEkf → Prop}
    (hstep : ∀ e level, p e → p (f e level)) (haccepted : ∀ e level, (f e level).accepted ≠ [])
    (l : List ℕ) : ∀ e, p e → p (l.foldl f e) ∧ (l ≠ [] → (l.foldl f e).accepted ≠ []) := by
  induction l with
  | nil => exact fun e he => ⟨he, fun h => absurd rfl h⟩
  | cons level l ih =>
      intro e he
      have hrest := ih _ (hstep e level he)
      refine ⟨hrest.1, fun _ => ?_⟩
      by_cases hl : l = []
      · subst hl
        exact haccepted e level
      · exact hrest.2 hl

/-- A step that needs an earlier result, the same at every level. -/
lemma foldlM_levels {β : Type} {x : Except VioFault β} {f : β → VisualEkf → ℕ → VisualEkf}
    {l : List ℕ} (hl : l ≠ []) {e e' : VisualEkf}
    (h : l.foldlM (fun e level => do let b ← x; pure (f b e level)) e = .ok e') :
    ∃ b, x = .ok b ∧ e' = l.foldl (f b) e := by
  have hx : ∃ b, x = .ok b := by
    obtain ⟨level, l', rfl⟩ := List.exists_cons_of_ne_nil hl
    rw [List.foldlM_cons] at h
    obtain ⟨e₁, he₁, -⟩ := vio_bind_eq_ok.mp h
    obtain ⟨b, hb, -⟩ := vio_bind_eq_ok.mp he₁
    exact ⟨b, hb⟩
  obtain ⟨b, hb⟩ := hx
  refine ⟨b, hb, ?_⟩
  rw [hb] at h
  clear hl
  induction l generalizing e with
  | nil =>
      rw [List.foldlM_nil] at h
      exact (Except.ok.inj h).symm
  | cons level l ih =>
      rw [List.foldlM_cons] at h
      exact ih h

/-- The rows of a submap with a point, in patches with a pixel, are not empty. -/
lemma patchRow_nonempty {n patchSize : ℕ} (hn : 0 < n) (hp : 0 < patchSize) :
    Nonempty (PatchRow n patchSize) := ⟨(⟨0, hn⟩, ⟨0, hp⟩, ⟨0, hp⟩)⟩

/-- **The levels of an update** keep the prior and leave an accepted linearisation. -/
lemma updateLevels_prior {P : MState} (hP : P.PosDef) (hc : 0 < cfg.imgPointCov)
    (hpatch : 0 < cfg.patchSize) (hlevel : 0 < cfg.patchPyrimidLevel)
    (hiter : 0 < cfg.maxIterations) (hentries : v.submap.entries ≠ []) {e e' : VisualEkf}
    (h : v.updateLevels L cfg inp e = .ok e') (he : e.Prior (v.information L cfg inp) P) :
    e'.Prior (v.information L cfg inp) P ∧ e'.accepted ≠ [] := by
  have hlevels : levels cfg ≠ [] := by simp [levels, hlevel.ne']
  have hpos : 0 < v.submap.entries.length := List.length_pos_iff.mpr hentries
  unfold VIOManager.updateLevels at h
  by_cases hinv : cfg.inverseCompositionEn = true
  · rw [if_pos hinv] at h
    simp only [hiter.ne', if_false] at h
    obtain ⟨pts, hpts, rfl⟩ := foldlM_levels (f := fun pts e level =>
      updateStateInverse L cfg inp.img inp.statePropagat pts level e) hlevels h
    have hlen : 0 < pts.length := length_of_mapM_ok hpts ▸ hpos
    have := patchRow_nonempty hlen hpatch
    have hinfo : ∀ level s, v.information L cfg inp (level, s) =
        (inversePhotometry L cfg inp.img level pts).information cfg.imgPointCov s := by
      intro level s
      simp [VIOManager.information, hinv, hpts]
    have hfold := foldl_levels (p := fun e => e.Prior (v.information L cfg inp) P)
      (f := fun e level => updateStateInverse L cfg inp.img inp.statePropagat pts level e)
      (fun e level he => updateLevel_prior (hinfo level) hP hc he)
      (fun e level => updateLevel_accepted hiter e) (levels cfg) e he
    exact ⟨hfold.1, hfold.2 hlevels⟩
  · rw [if_neg hinv] at h
    obtain ⟨pts, hpts, h⟩ := vio_bind_eq_ok.mp h
    obtain rfl := Except.ok.inj h
    have hlen : 0 < pts.length := length_of_mapM_ok hpts ▸ hpos
    have := patchRow_nonempty hlen hpatch
    have hinfo : ∀ level s, v.information L cfg inp (level, s) =
        (photometry L cfg inp.img level pts).information cfg.imgPointCov s := by
      intro level s
      simp [VIOManager.information, hinv, hpts]
    have hfold := foldl_levels (p := fun e => e.Prior (v.information L cfg inp) P)
      (f := fun e level => updateState L cfg inp.img inp.statePropagat pts level e)
      (fun e level he => updateLevel_prior (hinfo level) hP hc he)
      (fun e level => updateLevel_accepted hiter e) (levels cfg) e he
    exact ⟨hfold.1, hfold.2 hlevels⟩

/-- The settings of a visual update that has rows: a pixel variance, patches with a pixel, a level
and an iteration. -/
structure VioConfig.Updates (cfg : VioConfig) : Prop where
  imgPointCov : 0 < cfg.imgPointCov
  patchSize : 0 < cfg.patchSize
  level : 0 < cfg.patchPyrimidLevel
  iteration : 0 < cfg.maxIterations

/-- **The visual update.**  Without a point it leaves the state; otherwise the covariance is the
prior after every iteration of every level, and then the posterior of the last accepted
linearisation. -/
theorem computeJacobianAndUpdateEKF_covariance (hcfg : cfg.Updates)
    (htotal : v.totalPoints = v.submap.entries.length) (hP : inp.state.cov.PosDef)
    {v' : VIOManager} {e : VisualEkf}
    (h : v.computeJacobianAndUpdateEKF L cfg inp = .ok (v', e)) :
    if v.totalPoints = 0 then e.state = inp.state
    else e.Posterior (v.information L cfg inp) inp.state.cov := by
  unfold VIOManager.computeJacobianAndUpdateEKF at h
  by_cases hzero : v.totalPoints = 0
  · rw [if_pos hzero] at h
    rw [if_pos hzero, ← (Prod.mk.inj (Except.ok.inj h)).2]
  · rw [if_neg hzero] at h
    rw [if_neg hzero]
    obtain ⟨e₁, he₁, h⟩ := vio_bind_eq_ok.mp h
    rw [← (Prod.mk.inj (Except.ok.inj h)).2]
    have hentries : v.submap.entries ≠ [] := by
      rintro hnil
      rw [htotal, hnil] at hzero
      exact hzero rfl
    obtain ⟨hprior, haccepted⟩ := updateLevels_prior hP hcfg.imgPointCov hcfg.patchSize hcfg.level
      hcfg.iteration hentries he₁ ⟨rfl, ⟨0, rfl⟩, fun a ha => by cases ha⟩
    exact hprior.finishUpdate hP (information_posSemidef hcfg.imgPointCov) haccepted

lemma VisualEkf.Posterior.posDef {info : ℕ × StatesGroup → MState} {P : MState} {e : VisualEkf}
    (h : e.Posterior info P) (hinfo : ∀ a, (info a).PosSemidef) (hP : P.PosDef) :
    e.state.cov.PosDef := by
  obtain ⟨a, -, hcov⟩ := h.cov
  rw [hcov]
  exact posterior_posDef (hinfo a) hP

end Levels

/-! ## Runs -/

/-- A call that writes the filter state: a propagation with positive noise, a LiDAR update with
positive weights and an iteration, or a visual update that returned, of a submap as the retrieval
leaves it. -/
inductive EkfStep (L : VioLibs) : StatesGroup → StatesGroup → Prop
  | undistort (p : ImuProcess) (meas : LidarMeasureGroup) (s : StatesGroup)
      (noise : p.NoisePositive) : EkfStep L s (ImuProcess.undistortPcl L.toLibm p meas s).stat
  | lidar (u : LidarUpdate) (s : StatesGroup) (weighted : u.Weighted)
      (iteration : 0 < u.maxIterations) : EkfStep L s (u.stateEstimation L.toNumerics s).state
  | visual (cfg : VioConfig) (inp : FrameInput) (v v' : VIOManager) (e : VisualEkf)
      (updates : cfg.Updates) (total : v.totalPoints = v.submap.entries.length)
      (returns : v.computeJacobianAndUpdateEKF L cfg inp = .ok (v', e)) :
      EkfStep L inp.state e.state

/-- **One call** keeps the covariance positive definite. -/
lemma EkfStep.posDef {L : VioLibs} (hExp : ∀ angvel dt, IsUnit (Exp L.toLibm angvel dt))
    {s s' : StatesGroup} (hstep : EkfStep L s s') (h : s.cov.PosDef) : s'.cov.PosDef := by
  cases hstep with
  | undistort p meas s noise => exact ImuProcess.undistortPcl_posDef hExp noise meas h
  | lidar u s weighted iteration =>
      exact (LidarUpdate.stateEstimation_covariance weighted iteration h).posDef h
  | visual cfg inp v v' e updates total returns =>
      have hupdate := computeJacobianAndUpdateEKF_covariance updates total h returns
      by_cases hzero : v.totalPoints = 0
      · rw [if_pos hzero] at hupdate
        rwa [hupdate]
      · rw [if_neg hzero] at hupdate
        exact hupdate.posDef (information_posSemidef updates.imgPointCov) h

/-- **The covariance over a run.**  After any propagations and updates it is still symmetric and
positive definite, and an update made then changes it once, at its end: to the posterior of the
LiDAR update's last matches, or of the visual update's last accepted linearisation. -/
theorem covariance_of_run (L : VioLibs) (hExp : ∀ angvel dt, IsUnit (Exp L.toLibm angvel dt))
    {s₀ s : StatesGroup} (h₀ : s₀.cov.PosDef) (hrun : Relation.ReflTransGen (EkfStep L) s₀ s) :
    s.cov.PosDef ∧
      (∀ u : LidarUpdate, u.Weighted → 0 < u.maxIterations →
        (u.stateEstimation L.toNumerics s).Posterior u s.cov) ∧
      ∀ (cfg : VioConfig) (inp : FrameInput) (v v' : VIOManager) (e : VisualEkf), cfg.Updates →
        v.totalPoints = v.submap.entries.length → inp.state = s →
        v.computeJacobianAndUpdateEKF L cfg inp = .ok (v', e) →
          if v.totalPoints = 0 then e.state = s
          else e.Posterior (v.information L cfg inp) s.cov := by
  have hpos : s.cov.PosDef := by
    induction hrun with
    | refl => exact h₀
    | tail _ hstep ih => exact hstep.posDef hExp ih
  refine ⟨hpos, fun u hw hiter => LidarUpdate.stateEstimation_covariance hw hiter hpos, ?_⟩
  rintro cfg inp v v' e hcfg htotal rfl h
  exact computeJacobianAndUpdateEKF_covariance hcfg htotal hpos h

/-- Libraries for a vehicle at rest: no rotation is ever integrated, and the camera looks along
the third axis. -/
noncomputable def restLibs : VioLibs where
  sin := fun _ => 0
  cos := fun _ => 1
  sqrt := fun x => x
  acos := fun _ => 0
  inverse := fun A => A⁻¹
  inverse_mul := inv_mul_of_isUnit
  cam := { width := 640, height := 480, fx := 400, fy := 400
           world2cam := fun p => ![400 * p 0 / p 2 + 320, 400 * p 1 / p 2 + 240]
           cam2world := fun px => ![(px 0 - 320) / 400, (px 1 - 240) / 400, 1] }
  shiTomasiScore := fun _ _ _ => 0
  toRotation := fun R => R
  hashOrder := fun l => l
  hashOrder_perm := fun _ => List.Perm.refl _
  indeterminate := fun _ _ => 0

/-- The libraries with another camera and another root. -/
def VioLibs.withCamera (L : VioLibs) (cam : Camera) (sqrt : ℚ → ℚ) : VioLibs :=
  { L with cam := cam, sqrt := sqrt }

/-- The IMU of a vehicle at rest, with the sample it kept from the group before. -/
def restImu : ImuProcess where
  lastPropEndTime := 1
  timeLastScan := 0
  lidarType := 1
  lastImu := { stamp := 1000000000, linearAcceleration := ![0, 0, gMS2] }
  meanAcc := ![0, 0, gMS2]
  imuNeedInit := false

/-- A scan of a tenth of a second, with two samples. -/
def restGroup : LidarMeasureGroup where
  lioVioFlg := .lio
  measures := [{
    lioTime := 11 / 10
    imu := [{ stamp := 1050000000, linearAcceleration := ![0, 0, gMS2] },
      { stamp := 1100000000, linearAcceleration := ![0, 0, gMS2] }] }]

/-- The state its samples propagate the start to. -/
noncomputable def restPropagated : StatesGroup :=
  (ImuProcess.undistortPcl restLibs.toLibm restImu restGroup {}).stat

/-- A visual manager that has retrieved a point ahead. -/
def onePointManager : VIOManager where
  points := [{ pos := ![0, 0, 2] }]
  submap := { entries := [⟨0, 0, 0, List.replicate 256 100, 1⟩] }
  totalPoints := 1

/-- The frame of this point, on a gray image. -/
noncomputable def grayFrame : FrameInput where
  img := { rows := 480, cols := 640, data := List.replicate 307200 90 }
  state := restPropagated
  statePropagat := restPropagated

/-- A LiDAR update with one match, a point ten centimetres above the floor under the vehicle. -/
def floorMatch : LidarUpdate where
  maxIterations := 5
  calcBodyCov := fun _ => (1 / 400 : ℚ) • 1
  buildResidualList := fun pvs =>
    (pvs, [{ pointB := ![0, 0, -9 / 10], normal := ![0, 0, 1], center := ![0, 0, -1]
             planeVar := (1 / 10000 : ℚ) • 1, bodyCov := (1 / 400 : ℚ) • 1
             disToPlane := 1 / 10 }])
  featsDownBody := [![0, 0, -9 / 10]]
  statePropagat := {}

/-- Two samples, a frame and a scan: the frame replaces the covariance of the propagation by the
posterior of its pixels, the scan this one by the posterior of its match, and it stays positive
definite. -/
theorem covariance_of_run_threeSteps : ∃ v e,
    onePointManager.computeJacobianAndUpdateEKF restLibs {} grayFrame = .ok (v, e) ∧
    (restImu.undistortSteps restGroup).length = 2 ∧
    e.Posterior (onePointManager.information restLibs {} grayFrame) restPropagated.cov ∧
    (floorMatch.stateEstimation restLibs.toNumerics e.state).Posterior floorMatch e.state.cov ∧
    (floorMatch.stateEstimation restLibs.toNumerics e.state).state.cov.PosDef := by
  have hExp : ∀ angvel dt, IsUnit (Exp restLibs.toLibm angvel dt) := by
    intro angvel dt
    simp [Exp, restLibs]
  have hstart : (({} : StatesGroup).cov).PosDef := by
    refine Matrix.PosDef.diagonal fun i => ?_
    split_ifs <;> norm_num
  have hnoise : restImu.NoisePositive :=
    ⟨by decide +kernel, by decide +kernel, by decide +kernel, by decide +kernel, by decide +kernel⟩
  have hupdates : ({} : VioConfig).Updates := ⟨by norm_num, by decide, by decide, by decide⟩
  have hw : floorMatch.Weighted := by
    intro pvs m hm
    obtain rfl := List.mem_singleton.mp hm
    decide +kernel
  have hreturns : ∃ r, onePointManager.computeJacobianAndUpdateEKF restLibs {} grayFrame = .ok r :=
    ⟨_, rfl⟩
  obtain ⟨⟨v, e⟩, hreturns⟩ := hreturns
  have hpropagated : EkfStep restLibs {} restPropagated := .undistort restImu restGroup {} hnoise
  have hframe : EkfStep restLibs restPropagated e.state :=
    .visual {} grayFrame onePointManager v e hupdates rfl hreturns
  have hscan := EkfStep.lidar (L := restLibs) floorMatch e.state hw (by decide)
  have hvisual := (covariance_of_run restLibs hExp hstart (.single hpropagated)).2.2 {} grayFrame
    onePointManager v e hupdates rfl rfl hreturns
  have hlidar := (covariance_of_run restLibs hExp hstart
    (.tail (.single hpropagated) hframe)).2.1 floorMatch hw (by decide)
  exact ⟨v, e, hreturns, by decide +kernel, hvisual, hlidar, (covariance_of_run restLibs hExp hstart
    (.tail (.tail (.single hpropagated) hframe) hscan)).1⟩

end FastLivo2
