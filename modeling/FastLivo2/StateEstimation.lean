import FastLivo2.FilterState
import FastLivo2.OctoTree

/-!
# The LiDAR update

`VoxelMapManager::StateEstimation` of `voxel_map.cpp`: the iterated Kalman update against the
planes of the voxel map.

Two things the update calls are parameters: the range covariance of a body point
(`calcBodyCov`), and the matching against the octrees (`BuildResidualListOMP`), which may change
the stored points and returns any list of matches, the empty one included.  What a loop iteration
does with the matches is embedded as it stands.

The loop variables carry three ghost fields: the state and points the last iteration linearised
at, and the covariance after each iteration.
-/

namespace FastLivo2

/-- `PointToPlane`, as far as the update reads it. -/
structure PointToPlane where
  pointB : V3D
  normal : V3D
  center : V3D
  planeVar : Matrix (Fin 6) (Fin 6) ℚ
  bodyCov : M3D
  disToPlane : ℚ

/-- What `StateEstimation` reads of the manager and of the scan. -/
structure LidarUpdate where
  maxIterations : ℕ
  extR : M3D := 1
  extT : V3D := 0
  calcBodyCov : V3D → M3D
  buildResidualList : List PointWithVar → List PointWithVar × List PointToPlane
  featsDownBody : List V3D
  statePropagat : StatesGroup

namespace LidarUpdate

variable (N : Numerics) (u : LidarUpdate)

/-- The point `calcBodyCov` is given. -/
def bodyPoint (p : V3D) : V3D := if p 2 = 0 then ![p 0, p 1, 1 / 1000] else p

/-- A point of `pv_list_` under the current state; the normal of the iteration before stays. -/
def pointWithVar (s : StatesGroup) (pv : PointWithVar) (p : V3D) : PointWithVar :=
  let bodyCov := u.calcBodyCov (bodyPoint p)
  let pointCrossmat := skewSymMatrx (u.extR.mulVec (bodyPoint p) + u.extT)
  let rotVar := getBlock s.cov 0 0
  let tVar := getBlock s.cov 3 3
  { pv with
    pointB := p
    pointW := s.rotEnd.mulVec (u.extR.mulVec p + u.extT) + s.posEnd
    bodyVar := bodyCov
    var := s.rotEnd * bodyCov * s.rotEnd.transpose +
      -pointCrossmat * rotVar * -pointCrossmat.transpose + tVar }

/-! ## The linearisation -/

/-- `A`: the derivative of a match's residual along the rotation. -/
def rotJacobian (s : StatesGroup) (m : PointToPlane) : V3D :=
  (skewSymMatrx (u.extR.mulVec m.pointB + u.extT) * s.rotEnd.transpose).mulVec m.normal

/-- `Hsub`. -/
def hSub (s : StatesGroup) (ptpl : List PointToPlane) : Matrix (Fin ptpl.length) (Fin 6) ℚ :=
  fun i =>
    let A := u.rotJacobian s (ptpl.get i)
    let n := (ptpl.get i).normal
    ![A 0, A 1, A 2, n 0, n 1, n 2]

/-- `sigma_l + n * var * n`: the variance of a match besides the floor of a millimetre squared. -/
def matchVar (m : PointToPlane) : ℚ :=
  let pointThis := u.extR.mulVec m.pointB + u.extT
  let pointWorld := u.statePropagat.rotEnd.mulVec pointThis + u.statePropagat.posEnd
  let a := pointWorld - m.center
  let jNq : Fin 6 → ℚ := ![a 0, a 1, a 2, -m.normal 0, -m.normal 1, -m.normal 2]
  let R := u.statePropagat.rotEnd * u.extR
  jNq ⬝ᵥ m.planeVar.mulVec jNq + m.normal ⬝ᵥ (R * m.bodyCov * R.transpose).mulVec m.normal

/-- `R_inv`. -/
def rInv (ptpl : List PointToPlane) : Fin ptpl.length → ℚ := fun i =>
  1 / (1 / 1000 + u.matchVar (ptpl.get i))

/-- `Hsub_T_R_inv`. -/
def hSubTRInv (s : StatesGroup) (ptpl : List PointToPlane) :
    Matrix (Fin 6) (Fin ptpl.length) ℚ :=
  fun j i => u.hSub s ptpl i j * u.rInv ptpl i

/-! ## One iteration -/

/-- The variables of the loop. -/
structure Loop where
  state : StatesGroup
  pvList : List PointWithVar
  ptplList : List PointToPlane := []
  rematchNum : ℕ := 0
  G : MState := 0
  HTH : MState := 0
  ekfStop : Bool := false
  /-- The state of the last linearisation. -/
  linState : StatesGroup
  /-- The covariance after each iteration. -/
  covs : List MState := []

/-- `pv_list_` at the start of an iteration. -/
def refreshed (v : Loop) : List PointWithVar :=
  List.zipWith (u.pointWithVar v.state) v.pvList u.featsDownBody

/-- The step is small: a hundredth of a degree and 0.15 millimetres. -/
def converged (m : Libm) (solution : VState) : Prop :=
  V3D.norm m (solution.seg 0) * (573 / 10) < 1 / 100 ∧ V3D.norm m (solution.seg 3) * 100 < 15 / 1000

instance (m : Libm) (solution : VState) : Decidable (converged m solution) :=
  inferInstanceAs (Decidable (_ ∧ _))

/-- The first half of the loop body, up to `state_ += solution`; with the solution. -/
def kalmanStep (v : Loop) : Loop × VState :=
  let matched := u.buildResidualList (u.refreshed v)
  let ptpl := matched.2
  let s := v.state
  let HTz := (u.hSubTRInv s ptpl).mulVec fun i => -(ptpl.get i).disToPlane
  let H66 := u.hSubTRInv s ptpl * u.hSub s ptpl
  let HTH := setCorner v.HTH H66
  let K1 := N.inverse (HTH + N.inverse s.cov)
  let G := setCorner v.G (leadCols K1 (d := 6) (by decide) * H66)
  let vec := u.statePropagat.sub N s
  let solution : VState := (leadCols K1 (d := 6) (by decide)).mulVec HTz + vec -
    (leadCols G (d := 6) (by decide)).mulVec (vec.lead (by decide))
  ({ v with
      state := s.add N.toLibm solution, pvList := matched.1, ptplList := ptpl
      G := G, HTH := HTH, linState := s }, solution)

/-- The second half: the rematch count, and the covariance update that ends the loop. -/
def judge (m : Libm) (iterCount : ℕ) (solution : VState) (v : Loop) : Loop :=
  let rematchNum :=
    if converged m solution ∨ (v.rematchNum = 0 ∧ iterCount + 2 = u.maxIterations) then
      v.rematchNum + 1
    else v.rematchNum
  let v := { v with rematchNum := rematchNum }
  if 2 ≤ rematchNum ∨ iterCount + 1 = u.maxIterations then
    let s := { v.state with cov := (1 - v.G) * v.state.cov }
    { v with state := s, ekfStop := true, covs := v.covs ++ [s.cov] }
  else { v with ekfStop := false, covs := v.covs ++ [v.state.cov] }

/-- The body of the loop. -/
def iteration (iterCount : ℕ) (v : Loop) : Loop :=
  let r := u.kalmanStep N v
  u.judge N.toLibm iterCount r.2 r.1

/-- The loop: `n` iterations are left, `iterCount` are done. -/
def loop : ℕ → ℕ → Loop → Loop
  | 0, _, v => v
  | n + 1, iterCount, v =>
      let v := u.iteration N iterCount v
      if v.ekfStop then v else loop n (iterCount + 1) v

/-- `VoxelMapManager::StateEstimation` on `state_`. -/
def stateEstimation (s : StatesGroup) : Loop :=
  loop N u u.maxIterations 0
    { state := s, linState := s
      pvList := List.replicate u.featsDownBody.length {} }

/-! ## The covariance -/

/-- The information of the matches at a linearisation, as a matrix of the state's size. -/
def information (s : StatesGroup) (ptpl : List PointToPlane) : MState :=
  (padCols dimState (u.hSub s ptpl)).transpose * Matrix.diagonal (u.rInv ptpl) *
    padCols dimState (u.hSub s ptpl)

/-- The inverse variance of every match is positive. -/
def Weighted : Prop :=
  ∀ pvs, ∀ m ∈ (u.buildResidualList pvs).2, 0 < 1 / (1 / 1000 + u.matchVar m)

variable {N u}

lemma rInv_nonneg (h : u.Weighted) (pvs : List PointWithVar) :
    0 ≤ u.rInv (u.buildResidualList pvs).2 :=
  fun i => (h pvs _ (List.get_mem _ i)).le

lemma hSubTRInv_eq (s : StatesGroup) (ptpl : List PointToPlane) :
    u.hSubTRInv s ptpl = (u.hSub s ptpl).transpose * Matrix.diagonal (u.rInv ptpl) := by
  ext j i
  rw [Matrix.mul_diagonal]
  rfl

/-- The corner an iteration writes is the information of its matches. -/
lemma setCorner_information (s : StatesGroup) (ptpl : List PointToPlane) :
    setCorner (0 : MState) (u.hSubTRInv s ptpl * u.hSub s ptpl) = u.information s ptpl := by
  rw [hSubTRInv_eq, Matrix.mul_assoc, setCorner_gram, padCols_mul, information, Matrix.mul_assoc]

lemma gain_information (K1 : MState) (s : StatesGroup) (ptpl : List PointToPlane) :
    setCorner (0 : MState) (leadCols K1 (d := 6) (by decide) *
      (u.hSubTRInv s ptpl * u.hSub s ptpl)) = K1 * u.information s ptpl := by
  rw [hSubTRInv_eq, Matrix.mul_assoc, gain_setCorner, padCols_mul, information, Matrix.mul_assoc]

lemma information_posSemidef {s : StatesGroup} {ptpl : List PointToPlane}
    (h : 0 ≤ u.rInv ptpl) : (u.information s ptpl).PosSemidef := by
  have hgram := weighted_gram_posSemidef (padCols dimState (u.hSub s ptpl)) h
  rwa [Matrix.conjTranspose_eq_transpose_of_trivial] at hgram

/-- The loop variables while the covariance is still the prior `P`: the two accumulated matrices
are zero outside the corner. -/
structure Loop.Prior (P : MState) (v : Loop) : Prop where
  cov : v.state.cov = P
  gain : ∃ B : Matrix (Fin dimState) (Fin 6) ℚ, v.G = setCorner 0 B
  corner : ∃ B : Matrix (Fin 6) (Fin 6) ℚ, v.HTH = setCorner 0 B
  covs : ∃ k, v.covs = List.replicate k P

/-- The loop variables once the covariance has been updated, `P` being the prior: it was `P` after
every iteration but the last, and is the posterior of the last linearisation. -/
structure Loop.Posterior (u : LidarUpdate) (P : MState) (v : Loop) : Prop where
  cov : v.state.cov = posterior (u.information v.linState v.ptplList) P
  covs : ∃ k, v.covs = List.replicate k P ++ [v.state.cov]
  weighted : 0 ≤ u.rInv v.ptplList

/-- What the second half of an iteration does: it ends the loop with the covariance update, or it
leaves the state and is not the last iteration. -/
lemma judge_cases (m : Libm) (iterCount : ℕ) (solution : VState) (v : Loop) :
    ∃ rematchNum, u.judge m iterCount solution v =
        { v with
          rematchNum := rematchNum, state := { v.state with cov := (1 - v.G) * v.state.cov }
          ekfStop := true, covs := v.covs ++ [(1 - v.G) * v.state.cov] } ∨
      (iterCount + 1 ≠ u.maxIterations ∧ u.judge m iterCount solution v =
        { v with
          rematchNum := rematchNum, ekfStop := false, covs := v.covs ++ [v.state.cov] }) := by
  unfold judge
  dsimp only
  generalize (if converged m solution ∨ (v.rematchNum = 0 ∧ iterCount + 2 = u.maxIterations) then
    v.rematchNum + 1 else v.rematchNum) = rematchNum
  refine ⟨rematchNum, ?_⟩
  by_cases hends : 2 ≤ rematchNum ∨ iterCount + 1 = u.maxIterations
  · rw [if_pos hends]
    exact .inl rfl
  · rw [if_neg hends]
    exact .inr ⟨fun hlast => hends (.inr hlast), rfl⟩

/-- The gain of an iteration is that of its matches. -/
lemma kalmanStep_gain {P : MState} {v : Loop} (hw : u.Weighted) (hP : P.PosDef) (h : v.Prior P) :
    let r := (u.kalmanStep N v).1
    r.G = posterior (u.information r.linState r.ptplList) P *
      u.information r.linState r.ptplList := by
  intro r
  obtain ⟨BG, hG⟩ := h.gain
  obtain ⟨BH, hH⟩ := h.corner
  have hunit : IsUnit (u.information r.linState r.ptplList + P⁻¹) :=
    isUnit_add_inv (information_posSemidef (rInv_nonneg hw _)) hP
  have hHTH : r.HTH = u.information r.linState r.ptplList := by
    show setCorner v.HTH _ = _
    rw [hH, setCorner_setCorner]
    exact setCorner_information _ _
  show setCorner v.G (leadCols (N.inverse (r.HTH + N.inverse v.state.cov)) _ * _) = _
  rw [hHTH, h.cov, N.inverse_eq hP.isUnit, N.inverse_eq hunit, hG, setCorner_setCorner]
  exact gain_information _ _ _

/-- After the first half of an iteration the covariance is still the prior. -/
lemma kalmanStep_prior {P : MState} {v : Loop} (h : v.Prior P) :
    (u.kalmanStep N v).1.Prior P := by
  obtain ⟨BG, hG⟩ := h.gain
  obtain ⟨BH, hH⟩ := h.corner
  refine ⟨h.cov, ?_, ?_, h.covs⟩
  · simp only [kalmanStep, hG, setCorner_setCorner]
    exact ⟨_, rfl⟩
  · simp only [kalmanStep, hH, setCorner_setCorner]
    exact ⟨_, rfl⟩

/-- **One iteration.**  It either leaves the prior or ends the loop with the posterior of its
linearisation. -/
lemma iteration_covariance {P : MState} {v : Loop} (hw : u.Weighted) (hP : P.PosDef)
    (h : v.Prior P) (iterCount : ℕ) :
    let r := u.iteration N iterCount v
    (r.ekfStop = true ∧ r.Posterior u P) ∨
      (r.ekfStop = false ∧ r.Prior P ∧ iterCount + 1 ≠ u.maxIterations) := by
  have hprior := kalmanStep_prior (N := N) (u := u) h
  have hgain := kalmanStep_gain (N := N) hw hP h
  have hnonneg : 0 ≤ u.rInv (u.kalmanStep N v).1.ptplList := rInv_nonneg hw _
  have hunit := isUnit_add_inv
    (information_posSemidef (s := (u.kalmanStep N v).1.linState) hnonneg) hP
  obtain ⟨k, hk⟩ := hprior.covs
  unfold iteration
  obtain ⟨rematchNum, hends | ⟨hlast, hgoes⟩⟩ :=
    judge_cases (u := u) N.toLibm iterCount (u.kalmanStep N v).2 (u.kalmanStep N v).1
  · simp only [hends]
    refine .inl ⟨trivial, ?_, ⟨k, by rw [hk]⟩, hnonneg⟩
    show (1 - (u.kalmanStep N v).1.G) * (u.kalmanStep N v).1.state.cov = _
    rw [hprior.cov, hgain]
    exact one_sub_gain_mul hP.isUnit hunit
  · simp only [hgoes]
    refine .inr ⟨trivial, ⟨hprior.cov, hprior.gain, hprior.corner, k + 1, ?_⟩, hlast⟩
    rw [hk, hprior.cov, List.replicate_succ']

/-- The loop ends with the posterior of its last linearisation. -/
lemma loop_covariance {P : MState} (hw : u.Weighted) (hP : P.PosDef) (n : ℕ) :
    ∀ (iterCount : ℕ) (v : Loop), iterCount + (n + 1) = u.maxIterations → v.Prior P →
      (loop N u (n + 1) iterCount v).Posterior u P := by
  induction n with
  | zero =>
      intro iterCount v hcount h
      rcases iteration_covariance (N := N) hw hP h iterCount with ⟨hstop, hpost⟩ | ⟨-, -, hlast⟩
      · simpa [loop, hstop] using hpost
      · omega
  | succ n ih =>
      intro iterCount v hcount h
      rcases iteration_covariance (N := N) hw hP h iterCount with
        ⟨hstop, hpost⟩ | ⟨hgo, hprior, -⟩
      · rw [loop, if_pos hstop]
        exact hpost
      · rw [loop, if_neg (by simp [hgo])]
        exact ih (iterCount + 1) _ (by omega) hprior

/-- **The LiDAR update.**  From a positive definite covariance, with at least one iteration, the
covariance is the prior after every iteration but the last, which replaces it by the posterior of
its matches. -/
theorem stateEstimation_covariance (hw : u.Weighted) (hiter : 0 < u.maxIterations)
    {s : StatesGroup} (hP : s.cov.PosDef) : (u.stateEstimation N s).Posterior u s.cov := by
  obtain ⟨n, hn⟩ := Nat.exists_eq_succ_of_ne_zero hiter.ne'
  unfold stateEstimation
  rw [hn]
  refine loop_covariance hw hP n 0 _ (by omega) ⟨rfl, ⟨0, ?_⟩, ⟨0, ?_⟩, 0, rfl⟩
  · rw [setCorner_zero_left, Matrix.zero_mul]
  · ext i j
    simp [setCorner]

lemma Loop.Posterior.posDef {P : MState} {v : Loop} (h : v.Posterior u P) (hP : P.PosDef) :
    v.state.cov.PosDef := by
  rw [h.cov]
  exact posterior_posDef (information_posSemidef h.weighted) hP

end LidarUpdate

end FastLivo2
