import FastLivo2.PlaneMatching
import FastLivo2.Lib.LeastSquares

/-!
# Fitting a plane

`VoxelOctoTree::init_plane` of `voxel_map.cpp`: the centre and the scatter matrix of the points of
a node, the eigenvectors of that matrix, and, where the least eigenvalue is below a threshold, the
plane orthogonal to its eigenvector with the covariance of that plane.

The eigenvalue routine is a parameter, as are the square root and the division: the covariance
divides by differences of eigenvalues, and of a quotient by zero nothing is assumed.  The node runs
the fit on rational numbers, whatever the routine gives it there.  What the fit is for is stated in
exact arithmetic, over the reals: there a symmetric matrix always has an orthonormal basis of
eigenvectors, and the routine is taken to find one (`PlaneLibs.Solves`, `PlaneLibs.exists_solves`).

The plane is the least squares plane of the points, and the node is a plane exactly when some plane
is close enough to them (`initPlane_best`).  Its covariance sends the covariance of each point
through the first-order change of normal and centre when that point moves (`initPlane_var`).
`d_` is left out of these statements: it is a `float` of the offset of the plane, which is that of
its centre.
-/

namespace FastLivo2

open Matrix

/-- What `init_plane` calls: `Eigen::EigenSolver`, the root, and a division. -/
structure PlaneLibs (K : Type := ℚ) [Field K] where
  evecs : Matrix (Fin 3) (Fin 3) K → Matrix (Fin 3) (Fin 3) K
  evals : Matrix (Fin 3) (Fin 3) K → Fin 3 → K
  sqrt : K → K
  div : K → K → K
  div_eq : ∀ x y, y ≠ 0 → div x y = x / y

variable {K : Type} [Field K] [LinearOrder K]

/-- `minCoeff(&evalsMin)`: the first place of the least entry. -/
def evalsMin (evals : Fin 3 → K) : Fin 3 :=
  if evals 0 ≤ evals 1 ∧ evals 0 ≤ evals 2 then 0 else if evals 1 ≤ evals 2 then 1 else 2

/-- `maxCoeff(&evalsMax)`: the first place of the greatest entry. -/
def evalsMax (evals : Fin 3 → K) : Fin 3 :=
  if evals 1 ≤ evals 0 ∧ evals 2 ≤ evals 0 then 0 else if evals 2 ≤ evals 1 then 1 else 2

/-- `evalsMid`, the column read for the eigenvector between the two. -/
def evalsMid (evals : Fin 3 → K) : ℤ := 3 - (evalsMin evals).val - (evalsMax evals).val

section Fit

variable (L : PlaneLibs K) (points : List (PointWithVar K))

/-- `center_`. -/
def planeCenter : Fin 3 → K := (points.length : K)⁻¹ • (points.map PointWithVar.pointW).sum

/-- `covariance_`. -/
def planeCovariance : Matrix (Fin 3) (Fin 3) K :=
  (points.length : K)⁻¹ • (points.map fun pv => vecMulVec pv.pointW pv.pointW).sum -
    vecMulVec (planeCenter points) (planeCenter points)

/-- `evecs`. -/
def planeEvecs : Matrix (Fin 3) (Fin 3) K := L.evecs (planeCovariance points)

/-- `evalsReal`. -/
def planeEvals : Fin 3 → K := L.evals (planeCovariance points)

/-- `F_m`: a row of `F` for an eigenvector other than the one of the least eigenvalue. -/
def jacobianRow (pv : PointWithVar K) (m : Fin 3) : Fin 3 → K :=
  let evals := planeEvals L points
  let k := evalsMin evals
  let v := (planeEvecs L points).col
  let a : Fin 3 → K := fun j => L.div ((pv.pointW - planeCenter points) j)
    (points.length * (evals k - evals m))
  a ᵥ* (vecMulVec (v m) (v k) + vecMulVec (v k) (v m))

/-- `F`. -/
def jacobianF (pv : PointWithVar K) : Matrix (Fin 3) (Fin 3) K :=
  fun m => if m ≠ evalsMin (planeEvals L points) then jacobianRow L points pv m else 0

/-- `J`: the normal above the centre. -/
def planeJacobian (pv : PointWithVar K) : Matrix (Fin 6) (Fin 3) K :=
  let A := planeEvecs L points * jacobianF L points pv
  let JQ : Matrix (Fin 3) (Fin 3) K := (1 / (points.length : K)) • 1
  Matrix.of ![A 0, A 1, A 2, JQ 0, JQ 1, JQ 2]

/-- `plane_var_`. -/
def planeVarOf : Matrix (Fin 6) (Fin 6) K :=
  (points.map fun pv => planeJacobian L points pv * pv.var * (planeJacobian L points pv)ᵀ).sum

end Fit

/-- `VoxelOctoTree::init_plane`: what it leaves of the plane of the points.  Where they make no
plane the offset stays as it was. -/
def initPlane (L : PlaneLibs K) (planerThreshold : K) (points : List (PointWithVar K))
    (plane : VoxelPlane K) : VoxelPlane K :=
  let evals := planeEvals L points
  let center := planeCenter points
  if evals (evalsMin evals) < planerThreshold then
    let normal := (planeEvecs L points).col (evalsMin evals)
    { center := center
      normal := normal
      planeVar := planeVarOf L points
      radius := L.sqrt (evals (evalsMax evals))
      d := -(normal ⬝ᵥ center)
      isPlane := true }
  else { center := center, d := plane.d }

/-! ## The least squares plane -/

/-- The places of the points. -/
def pointsW (points : List (PointWithVar K)) (i : Fin points.length) : Fin 3 → K :=
  (points.get i).pointW

/-- The solver finds an orthonormal basis of eigenvectors for the scatter matrix of the points. -/
def PlaneLibs.Solves (L : PlaneLibs K) (points : List (PointWithVar K)) : Prop :=
  EigenBasis (planeCovariance points) (planeEvecs L points) (planeEvals L points)

omit [Field K] in
lemma evalsMin_le (evals : Fin 3 → K) (j : Fin 3) : evals (evalsMin evals) ≤ evals j := by
  unfold evalsMin
  split_ifs with h01 h12
  · fin_cases j
    · exact le_rfl
    · exact h01.1
    · exact h01.2
  · rcases not_and_or.mp h01 with h | h <;> fin_cases j <;> simp only [Fin.isValue] at * <;> grind
  · rcases not_and_or.mp h01 with h | h <;> fin_cases j <;> simp only [Fin.isValue] at * <;> grind

omit [LinearOrder K] in
lemma centre_pointsW (points : List (PointWithVar K)) :
    centre (pointsW points) = planeCenter points := by
  unfold centre planeCenter pointsW
  rw [Fintype.card_fin, ← Fin.sum_univ_fun_getElem]
  rfl

omit [LinearOrder K] in
lemma scatter_pointsW (points : List (PointWithVar K)) :
    scatter (pointsW points) = planeCovariance points := by
  unfold scatter planeCovariance
  rw [centre_pointsW, Fintype.card_fin, ← Fin.sum_univ_fun_getElem]
  rfl

omit [LinearOrder K] in
lemma planeCovariance_transpose (points : List (PointWithVar K)) :
    (planeCovariance points)ᵀ = planeCovariance points := by
  rw [← scatter_pointsW, scatter]
  simp only [Matrix.transpose_sub, Matrix.transpose_smul, Matrix.transpose_sum, transpose_vecMulVec]

/-- **Some solver finds them all.**  Over the reals there is an eigenvalue routine that solves every
fit. -/
theorem PlaneLibs.exists_solves : ∃ L : PlaneLibs ℝ, ∀ points, L.Solves points := by
  have hbasis : ∀ C : Matrix (Fin 3) (Fin 3) ℝ, ∃ (V : Matrix (Fin 3) (Fin 3) ℝ) (lam : Fin 3 → ℝ),
      Cᵀ = C → EigenBasis C V lam := by
    intro C
    by_cases hC : Cᵀ = C
    · obtain ⟨V, lam, h⟩ := exists_eigenBasis hC
      exact ⟨V, lam, fun _ => h⟩
    · exact ⟨0, 0, fun h => absurd h hC⟩
  choose evecs evals hsolves using hbasis
  refine ⟨⟨evecs, evals, Real.sqrt, fun x y => x / y, fun _ _ _ => rfl⟩, fun points => ?_⟩
  exact hsolves _ (planeCovariance_transpose points)

section Best

variable {L : PlaneLibs K} {thr : K} {points : List (PointWithVar K)} {plane : VoxelPlane K}

omit [LinearOrder K] in
lemma PlaneLibs.Solves.basis (h : L.Solves points) :
    EigenBasis (scatter (pointsW points)) (planeEvecs L points) (planeEvals L points) := by
  rw [scatter_pointsW]
  exact h

lemma initPlane_of_lt (h : planeEvals L points (evalsMin (planeEvals L points)) < thr) :
    initPlane L thr points plane =
      let normal := (planeEvecs L points).col (evalsMin (planeEvals L points))
      { center := planeCenter points
        normal := normal
        planeVar := planeVarOf L points
        radius := L.sqrt (planeEvals L points (evalsMax (planeEvals L points)))
        d := -(normal ⬝ᵥ planeCenter points)
        isPlane := true } := if_pos h

lemma initPlane_of_ge (h : ¬planeEvals L points (evalsMin (planeEvals L points)) < thr) :
    initPlane L thr points plane = { center := planeCenter points, d := plane.d } := if_neg h

lemma initPlane_isPlane : (initPlane L thr points plane).isPlane = true ↔
    planeEvals L points (evalsMin (planeEvals L points)) < thr := by
  by_cases h : planeEvals L points (evalsMin (planeEvals L points)) < thr
  · rw [initPlane_of_lt h]
    exact iff_of_true rfl h
  · rw [initPlane_of_ge h]
    exact iff_of_false Bool.false_ne_true h

end Best

/-- **The best plane.**  Points are made a plane exactly when some plane leaves a mean squared
distance of them below the threshold.  The plane they then get goes through their centre, has a
unit normal, and no plane leaves a smaller mean squared distance. -/
theorem initPlane_best (L : PlaneLibs ℝ) (thr : ℝ) (points : List (PointWithVar ℝ))
    (plane : VoxelPlane ℝ) (hne : points ≠ []) (hsolves : L.Solves points) :
    let fitted := initPlane L thr points plane
    (fitted.isPlane = true ↔ ∃ u e, u ⬝ᵥ u = 1 ∧ meanSq (pointsW points) u e < thr) ∧
    (fitted.isPlane = true →
      fitted.center = centre (pointsW points) ∧ fitted.normal ⬝ᵥ fitted.normal = 1 ∧
      ∀ u e, u ⬝ᵥ u = 1 →
        meanSq (pointsW points) fitted.normal (-(fitted.normal ⬝ᵥ fitted.center)) ≤
          meanSq (pointsW points) u e) := by
  intro fitted
  have hnonempty : Nonempty (Fin points.length) :=
    Fin.pos_iff_nonempty.mp (List.length_pos_iff.mpr hne)
  have hbasis := hsolves.basis
  have hleast := evalsMin_le (planeEvals L points)
  have hunit := (hbasis.col_dot_col (evalsMin (planeEvals L points)) _).trans (if_pos rfl)
  constructor
  · rw [initPlane_isPlane]
    constructor
    · intro hlt
      exact ⟨_, _, hunit, (meanSq_eigenvector hbasis _).trans_lt hlt⟩
    · rintro ⟨u, e, hu, hlt⟩
      have hbest := best_plane hbasis hleast hu e
      rw [meanSq_eigenvector hbasis] at hbest
      exact hbest.trans_lt hlt
  · intro hplane
    have heq : fitted = _ := initPlane_of_lt (initPlane_isPlane.mp hplane)
    rw [heq]
    refine ⟨(centre_pointsW points).symm, hunit, fun u e hu => ?_⟩
    have hbest := best_plane hbasis hleast hu e
    rwa [centre_pointsW] at hbest

/-- The point, among the reals. -/
noncomputable def PointWithVar.toReal (pv : PointWithVar) : PointWithVar ℝ where
  pointW := Rat.castHom ℝ ∘ pv.pointW
  var := pv.var.map (Rat.castHom ℝ)

lemma planeCenter_toReal (points : List PointWithVar) :
    planeCenter (points.map PointWithVar.toReal) = Rat.castHom ℝ ∘ planeCenter points := by
  have hsum := map_list_sum ((Rat.castHom ℝ).toAddMonoidHom.compLeft (Fin 3))
    (points.map PointWithVar.pointW)
  funext j
  have hentry := congrFun hsum j
  rw [List.map_map] at hentry
  unfold planeCenter
  rw [List.map_map, List.length_map]
  simp only [Pi.smul_apply, Function.comp_apply, smul_eq_mul, map_mul, map_inv₀, map_natCast]
  exact congrArg _ hentry.symm

lemma planeCovariance_toReal (points : List PointWithVar) :
    planeCovariance (points.map PointWithVar.toReal) =
      (planeCovariance points).map (Rat.castHom ℝ) := by
  have hsum := map_list_sum (RingHom.mapMatrix (Rat.castHom ℝ))
    (points.map fun pv => vecMulVec pv.pointW pv.pointW)
  have houter : ∀ v : V3D, RingHom.mapMatrix (Rat.castHom ℝ) (vecMulVec v v) =
      vecMulVec (Rat.castHom ℝ ∘ v) (Rat.castHom ℝ ∘ v) := by
    intro v
    ext i j
    exact map_mul (Rat.castHom ℝ) _ _
  rw [List.map_map] at hsum
  unfold planeCovariance
  rw [planeCenter_toReal, ← houter, List.map_map, List.length_map]
  ext i j
  have hentry := congrFun (congrFun hsum i) j
  simp only [Function.comp_def, houter] at hentry
  simp only [Matrix.sub_apply, Matrix.smul_apply, Matrix.map_apply, smul_eq_mul, map_sub, map_mul,
    map_inv₀, map_natCast]
  exact congrArg₂ _ (congrArg _ hentry.symm) rfl

/-- Four points on a ramp that rises along the second axis, each a twentieth off it and known up to
a centimetre. -/
def rampPoints : List PointWithVar :=
  [![2, 16 / 25, 77 / 100], ![2, -16 / 25, -77 / 100], ![-2, 14 / 25, 83 / 100],
    ![-2, -14 / 25, -83 / 100]].map fun p => { pointW := p, var := (1 / 10000 : ℚ) • 1 }

/-- Their eigenvectors: along the ramp, up it, and across. -/
def rampEvecs : M3D := !![1, 0, 0; 0, 3 / 5, 4 / 5; 0, 4 / 5, -3 / 5]

def rampEvals : V3D := ![4, 1, 1 / 400]

lemma rampPoints_basis : EigenBasis (planeCovariance rampPoints) rampEvecs rampEvals :=
  ⟨by decide +kernel, by decide +kernel⟩

/-- The solver on their scatter matrix. -/
noncomputable def rampSolver : PlaneLibs ℝ where
  evecs := fun _ => rampEvecs.map (Rat.castHom ℝ)
  evals := fun _ => Rat.castHom ℝ ∘ rampEvals
  sqrt := Real.sqrt
  div := fun x y => x / y
  div_eq := fun _ _ _ => rfl

noncomputable def realRamp : List (PointWithVar ℝ) := rampPoints.map PointWithVar.toReal

lemma rampSolver_solves : rampSolver.Solves realRamp := by
  unfold PlaneLibs.Solves realRamp
  rw [planeCovariance_toReal]
  exact rampPoints_basis.map (Rat.castHom ℝ)

lemma rampSolver_evals (j : Fin 3) : planeEvals rampSolver realRamp j = (rampEvals j : ℝ) := rfl

lemma rampSolver_evalsMin : evalsMin (planeEvals rampSolver realRamp) = 2 := by
  have h01 : ¬rampEvals 0 ≤ rampEvals 2 := by decide +kernel
  have h12 : ¬rampEvals 1 ≤ rampEvals 2 := by decide +kernel
  unfold evalsMin
  simp only [rampSolver_evals, Rat.cast_le]
  rw [if_neg fun h => h01 h.2, if_neg h12]

lemma rampSolver_least :
    planeEvals rampSolver realRamp (evalsMin (planeEvals rampSolver realRamp)) = 1 / 400 := by
  rw [rampSolver_evalsMin, rampSolver_evals, show rampEvals 2 = 1 / 400 from rfl]
  norm_num

lemma initPlane_ramp (plane : VoxelPlane ℝ) :
    (initPlane rampSolver (1 / 100) realRamp plane).isPlane = true := by
  rw [initPlane_isPlane, rampSolver_least]
  norm_num

/-- The four points make a plane, and none is better. -/
theorem initPlane_best_ramp :
    let fitted := initPlane rampSolver (1 / 100) realRamp {}
    fitted.isPlane = true ∧ fitted.center = centre (pointsW realRamp) ∧
      fitted.normal ⬝ᵥ fitted.normal = 1 ∧ ∀ u e, u ⬝ᵥ u = 1 →
        meanSq (pointsW realRamp) fitted.normal (-(fitted.normal ⬝ᵥ fitted.center)) ≤
          meanSq (pointsW realRamp) u e := by
  have hplane := initPlane_ramp {}
  have hne : realRamp ≠ [] := List.cons_ne_nil _ _
  exact ⟨hplane, (initPlane_best rampSolver (1 / 100) realRamp {} hne rampSolver_solves).2 hplane⟩

/-! ## The column between -/

/-- The column lies between the two others when they are different places, and past the matrix when
all three eigenvalues are equal. -/
lemma evalsMid_cases {K : Type} [LinearOrder K] (evals : Fin 3 → K) :
    (∃ m : Fin 3, evalsMid evals = m.val ∧ m ≠ evalsMin evals ∧ m ≠ evalsMax evals ∧
      evals (evalsMin evals) ≠ evals (evalsMax evals)) ∨
      evalsMid evals = 3 ∧ ∀ i j, evals i = evals j := by
  unfold evalsMid evalsMin evalsMax
  split_ifs with hmin hmax hmax' hmin' hmax hmax' hmax hmax'
  · refine .inr ⟨rfl, ?_⟩
    have h1 : evals 1 = evals 0 := le_antisymm hmax.1 hmin.1
    have h2 : evals 2 = evals 0 := le_antisymm hmax.2 hmin.2
    intro i j
    fin_cases i <;> fin_cases j <;> simp [h1, h2]
  · exact .inl ⟨2, by decide, by decide, by decide, by grind⟩
  · exact .inl ⟨1, by decide, by decide, by decide, by grind⟩
  · exact .inl ⟨2, by decide, by decide, by decide, by grind⟩
  · grind
  · exact .inl ⟨0, by decide, by decide, by decide, by grind⟩
  · exact .inl ⟨1, by decide, by decide, by decide, by grind⟩
  · exact .inl ⟨0, by decide, by decide, by decide, by grind⟩
  · grind

/-- **The column read.**  The middle eigenvector is one of the three, and neither the first nor the
last, unless the points spread alike in every direction: then the column read does not exist. -/
theorem evalsMid_range (L : PlaneLibs ℝ) (points : List (PointWithVar ℝ))
    (hsolves : L.Solves points) :
    (∃ m : Fin 3, evalsMid (planeEvals L points) = m.val) ↔
      ¬∃ c : ℝ, planeCovariance points = c • 1 := by
  have hbasis : EigenBasis (planeCovariance points) _ _ := hsolves
  rcases evalsMid_cases (planeEvals L points) with ⟨m, hm, -, -, hne⟩ | ⟨hthree, hall⟩
  · refine iff_of_true ⟨m, hm⟩ ?_
    rintro ⟨c, hc⟩
    refine hne ?_
    have hvalue : ∀ i, planeEvals L points i = c := by
      intro i
      have hquad := hbasis.col_dot_mulVec i ((planeEvecs L points).col i)
      rw [hc, Matrix.smul_mulVec, Matrix.one_mulVec, dotProduct_smul, hbasis.col_dot_col,
        if_pos rfl] at hquad
      simpa using hquad.symm
    rw [hvalue, hvalue]
  · refine iff_of_false ?_ (not_not.mpr ⟨planeEvals L points 0, ?_⟩)
    · rintro ⟨m, hm⟩
      have hlt := m.isLt
      omega
    · have hconst : planeEvals L points = fun _ => planeEvals L points 0 :=
        funext fun i => hall i 0
      have hscatter : planeCovariance points =
          planeEvecs L points * diagonal (planeEvals L points) * (planeEvecs L points)ᵀ := by
        rw [← hbasis.eigen, Matrix.mul_assoc, hbasis.col_mul_row, Matrix.mul_one]
      rw [hscatter, hconst, ← Matrix.smul_one_eq_diagonal, Matrix.mul_smul, Matrix.smul_mul,
        Matrix.mul_one, hbasis.col_mul_row]

/-- The points on the ramp spread more along it than up it, and hardly across. -/
theorem evalsMid_range_ramp :
    ∃ m : Fin 3, evalsMid (planeEvals rampSolver realRamp) = m.val := by
  refine (evalsMid_range rampSolver realRamp rampSolver_solves).mpr ?_
  rintro ⟨c, hc⟩
  unfold realRamp at hc
  rw [planeCovariance_toReal] at hc
  have h0 : ((planeCovariance rampPoints 0 0 : ℚ) : ℝ) = c := by
    simpa using congrFun (congrFun hc 0) 0
  have h1 : ((planeCovariance rampPoints 1 1 : ℚ) : ℝ) = c := by
    simpa using congrFun (congrFun hc 1) 1
  have hne : planeCovariance rampPoints 0 0 ≠ planeCovariance rampPoints 1 1 := by decide +kernel
  exact hne (Rat.cast_injective (h0.trans h1.symm))

/-! ## The covariance of the plane -/

/-- The derivatives of the signed distance of a point along normal and centre. -/
def VoxelPlane.jNq (plane : VoxelPlane K) (q : Fin 3 → K) : Fin 6 → K :=
  let a := q - plane.center
  ![a 0, a 1, a 2, -plane.normal 0, -plane.normal 1, -plane.normal 2]

lemma VoxelPlane.sigmaL_eq (plane : VoxelPlane) (q : V3D) (var : M3D) :
    plane.sigmaL q var = plane.jNq q ⬝ᵥ plane.planeVar.mulVec (plane.jNq q) +
      plane.normal ⬝ᵥ var.mulVec plane.normal := rfl

/-- A change of the normal above a change of the centre. -/
def stacked (y z : Fin 3 → K) : Fin 6 → K := ![y 0, y 1, y 2, z 0, z 1, z 2]

omit [LinearOrder K] in
lemma jNq_dot_stacked (plane : VoxelPlane K) (q y z : Fin 3 → K) :
    plane.jNq q ⬝ᵥ stacked y z = (q - plane.center) ⬝ᵥ y - plane.normal ⬝ᵥ z := by
  simp [VoxelPlane.jNq, stacked, dotProduct, Fin.sum_univ_six, Fin.sum_univ_three]
  ring

/-- A plane answers to its points by the matrices `J`: its covariance is that of the points taken
through them, and they send a displacement of a point to what it makes of the plane: the one change
of the normal along which it follows the point, and the change of the centre.  The signed distance
of any place then changes by the product with the derivatives the residuals use. -/
structure PlaneResponds (points : List (PointWithVar K)) (plane : VoxelPlane K) (ev : K)
    (J : Fin points.length → Matrix (Fin 6) (Fin 3) K) : Prop where
  planeVar : plane.planeVar = ∑ i, J i * (points.get i).var * (J i)ᵀ
  responds : ∀ i x, ∃ y z : Fin 3 → K, (J i).mulVec x = stacked y z ∧
    (∀ y', NormalFollows (pointsW points) i x plane.normal ev y' ↔ y' = y) ∧
    (∀ t : K, centre (moved (pointsW points) i (t • x)) = plane.center + t • z) ∧
    ∀ (q : Fin 3 → K) (t : K), (plane.normal + t • y) ⬝ᵥ (q - (plane.center + t • z)) =
      plane.normal ⬝ᵥ (q - plane.center) + t * (plane.jNq q ⬝ᵥ (J i).mulVec x) - t ^ 2 * (y ⬝ᵥ z)

section Var

variable {L : PlaneLibs K} {points : List (PointWithVar K)}

/-- The least eigenvalue is simple. -/
def PlaneLibs.Simple (L : PlaneLibs K) (points : List (PointWithVar K)) : Prop :=
  ∀ j, j ≠ evalsMin (planeEvals L points) →
    planeEvals L points (evalsMin (planeEvals L points)) ≠ planeEvals L points j

lemma planeJacobian_mulVec (pv : PointWithVar K) (x : Fin 3 → K) :
    (planeJacobian L points pv).mulVec x =
      stacked ((planeEvecs L points).mulVec ((jacobianF L points pv).mulVec x))
        ((1 / (points.length : K)) • x) := by
  rw [Matrix.mulVec_mulVec]
  funext i
  fin_cases i <;>
    simp [planeJacobian, stacked, Matrix.mulVec, dotProduct, Fin.sum_univ_three, Matrix.one_apply]

/-- A row of `F` is the coordinate of the response along its eigenvector. -/
lemma jacobianRow_dot [CharZero K] (hsimple : L.Simple points) (i : Fin points.length)
    (x : Fin 3 → K) {m : Fin 3}
    (hm : m ≠ evalsMin (planeEvals L points)) :
    let v := (planeEvecs L points).col
    let k := evalsMin (planeEvals L points)
    jacobianRow L points (points.get i) m ⬝ᵥ x =
      v m ⬝ᵥ (variation (pointsW points) i x).mulVec (v k) /
        (planeEvals L points k - planeEvals L points m) := by
  intro v k
  have hlength : (points.length : K) ≠ 0 := Nat.cast_ne_zero.mpr (Nat.ne_zero_of_lt i.isLt)
  have hgap : planeEvals L points k - planeEvals L points m ≠ 0 := sub_ne_zero.mpr (hsimple m hm)
  have ha : (fun j => L.div (((points.get i).pointW - planeCenter points) j)
      (points.length * (planeEvals L points k - planeEvals L points m))) =
      (points.length * (planeEvals L points k - planeEvals L points m))⁻¹ •
        ((points.get i).pointW - planeCenter points) := by
    funext j
    rw [L.div_eq _ _ (mul_ne_zero hlength hgap), Pi.smul_apply, smul_eq_mul, div_eq_inv_mul]
  have hvariation : v m ⬝ᵥ (variation (pointsW points) i x).mulVec (v k) =
      (points.length : K)⁻¹ *
        ((v m ⬝ᵥ x) * (v k ⬝ᵥ ((points.get i).pointW - planeCenter points)) +
          (v m ⬝ᵥ ((points.get i).pointW - planeCenter points)) * (v k ⬝ᵥ x)) := by
    rw [variation, centre_pointsW, Fintype.card_fin, Matrix.smul_mulVec, Matrix.add_mulVec,
      dotProduct_smul, dotProduct_add, vecMulVec_mulVec, vecMulVec_mulVec, smul_eq_mul]
    simp only [dotProduct_smul, MulOpposite.smul_eq_mul_unop, MulOpposite.unop_op]
    rw [dotProduct_comm (v k) x, dotProduct_comm (v k)]
    rfl
  show (_ ᵥ* _) ⬝ᵥ x = _
  rw [ha, hvariation, ← Matrix.dotProduct_mulVec, Matrix.add_mulVec, vecMulVec_mulVec,
    vecMulVec_mulVec, smul_dotProduct, dotProduct_add]
  simp only [dotProduct_smul, MulOpposite.smul_eq_mul_unop, MulOpposite.unop_op, smul_eq_mul]
  rw [dotProduct_comm _ (v m), dotProduct_comm _ (v k)]
  field_simp
  exact add_comm _ _

/-- `evecs * F` is the response of the normal. -/
lemma evecs_jacobianF_mulVec [CharZero K] (hsimple : L.Simple points) (i : Fin points.length)
    (x : Fin 3 → K) :
    (planeEvecs L points).mulVec ((jacobianF L points (points.get i)).mulVec x) =
      response (planeEvecs L points) (planeEvals L points) (evalsMin (planeEvals L points))
        (variation (pointsW points) i x) := by
  rw [Matrix.mulVec_eq_sum, response,
    ← Finset.add_sum_erase _ _ (Finset.mem_univ (evalsMin (planeEvals L points)))]
  have hzero :
      (jacobianF L points (points.get i)).mulVec x (evalsMin (planeEvals L points)) = 0 := by
    simp [jacobianF, Matrix.mulVec]
  rw [hzero, MulOpposite.op_zero, zero_smul, zero_add]
  refine Finset.sum_congr rfl fun m hm => ?_
  have hne := Finset.ne_of_mem_erase hm
  have hrow : (jacobianF L points (points.get i)).mulVec x m =
      jacobianRow L points (points.get i) m ⬝ᵥ x := by
    simp [jacobianF, Matrix.mulVec, hne]
  rw [hrow, jacobianRow_dot hsimple i x hne, op_smul_eq_smul]
  rfl

end Var

/-- **The covariance of a plane.**  Where the least eigenvalue is simple, a fitted plane answers to
its points by matrices, and its covariance is theirs taken through these. -/
theorem initPlane_var (L : PlaneLibs ℝ) (thr : ℝ) (points : List (PointWithVar ℝ))
    (plane : VoxelPlane ℝ) (hsolves : L.Solves points) (hsimple : L.Simple points)
    (hplane : (initPlane L thr points plane).isPlane = true) :
    ∃ J, PlaneResponds points (initPlane L thr points plane)
      (planeEvals L points (evalsMin (planeEvals L points))) J := by
  have heq : initPlane L thr points plane = _ := initPlane_of_lt (initPlane_isPlane.mp hplane)
  refine ⟨fun i => planeJacobian L points (points.get i), ?_, fun i x => ?_⟩
  · rw [heq]
    exact (Fin.sum_univ_fun_getElem points fun pv =>
      planeJacobian L points pv * pv.var * (planeJacobian L points pv)ᵀ).symm
  · refine ⟨_, _, planeJacobian_mulVec _ x, fun y' => ?_, fun t => ?_, fun q t => ?_⟩
    · rw [evecs_jacobianF_mulVec hsimple, heq]
      exact normalFollows_iff hsolves.basis hsimple i x y'
    · rw [centre_moved, centre_pointsW, Fintype.card_fin, heq, smul_comm, one_div]
    · rw [planeJacobian_mulVec, jNq_dot_stacked]
      generalize (planeEvecs L points).mulVec
        ((jacobianF L points (points.get i)).mulVec x) = y
      generalize (1 / (points.length : ℝ)) • x = z
      generalize initPlane L thr points plane = fitted
      rw [← sub_sub, dotProduct_sub, add_dotProduct, add_dotProduct, smul_dotProduct,
        smul_dotProduct, dotProduct_smul, dotProduct_smul, dotProduct_comm y (q - fitted.center)]
      simp only [smul_eq_mul]
      ring

/-- The plane of the ramp answers to its four points. -/
theorem initPlane_var_ramp :
    ∃ J, PlaneResponds realRamp (initPlane rampSolver (1 / 100) realRamp {}) (1 / 400) J := by
  have hsimple : rampSolver.Simple realRamp := by
    intro j hj hsame
    rw [rampSolver_evalsMin] at hj hsame
    rw [rampSolver_evals, rampSolver_evals, Rat.cast_inj] at hsame
    have hne : ∀ j : Fin 3, j ≠ 2 → rampEvals 2 ≠ rampEvals j := by decide +kernel
    exact hne j hj hsame
  have h := initPlane_var rampSolver (1 / 100) realRamp {} rampSolver_solves hsimple
    (initPlane_ramp {})
  rwa [rampSolver_least] at h

end FastLivo2
