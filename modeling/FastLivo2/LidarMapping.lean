import FastLivo2.Covariance
import FastLivo2.InitPlane
import FastLivo2.LidarNormals
import FastLivo2.MapOutput
import FastLivo2.OctoTreeContents
import FastLivo2.PointCovariance
import FastLivo2.Run

/-!
# The LiDAR pass

What `LIVMapper::handleLIO` computes: the down-sampled scan updates the filter state against the
map (`StateEstimation`), and enters the map at the state it led to (`UpdateVoxelMap`).  The first
scan builds the map before the update.  Here the three parts `StateEstimation` takes as parameters
are those of the code: `calcBodyCov`, the matching on the map of the pass, and `init_plane` for the
planes the map fits.

The down-sampling filter, the eigenvalue routine and the exponential are parameters besides those
of the visual part.

The covariances of the points and planes the map holds are positive semidefinite
(`LidarMapping.Sound`), so the weight of every match is positive and the update keeps the covariance
of the filter positive definite (`LidarMapping.Sound.handleLIO`).
-/

namespace FastLivo2

open Matrix

/-! ## Parameters -/

/-- The libraries the node calls. -/
structure LivoLibs extends VioLibs where
  exp : ℚ → ℚ
  evecs : M3D → M3D
  evals : M3D → V3D
  div : ℚ → ℚ → ℚ
  /-- `downSizeFilterSurf`. -/
  filterSurf : PointCloudXYZI → PointCloudXYZI
  /-- `cv::resize`, where the size of an image is not that of the camera. -/
  resizeImg : Mat → Mat
  /-- `cv::cvtColor`, from an image in colour to gray. -/
  grayImg : Mat → Mat
  sqrt_nonneg : ∀ x, 0 ≤ sqrt x
  exp_pos : ∀ x, 0 < exp x
  div_eq : ∀ x y, y ≠ 0 → div x y = x / y
  /-- The columns of `eigenvectors()` are normalised. -/
  evecs_unit : ∀ C i, (evecs C).col i ⬝ᵥ (evecs C).col i = 1

/-- The part `init_plane` calls. -/
def LivoLibs.planeLibs (L : LivoLibs) : PlaneLibs := ⟨L.evecs, L.evals, L.sqrt, L.div, L.div_eq⟩

/-- The part `build_single_residual` calls. -/
def LivoLibs.gateLibm (L : LivoLibs) : GateLibm := ⟨L.sqrt, L.exp, L.sqrt_nonneg, L.exp_pos⟩

/-- The settings of the node, with those of the two maps. -/
structure LivoConfig extends Config where
  voxel : VoxelMapConfig := { maxVoxelSize_pos := VoxelMapConfig.half_pos }
  vio : VioConfig
  output : OutputConfig := {}
  maxIterations : ℕ := 5
  plannerThreshold : ℚ := 1 / 100
  sigmaNum : ℚ := 3
  beamErr : ℚ := 1 / 50
  deptErr : ℚ := 1 / 20
  mapSlidingEn : Bool := false
  denseMapEn : Bool := false

/-- What `handleLIO` keeps besides the members of the node: the voxel map, and of its manager the
points of the last scan and the position of the last update. -/
structure LidarMapping where
  voxelMap : VoxelMapManager := {}
  lidarMapInited : Bool := false
  positionLast : V3D := 0
  pvList : List PointWithVar := []

section Pass

variable (L : LivoLibs) (cfg : LivoConfig)

/-- `init_plane` with the threshold of the settings. -/
def fitPlane : PlaneFit := fun d =>
  initPlane L.planeLibs cfg.plannerThreshold d.tempPoints d.plane

/-- `transformLidar` and `RGBpointBodyToWorld`, on a place. -/
def bodyToWorld (s : StatesGroup) (p : V3D) : V3D :=
  s.rotEnd *ᵥ (cfg.extR *ᵥ p + cfg.extT) + s.posEnd

/-- `calcBodyCov` with the errors of the settings. -/
def bodyCovOf (p : V3D) : M3D := calcBodyCov L.toLibm cfg.deptErr cfg.beamErr p

/-- A point of `BuildVoxelMap`; the covariance of the pose acts on the point as `calcBodyCov` leaves
it, in the frame of the LiDAR. -/
def buildPoint (s : StatesGroup) (p : V3D) : PointWithVar where
  pointW := bodyToWorld cfg s p
  var := worldVar (s.rotEnd * cfg.extR) s.cov (liftPoint p) (bodyCovOf L cfg p)

/-- The update of a scan against a map. -/
def lidarUpdate (voxelMap : VoxelLocation → VoxelOctoTree) (statePropagat : StatesGroup)
    (featsDownBody : List V3D) : LidarUpdate :=
  { maxIterations := cfg.maxIterations
    extR := cfg.extR
    extT := cfg.extT
    calcBodyCov := bodyCovOf L cfg
    buildResidualList := fun pvList => (pvList, [])
    featsDownBody := featsDownBody
    statePropagat := statePropagat : LidarUpdate }.onMap (residualGate L.gateLibm cfg.sigmaNum)
      cfg.voxel voxelMap

/-- A point of `pv_list_` as it enters the map: in its place after the update. -/
def updatePoint (s : StatesGroup) (pv : PointWithVar) (p : V3D) : PointWithVar :=
  let q := LidarUpdate.bodyPoint p
  { pv with
    pointW := bodyToWorld cfg s p
    var := worldVar (s.rotEnd * cfg.extR) s.cov (cfg.extR *ᵥ q + cfg.extT) (bodyCovOf L cfg q) }

/-- The map a scan is matched against: the first scan builds it. -/
def LidarMapping.ready (m : LidarMapping) (s : StatesGroup) (featsDownBody : List V3D) :
    LidarMapping :=
  if m.lidarMapInited then m
  else { m with
    lidarMapInited := true
    voxelMap := m.voxelMap.buildVoxelMap cfg.voxel (fitPlane L cfg)
      (featsDownBody.map (buildPoint L cfg s)) }

/-- `LIVMapper::handleLIO` on a scan with points: the filter state, the map and the registered
cloud. -/
def LidarMapping.handleLIO (m : LidarMapping) (s statePropagat : StatesGroup)
    (featsUndistort : PointCloudXYZI) : LidarMapping × Estimate :=
  let featsDownBody := L.filterSurf featsUndistort
  let places := featsDownBody.map PointType.position
  let m := m.ready L cfg s places
  let r := (lidarUpdate L cfg m.voxelMap.voxelMap statePropagat places).stateEstimation
    L.toNumerics s
  let positionLast := if r.ekfStop then r.state.posEnd else m.positionLast
  let pvList := List.zipWith (updatePoint L cfg r.state) r.pvList places
  let voxelMap := m.voxelMap.updateVoxelMap cfg.voxel
    (pvList.map fun pv => (pv, fitPlane L cfg))
  let voxelMap := if cfg.mapSlidingEn then voxelMap.mapSliding cfg.voxel positionLast else voxelMap
  let laserCloudFullRes := if cfg.denseMapEn then featsUndistort else featsDownBody
  ({ m with voxelMap := voxelMap, positionLast := positionLast, pvList := pvList },
    { state := r.state
      world := laserCloudFullRes.map fun p => p.moveTo (bodyToWorld cfg r.state p.position) })

end Pass

/-! ## Sound maps -/

/-- The covariance of a plane is positive semidefinite, and its normal no longer than one. -/
structure VoxelPlane.Sound (plane : VoxelPlane) : Prop where
  planeVar : plane.planeVar.PosSemidef
  normal : plane.normal ⬝ᵥ plane.normal ≤ 1

/-- The covariance of a point is positive semidefinite. -/
def PointWithVar.Sound (pv : PointWithVar) : Prop := pv.var.PosSemidef

/-- The planes and points of the map are sound, and the normals of the last scan no longer than
one. -/
structure LidarMapping.Sound (m : LidarMapping) : Prop where
  map : m.voxelMap.Holds VoxelPlane.Sound PointWithVar.Sound
  normals : ∀ pv ∈ m.pvList, pv.normal ⬝ᵥ pv.normal ≤ 1

variable {L : LivoLibs} {cfg : LivoConfig}

lemma sound_empty : VoxelPlane.Sound {} :=
  ⟨Matrix.PosSemidef.zero, by simp⟩

lemma posSemidef_list_sum {k : Type*} [Fintype k] {l : List (Matrix k k ℚ)}
    (h : ∀ A ∈ l, A.PosSemidef) : l.sum.PosSemidef := by
  induction l with
  | nil => exact Matrix.PosSemidef.zero
  | cons A l ih =>
      rw [List.sum_cons]
      exact (h A List.mem_cons_self).add (ih fun B hB => h B (List.mem_cons_of_mem A hB))

/-- **A fit** of points with positive semidefinite covariances gives such a plane. -/
lemma planeFit_gives : OctoNode.FitGives VoxelPlane.Sound PointWithVar.Sound (fitPlane L cfg) := by
  intro d hpoints
  unfold fitPlane
  by_cases h : planeEvals L.planeLibs d.tempPoints
      (evalsMin (planeEvals L.planeLibs d.tempPoints)) < cfg.plannerThreshold
  · rw [initPlane_of_lt h]
    refine ⟨posSemidef_list_sum fun A hA => ?_, (L.evecs_unit _ _).le⟩
    obtain ⟨pv, hpv, rfl⟩ := List.mem_map.mp hA
    exact posSemidef_mul_mul_transpose (hpoints pv hpv) _
  · rw [initPlane_of_ge h]
    exact ⟨Matrix.PosSemidef.zero, by simp⟩

/-! ## Matches -/

/-- A match is made of its point and a plane of the map. -/
lemma pointMatch_eq_singlePtpl {g : ResidualGate} {voxel : VoxelMapConfig}
    {voxelMap : VoxelLocation → VoxelOctoTree} {pv : PointWithVar} {m : SinglePtpl}
    (h : pointMatch g voxel voxelMap pv = some m) :
    ∃ position layer plane, PlaneWithin voxel.maxLayer (voxelMap position) 0 layer plane ∧
      m = singlePtpl pv layer plane := by
  have hsearch : ∀ position,
      (buildSingleResidual g voxel.maxLayer pv (voxelMap position) 0
        { single := noPtpl, normal := pv.normal }).isSucess = true → ∃ layer plane,
        PlaneWithin voxel.maxLayer (voxelMap position) 0 layer plane ∧
          (buildSingleResidual g voxel.maxLayer pv (voxelMap position) 0
            { single := noPtpl, normal := pv.normal }).single = singlePtpl pv layer plane := by
    intro position hsucess
    obtain ⟨layer, plane, hcandidate, -, -, -, hsingle⟩ :=
      (buildSingleResidual_spec g voxel.maxLayer pv (voxelMap position) noPtpl pv.normal).2.1
        hsucess
    exact ⟨layer, plane, hcandidate.1, hsingle⟩
  unfold pointMatch at h
  dsimp only at h
  split_ifs at h with hsucess
  obtain rfl := Option.some.inj h
  unfold pointResidual at hsucess ⊢
  cases htried : neighbourTried g voxel voxelMap pv with
  | none =>
      rw [htried] at hsucess
      obtain ⟨layer, plane, hwithin, hsingle⟩ := hsearch _ hsucess
      exact ⟨_, layer, plane, hwithin, hsingle⟩
  | some near =>
      -- the search of the neighbour starts from no match
      have hfail := ownResidual_of_neighbourTried htried
      have hown : Outcome voxelMap pv (ownResidual g voxel voxelMap pv) :=
        outcome_buildSingleResidual _
      have hstart := hown.resolve_right fun h => absurd (hfail.symm.trans h.1) Bool.false_ne_true
      rw [htried] at hsucess
      dsimp only at hsucess ⊢
      rw [hstart] at hsucess ⊢
      obtain ⟨layer, plane, hwithin, hsingle⟩ := hsearch near hsucess
      exact ⟨near, layer, plane, hwithin, hsingle⟩

/-- What holds of every plane of the map holds of the plane of a match. -/
lemma VoxelMapManager.Holds.within {P : VoxelPlane → Prop} {Q : PointWithVar → Prop}
    {m : VoxelMapManager} (h : m.Holds P Q) {maxLayer layer : ℤ} {position : VoxelLocation}
    {plane : VoxelPlane} (hwithin : PlaneWithin maxLayer (m.voxelMap position) 0 layer plane) :
    P plane :=
  hwithin.of_everywhere ((h position).mono fun _ _ hd _ => hd.plane)

/-- An element of two lists zipped comes from one element of each. -/
lemma exists_of_mem_zipWith {α β γ : Type*} {f : α → β → γ} {l : List α} {l' : List β} {c : γ}
    (h : c ∈ List.zipWith f l l') : ∃ a ∈ l, ∃ b, c = f a b := by
  obtain ⟨i, hi, rfl⟩ := List.getElem_of_mem h
  rw [List.length_zipWith] at hi
  rw [List.getElem_zipWith]
  exact ⟨_, List.getElem_mem (by omega), _, rfl⟩

namespace LidarUpdate

/-- A point with the covariance of its body point computed anew. -/
def withBodyVar (u : LidarUpdate) (pv : PointWithVar) : PointWithVar :=
  { pv with bodyVar := u.calcBodyCov (bodyPoint pv.pointB) }

/-- The update with these points matched. -/
def rebodied (u : LidarUpdate) : LidarUpdate :=
  { u with buildResidualList := fun pvs => u.buildResidualList (pvs.map u.withBodyVar) }

/-- Each point of an iteration has that covariance already. -/
lemma rebodied_refreshed (u : LidarUpdate) (v : Loop) :
    u.rebodied.buildResidualList (u.refreshed v) = u.buildResidualList (u.refreshed v) := by
  show u.buildResidualList ((u.refreshed v).map u.withBodyVar) = _
  congr 1
  refine (List.map_congr_left ?_).trans (List.map_id _)
  intro pv hpv
  obtain ⟨q, -, p, rfl⟩ := exists_of_mem_zipWith hpv
  rfl

lemma rebodied_iteration (N : Numerics) (u : LidarUpdate) (iterCount : ℕ) (v : Loop) :
    u.rebodied.iteration N iterCount v = u.iteration N iterCount v := by
  have hstep : u.rebodied.kalmanStep N v = u.kalmanStep N v := by
    have hmatched : u.rebodied.buildResidualList (u.rebodied.refreshed v) =
        u.buildResidualList (u.refreshed v) := u.rebodied_refreshed v
    unfold kalmanStep
    rw [hmatched]
    rfl
  unfold iteration
  rw [hstep]
  rfl

lemma rebodied_stateEstimation (N : Numerics) (u : LidarUpdate) (s : StatesGroup) :
    u.rebodied.stateEstimation N s = u.stateEstimation N s := by
  have hloop : ∀ (n iterCount : ℕ) (v : Loop),
      loop N u.rebodied n iterCount v = loop N u n iterCount v := by
    intro n
    induction n with
    | zero => exact fun _ _ => rfl
    | succ n ih =>
        intro iterCount v
        rw [loop, loop, rebodied_iteration, ih]
  exact hloop _ _ _

end LidarUpdate

/-! ## The weights -/

/-- The points a pass keeps are those of the down-sampled scan. -/
lemma LidarMapping.handleLIO_length (m : LidarMapping) (s statePropagat : StatesGroup)
    (featsUndistort : PointCloudXYZI) :
    (m.handleLIO L cfg s statePropagat featsUndistort).1.pvList.length ≤
      (L.filterSurf featsUndistort).length := by
  unfold LidarMapping.handleLIO
  dsimp only
  rw [List.length_zipWith, List.length_map]
  exact min_le_right _ _

section Weights

variable {m : LidarMapping} {s statePropagat : StatesGroup} {featsDownBody : List V3D}

/-- A match with a sound plane and a body covariance of the code has a variance. -/
lemma matchVar_nonneg (u : LidarUpdate) {a : PointToPlane} (hplane : a.planeVar.PosSemidef)
    (hbody : a.bodyCov.PosSemidef) : 0 ≤ u.matchVar a := by
  unfold LidarUpdate.matchVar
  have hquad : ∀ {k : ℕ} {A : Matrix (Fin k) (Fin k) ℚ}, A.PosSemidef → ∀ x : Fin k → ℚ,
      0 ≤ x ⬝ᵥ A *ᵥ x := fun hA x => by
    have h := hA.dotProduct_mulVec_nonneg x
    rwa [star_trivial] at h
  exact add_nonneg (hquad hplane _) (hquad (posSemidef_mul_mul_transpose hbody _) _)

/-- **Every match has a positive weight**, on a sound map. -/
lemma lidarUpdate_weighted {voxelMap : VoxelMapManager}
    (h : voxelMap.Holds VoxelPlane.Sound PointWithVar.Sound) :
    (lidarUpdate L cfg voxelMap.voxelMap statePropagat featsDownBody).rebodied.Weighted := by
  intro pvs a ha
  obtain ⟨b, hb, rfl⟩ := List.mem_map.mp ha
  obtain ⟨pv, hpv, hmatch⟩ := List.mem_filterMap.mp hb
  obtain ⟨pv, -, rfl⟩ := List.mem_map.mp hpv
  obtain ⟨position, layer, plane, hwithin, rfl⟩ := pointMatch_eq_singlePtpl hmatch
  have hvar := matchVar_nonneg
    (lidarUpdate L cfg voxelMap.voxelMap statePropagat featsDownBody).rebodied
    (a := (singlePtpl ((lidarUpdate L cfg voxelMap.voxelMap statePropagat
      featsDownBody).withBodyVar pv) layer plane).toPointToPlane)
    (h.within hwithin).planeVar (calcBodyCov_posSemidef _ _ _ _)
  have hpos : (0 : ℚ) < 1 / 1000 := by norm_num
  exact one_div_pos.mpr (add_pos_of_pos_of_nonneg hpos hvar)

/-- **The update on a sound map.**  Its covariance is the posterior of its last matches, whatever
the scan. -/
lemma lidarUpdate_covariance {voxelMap : VoxelMapManager}
    (h : voxelMap.Holds VoxelPlane.Sound PointWithVar.Sound) (hiter : 0 < cfg.maxIterations)
    (hP : s.cov.PosDef) :
    let u := lidarUpdate L cfg voxelMap.voxelMap statePropagat featsDownBody
    (u.stateEstimation L.toNumerics s).Posterior u s.cov := by
  intro u
  have hweighted : u.rebodied.Weighted := lidarUpdate_weighted h
  have hpost := LidarUpdate.stateEstimation_covariance (N := L.toNumerics) hweighted hiter hP
  rw [LidarUpdate.rebodied_stateEstimation] at hpost
  exact ⟨hpost.cov, hpost.covs, hpost.weighted⟩

/-- The normals after an update on a sound map. -/
lemma lidarUpdate_normals {voxelMap : VoxelMapManager}
    (h : voxelMap.Holds VoxelPlane.Sound PointWithVar.Sound) (s : StatesGroup) :
    ∀ pv ∈ ((lidarUpdate L cfg voxelMap.voxelMap statePropagat featsDownBody).stateEstimation
      L.toNumerics s).pvList, pv.normal ⬝ᵥ pv.normal ≤ 1 := by
  have hiteration : ∀ (iterCount : ℕ) (v : LidarUpdate.Loop),
      (∀ pv ∈ v.pvList, pv.normal ⬝ᵥ pv.normal ≤ 1) →
      ∀ pv ∈ ((lidarUpdate L cfg voxelMap.voxelMap statePropagat featsDownBody).iteration
        L.toNumerics iterCount v).pvList, pv.normal ⬝ᵥ pv.normal ≤ 1 := by
    intro iterCount v hv pv hpv
    unfold lidarUpdate at hpv
    rw [LidarUpdate.iteration_pvList] at hpv
    obtain ⟨q, hq, rfl⟩ := List.mem_map.mp hpv
    rcases pointResidual_cases (residualGate L.gateLibm cfg.sigmaNum) cfg.voxel voxelMap.voxelMap q
      with ⟨-, hkept⟩ | ⟨a, hmatch, hnormal, -⟩
    · obtain ⟨before, hbefore, p, rfl⟩ := exists_of_mem_zipWith hq
      rw [hkept]
      exact hv before hbefore
    · obtain ⟨position, layer, plane, hwithin, rfl⟩ := pointMatch_eq_singlePtpl hmatch
      rw [hnormal]
      exact (h.within hwithin).normal
  have hloop : ∀ (n iterCount : ℕ) (v : LidarUpdate.Loop),
      (∀ pv ∈ v.pvList, pv.normal ⬝ᵥ pv.normal ≤ 1) →
      ∀ pv ∈ (LidarUpdate.loop L.toNumerics
        (lidarUpdate L cfg voxelMap.voxelMap statePropagat featsDownBody) n iterCount v).pvList,
        pv.normal ⬝ᵥ pv.normal ≤ 1 := by
    intro n
    induction n with
    | zero => exact fun _ _ hv => hv
    | succ n ih =>
        intro iterCount v hv
        rw [LidarUpdate.loop]
        split_ifs
        · exact hiteration iterCount v hv
        · exact ih _ _ (hiteration iterCount v hv)
  refine hloop _ 0 _ fun pv hpv => ?_
  rw [List.eq_of_mem_replicate hpv]
  simp

end Weights

/-! ## The pass -/

section Sound

variable {m : LidarMapping} {s statePropagat : StatesGroup}

lemma LidarMapping.Sound.ready (h : m.Sound) (hcov : s.cov.PosSemidef)
    (featsDownBody : List V3D) : (m.ready L cfg s featsDownBody).Sound := by
  unfold LidarMapping.ready
  split_ifs
  · exact h
  · refine ⟨h.map.buildVoxelMap sound_empty planeFit_gives fun pv hpv => ?_, h.normals⟩
    obtain ⟨p, -, rfl⟩ := List.mem_map.mp hpv
    exact worldVar_posSemidef _ hcov _ (calcBodyCov_posSemidef _ _ _ _)

/-- **A pass keeps the map sound** and the covariance positive definite: it replaces the covariance
by the posterior of the last matches. -/
theorem LidarMapping.Sound.handleLIO (h : m.Sound) (hcov : s.cov.PosDef)
    (hiter : 0 < cfg.maxIterations) (featsUndistort : PointCloudXYZI) :
    let r := m.handleLIO L cfg s statePropagat featsUndistort
    r.1.Sound ∧ r.2.state.cov.PosDef := by
  intro r
  let featsDownBody := (L.filterSurf featsUndistort).map PointType.position
  let m' := m.ready L cfg s featsDownBody
  let u := lidarUpdate L cfg m'.voxelMap.voxelMap statePropagat featsDownBody
  have hready : m'.Sound := h.ready hcov.posSemidef featsDownBody
  have hpost : (u.stateEstimation L.toNumerics s).Posterior u s.cov :=
    lidarUpdate_covariance hready.map hiter hcov
  have hnormals : ∀ pv ∈ (u.stateEstimation L.toNumerics s).pvList,
      pv.normal ⬝ᵥ pv.normal ≤ 1 := lidarUpdate_normals hready.map s
  have hpos := hpost.posDef hcov
  have hpoint : ∀ pv ∈ r.1.pvList, pv.Sound ∧ pv.normal ⬝ᵥ pv.normal ≤ 1 := by
    intro pv hpv
    obtain ⟨q, hq, p, rfl⟩ := exists_of_mem_zipWith hpv
    exact ⟨worldVar_posSemidef _ hpos.posSemidef _ (calcBodyCov_posSemidef _ _ _ _),
      hnormals q hq⟩
  refine ⟨⟨?_, fun pv hpv => (hpoint pv hpv).2⟩, hpos⟩
  have hupdated : ((m.ready L cfg s ((L.filterSurf featsUndistort).map
      PointType.position)).voxelMap.updateVoxelMap cfg.voxel
        (r.1.pvList.map fun pv => (pv, fitPlane L cfg))).Holds VoxelPlane.Sound
          PointWithVar.Sound := by
    refine hready.map.updateVoxelMap sound_empty fun p hp => ?_
    obtain ⟨pv, hpv, rfl⟩ := List.mem_map.mp hp
    exact ⟨(hpoint pv hpv).1, planeFit_gives⟩
  by_cases hsliding : cfg.mapSlidingEn = true
  · have hmap : r.1.voxelMap = VoxelMapManager.mapSliding cfg.voxel r.1.positionLast _ :=
      if_pos hsliding
    rw [hmap]
    exact hupdated.mapSliding _
  · have hmap : r.1.voxelMap = _ := if_neg hsliding
    rw [hmap]
    exact hupdated

end Sound

end FastLivo2
