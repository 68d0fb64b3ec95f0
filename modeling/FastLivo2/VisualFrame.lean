import FastLivo2.VisualUpdate

/-!
# A visual frame

The rest of `processFrame` of `vio.cpp`: new points (`generateVisualMapPoints`), new observations
of the points of the submap (`updateVisualMapPoints`) and the choice of their references
(`updateReferencePatch`), and the frame that runs them after the retrieval and the filter update.

In `updateReferencePatch` the sums of the correlation are declared outside the loop over the other
observations, so they run on from one observation to the next.  The mean of a patch is computed
once and kept in the feature; a later round does not read it back, so its local mean is
indeterminate then.
-/

namespace FastLivo2

namespace VIOManager

variable (L : VioLibs) (cfg : VioConfig) (inp : FrameInput)

/-! ## New points -/

/-- A candidate takes its cell when its corner score is the highest so far. -/
def candidate (frame : Frame) (grid : Grid) (p : PointWithVar) : Except VioFault Grid :=
  let pc := frame.w2c L p.pointW
  if L.cam.isInFrame (castInt pc) cfg.border then do
    let index ← cellIndex L cfg pc
    if grid.gridNum index = .map then pure grid
    else
      let curValue := L.shiTomasiScore inp.img (truncInt (pc 0)) (truncInt (pc 1))
      if grid.scanValue index < curValue then
        pure { grid with
          scanValue := fun k => if k = index then curValue else grid.scanValue k
          appendVoxelPoints := fun k => if k = index then p else grid.appendVoxelPoints k
          gridNum := fun k => if k = index then .pointcloud else grid.gridNum k }
      else pure grid
  else .ok grid

/-- The feature that observes a point in the current frame, with a patch just allocated. -/
def newFeature (s : StatesGroup) (v : VIOManager) (pc : V2D) (level : ℕ) (buf : ℕ) : Feature where
  addr := v.nextFtr
  id := v.newFrame.id
  img := inp.img
  px := pc
  f := L.cam.cam2world pc
  level := level
  tFW := v.newFrame.tFW
  patch := ⟨buf, getImagePatch cfg L.cam inp.img pc 0⟩
  invExpoTime := s.invExpoTime

/-- The visual point of a cell won by a candidate. -/
def newPoint (s : StatesGroup) (v : VIOManager) (p : PointWithVar) : VisualPoint :=
  let pc := v.newFrame.w2c L p.pointW
  let normVec := v.newFrame.tFW.rot.mulVec p.normal
  let dir := V3D.normalized L.toLibm (v.newFrame.w2f p.pointW)
  let normal := if dir ⬝ᵥ normVec < 0 then -p.normal else p.normal
  { pos := p.pointW
    normal := normal
    previousNormal := normal
    obs := [newFeature L cfg inp s v pc 0 v.nextBuf]
    covariance := p.var
    isNormalInitialized := true }

/-- The last loop of `generateVisualMapPoints`, on one cell. -/
def generateCell (s : StatesGroup) (v : VIOManager) (i : ℕ) : VIOManager :=
  if v.grid.gridNum i = .pointcloud then
    let pt := newPoint L cfg inp s v (v.grid.appendVoxelPoints i)
    { v.allocBuf with nextFtr := v.nextFtr + 1 }.insertPointIntoVoxelMap pt
  else v

/-- `VIOManager::generateVisualMapPoints`. -/
def generateVisualMapPoints (s : StatesGroup) (v : VIOManager) : Except VioFault VIOManager :=
  if inp.pg.length ≤ 10 then .ok v
  else do
    let grid ← (inp.pg.filter fun p => p.normal ≠ 0).foldlM (candidate L cfg inp v.newFrame) v.grid
    let grid ← v.submap.addFromVoxelMap.foldlM (candidate L cfg inp v.newFrame) grid
    pure ((List.range (cfg.length L.cam)).foldl (generateCell L cfg inp s) { v with grid := grid })

/-! ## New observations -/

/-- `add_flag`: the point is seen from another place, under another angle or at another pixel than
in its oldest observation. -/
def addFlag (frame : Frame) (pc : V2D) (lastFeature : Feature) : Prop :=
  let deltaPose := lastFeature.tFW.mul frame.tFW.inverse
  let trace := deltaPose.rot.trace
  let deltaTheta := if 3 - 1 / 1000000 < trace then 0 else L.acos (1 / 2 * (trace - 1))
  1 / 2 < V3D.norm L.toLibm deltaPose.trans ∨ 3 / 10 < deltaTheta ∨
    40 < V2D.norm L.toLibm (pc - lastFeature.px)

instance (frame : Frame) (pc : V2D) (lastFeature : Feature) :
    Decidable (addFlag L frame pc lastFeature) :=
  inferInstanceAs (Decidable (_ ∨ _ ∨ _))

/-- A point with thirty observations loses the one of least score; with the buffers freed. -/
def evict (pt : VisualPoint) : Except VioFault (VisualPoint × List ℕ) :=
  if 30 ≤ pt.obs.length then do
    let refFtr ← pt.findMinScoreFeature
    pure (pt.deleteFeatureRef refFtr)
  else pure (pt, [])

/-- The loop of `updateVisualMapPoints`, on the `i`-th point of the submap. -/
def observe (s : StatesGroup) (v : VIOManager) (e : SubEntry × ℕ) :
    Except VioFault VIOManager := do
  let pt ← v.point e.1.point
  if pt.isConverged then
    let r := pt.deleteNonRefPatchFeatures
    pure ((v.setPoint e.1.point r.1).freeBufs r.2)
  else
    let pc := v.newFrame.w2c L pt.pos
    let patchTemp := v.nextBuf
    let v := v.allocBuf
    match pt.obs.getLast? with
    | none => .error .danglingPointer
    | some lastFeature => do
        let (pt, freed) ← evict pt
        let v := v.freeBufs freed
        if addFlag L v.newFrame pc lastFeature then
          let ftrNew := newFeature L cfg inp s v pc e.1.searchLevel patchTemp
          let grid := { v.grid with
            updateFlag := fun k => if k = e.2 then true else v.grid.updateFlag k }
          pure ({ v with nextFtr := v.nextFtr + 1, grid := grid }.setPoint e.1.point
            (pt.addFrameRef ftrNew))
        else pure (v.setPoint e.1.point pt)

/-- `VIOManager::updateVisualMapPoints`. -/
def updateVisualMapPoints (s : StatesGroup) (v : VIOManager) : Except VioFault VIOManager :=
  if v.totalPoints = 0 then .ok v
  else v.submap.entries.zipIdx.foldlM (observe L cfg inp s) v

/-! ## References -/

/-- The normal of a point from the plane of the voxel map it lies on; a normal that stays makes a
point with more than ten observations converged. -/
def refineNormal (pt : VisualPoint) : VisualPoint :=
  match VoxelOctoTree.findCorrespond pt.pos (inp.planeMap (referenceLocation pt.pos)) with
  | .nullptr => pt
  | .node d _ =>
      let plane := d.plane
      let disToPlane := plane.normal ⬝ᵥ pt.pos + plane.d
      let a := pt.pos - plane.center
      let rangeDis := L.sqrt (a ⬝ᵥ a - disToPlane * disToPlane)
      let jNq : Fin 6 → ℚ :=
        ![a 0, a 1, a 2, -plane.normal 0, -plane.normal 1, -plane.normal 2]
      let sigmaL := jNq ⬝ᵥ plane.planeVar.mulVec jNq +
        plane.normal ⬝ᵥ pt.covariance.mulVec plane.normal
      if plane.isPlane ∧ rangeDis ≤ 3 * plane.radius ∧ |disToPlane| < 3 * L.sqrt sigmaL then
        let normal := if pt.previousNormal ⬝ᵥ plane.normal < 0 then -plane.normal else plane.normal
        let normalUpdate := V3D.norm L.toLibm (normal - pt.previousNormal)
        { pt with
          normal := normal, previousNormal := normal
          isConverged := decide (normalUpdate < 1 / 10000 ∧ 10 < pt.obs.length) || pt.isConverged }
      else pt

/-- The local mean of a patch, and the feature after it: computed and kept where none was kept, else
left indeterminate. -/
def localMean (indeterminate : ℚ) (ftr : Feature) : ℚ × Feature :=
  if |ftr.mean| < 1 / 1000000 then
    let mean := patchMean cfg.patchSizeTotal ftr.patch.at
    (mean, { ftr with mean := mean })
  else (indeterminate, ftr)

/-- The variables of the loop over the other observations. -/
structure Correlation where
  obs : List Feature
  up : ℚ := 0
  down1 : ℚ := 0
  down2 : ℚ := 0
  ncc : Flt := some 0
  count : ℕ := 0
  denoms : List ℚ := []

/-- The correlation with the observation at a place of the list. -/
def correlate (ftr : Feature) (refMean : ℚ) (acc : Correlation) (j : ℕ) : Correlation :=
  match acc.obs[j]? with
  | none => acc
  | some other =>
      if other.id = ftr.id then acc
      else
        let (otherMean, other) := localMean cfg (L.indeterminate ftr other) other
        let sum := fun f : ℕ → ℚ => ((List.range cfg.patchSizeTotal).map f).sum
        let up := acc.up + sum fun k => (ftr.patch.at k - refMean) * (other.patch.at k - otherMean)
        let down1 := acc.down1 +
          sum fun k => (ftr.patch.at k - refMean) * (ftr.patch.at k - refMean)
        let down2 := acc.down2 +
          sum fun k => (other.patch.at k - otherMean) * (other.patch.at k - otherMean)
        { obs := acc.obs.set j other
          up := up, down1 := down1, down2 := down2
          ncc := do
            let ncc ← acc.ncc
            let q ← Flt.div up (L.sqrt (down1 * down2))
            pure (ncc + |q|)
          count := acc.count + 1
          denoms := acc.denoms ++ [L.sqrt (down1 * down2)] }

/-- The variables of the loop over the observations: the point, and the highest score so far. -/
structure Scoring where
  pt : VisualPoint
  scoreMax : ℚ := -1000
  denoms : List ℚ := []

/-- `cos_angle`. -/
def cosAngle (pt : VisualPoint) (ftr : Feature) : ℚ :=
  V3D.normalized L.toLibm (ftr.tFW.act pt.pos) ⬝ᵥ ftr.tFW.rot.mulVec pt.normal

/-- `score`: the mean correlation and the cosine of the viewing angle. -/
def Correlation.score (c : Correlation) (cosAngle : ℚ) : Flt := do
  let ncc ← c.ncc
  let ncc ← Flt.div ncc c.count
  pure (ncc + cosAngle)

/-- The score of the observation at a place of the list, which becomes the reference if it is the
highest. -/
def scoreFeature (acc : Scoring) (i : ℕ) : Scoring :=
  match acc.pt.obs[i]? with
  | none => acc
  | some ftr =>
      let (refMean, ftr) := localMean cfg (L.indeterminate ftr ftr) ftr
      let c := (List.range acc.pt.obs.length).foldl (correlate L cfg ftr refMean)
        { obs := acc.pt.obs.set i ftr }
      let score := c.score (cosAngle L acc.pt ftr)
      let pt := { acc.pt with obs := c.obs.set i { ftr with score := score } }
      let denoms := acc.denoms ++ c.denoms
      match score with
      | none => { acc with pt := pt, denoms := denoms }
      | some score =>
          if acc.scoreMax < score then { pt := pt.setRef ftr, scoreMax := score, denoms := denoms }
          else { acc with pt := pt, denoms := denoms }

/-- The loop of `updateReferencePatch`, on one point. -/
def rescore (pt : VisualPoint) : Scoring :=
  let pt := refineNormal L inp pt
  (List.range pt.obs.length).foldl (scoreFeature L cfg) { pt := pt }

/-- The loop of `updateReferencePatch`, on the `i`-th point of the submap. -/
def rescoreEntry (v : VIOManager) (e : SubEntry × ℕ) : Except VioFault VIOManager := do
  let pt ← v.point e.1.point
  if pt.isNormalInitialized = false ∨ pt.isConverged = true ∨ pt.obs.length ≤ 5 ∨
      v.grid.updateFlag e.2 = false then pure v
  else
    let r := rescore L cfg inp pt
    pure { v.setPoint e.1.point r.pt with denoms := v.denoms ++ r.denoms }

/-- `VIOManager::updateReferencePatch`. -/
def updateReferencePatch (v : VIOManager) : Except VioFault VIOManager :=
  if v.totalPoints = 0 then .ok v
  else v.submap.entries.zipIdx.foldlM (rescoreEntry L cfg inp) v

/-! ## The frame -/

/-- `new_frame_.reset(new Frame(cam, img))`. -/
def newFrameOf (v : VIOManager) : Except VioFault VIOManager :=
  if 0 < inp.img.rows ∧ 0 < inp.img.cols ∧ inp.img.rows = L.cam.height ∧
      inp.img.cols = L.cam.width then
    .ok { v with
      newFrame := { id := v.frameCounter, img := inp.img }
      frameCounter := v.frameCounter + 1
      denoms := [] }
  else .error .badImage

/-- The frame up to the filter update: a new frame, an empty grid, the retrieval. -/
def beginFrame (v : VIOManager) : Except VioFault VIOManager := do
  let v ← newFrameOf L inp v
  retrieveFromVisualSparseMap L cfg inp (updateFrameState L cfg inp.state v).resetGrid

/-- The frame up to the new observations: the filter update and the new points follow the
retrieval. -/
def middleFrame (v : VIOManager) : Except VioFault (VIOManager × VisualEkf) := do
  let v ← beginFrame L cfg inp v
  let (v, e) ← computeJacobianAndUpdateEKF L cfg inp v
  let v ← generateVisualMapPoints L cfg inp e.state v
  pure (v, e)

/-- `VIOManager::processFrame`; the filter state it leaves is that of the filter part. -/
def processFrame (v : VIOManager) : Except VioFault (VIOManager × VisualEkf) := do
  let (v, e) ← middleFrame L cfg inp v
  let v ← updateVisualMapPoints L cfg inp e.state v
  let v ← updateReferencePatch L cfg inp v
  pure (v, e)

/-- A frame as the step of a machine: its event is what the frame is given, and what an observer
sees is the filter part. -/
def frameStep (v : VIOManager) (inp : FrameInput) : Except VioFault (VIOManager × VisualEkf) :=
  processFrame L cfg inp v

end VIOManager

end FastLivo2
