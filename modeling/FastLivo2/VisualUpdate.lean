import FastLivo2.VisualMap

/-!
# The visual update

`computeJacobianAndUpdateEKF` of `vio.cpp`, with the two updates of one pyramid level it chooses
between: `updateState`, which differentiates the current image, and `updateStateInverse`, which
differentiates the reference patches once (`precomputeReferencePatches`).

The two loops differ in their rows and in the number of columns only.  The loop is therefore
written once, for rows given by a `Photometry`; the rows of each variant follow.  A row is named by
its point and its pixel in the patch.

The loop variables carry two ghost fields: the states at which an accepted iteration linearised, and
the covariance after each iteration.
-/

namespace FastLivo2

/-! ## The loop of one level -/

/-- The rows of one pyramid level, as functions of the state. -/
structure Photometry (ι : Type) (k : ℕ) where
  hSub : StatesGroup → Matrix ι (Fin k) ℚ
  z : StatesGroup → ι → ℚ

/-- `error`: the mean of the squared residuals. -/
def Photometry.error {ι : Type} [Fintype ι] {k : ℕ} (ph : Photometry ι k) (s : StatesGroup) :
    Flt :=
  Flt.div (∑ r, ph.z s r * ph.z s r) (Fintype.card ι)

/-- The filter part of the manager, with the ghost record of an update. -/
structure VisualEkf where
  state : StatesGroup
  G : MState
  HTH : MState
  /-- The levels and states of the accepted linearisations. -/
  accepted : List (ℕ × StatesGroup) := []
  /-- The covariance after each iteration. -/
  covs : List MState := []

/-- The variables of the loop. -/
structure VisualLoop extends VisualEkf where
  oldState : StatesGroup
  lastError : WithTop ℚ := ⊤
  ekfEnd : Bool := false

section Loop

variable (N : Numerics) (cfg : VioConfig) (statePropagat : StatesGroup) (level : ℕ)
variable {ι : Type} [Fintype ι] {k : ℕ} (hk : k ≤ dimState) (ph : Photometry ι k)

/-- The step is small: a thousandth of a degree and ten micrometres. -/
def visualConverged (m : Libm) (solution : VState) : Prop :=
  V3D.norm m (solution.seg 0) * (573 / 10) < 1 / 1000 ∧
    V3D.norm m (solution.seg 3) * 100 < 1 / 1000

instance (m : Libm) (solution : VState) : Decidable (visualConverged m solution) :=
  inferInstanceAs (Decidable (_ ∧ _))

/-- An accepted iteration. -/
def acceptStep (error : ℚ) (v : VisualLoop) : VisualLoop :=
  let s := v.state
  let H := ph.hSub s
  let HH := H.transpose * H
  let HTH := setCorner 0 HH
  let K1 := N.inverse (HTH + N.inverse (cfg.imgPointCov⁻¹ • s.cov))
  let HTz := H.transpose.mulVec (ph.z s)
  let vec := statePropagat.sub N s
  let G := setCorner (0 : MState) (leadCols K1 hk * HH)
  let solution : VState := -(leadCols K1 hk).mulVec HTz + vec -
    (leadCols G hk).mulVec (vec.lead hk)
  { state := s.add N.toLibm solution
    G := G
    HTH := HTH
    accepted := v.accepted ++ [(level, s)]
    covs := v.covs ++ [s.cov]
    oldState := s
    lastError := error
    ekfEnd := decide (visualConverged N.toLibm solution) }

/-- A rejected iteration goes back to the last accepted state. -/
def rejectStep (v : VisualLoop) : VisualLoop :=
  { v with state := v.oldState, ekfEnd := true, covs := v.covs ++ [v.oldState.cov] }

/-- The body of the loop: an iteration is accepted unless its error has grown. -/
def visualIteration (v : VisualLoop) : VisualLoop :=
  match ph.error v.state with
  | none => rejectStep v
  | some error =>
      if (error : WithTop ℚ) ≤ v.lastError then
        acceptStep N cfg statePropagat level hk ph error v
      else rejectStep v

/-- The loop, with `n` iterations left. -/
def visualLoop : ℕ → VisualLoop → VisualLoop
  | 0, v => v
  | n + 1, v =>
      let v := visualIteration N cfg statePropagat level hk ph v
      if v.ekfEnd then v else visualLoop n v

/-- One level: the loop from the state it is entered with. -/
def updateLevel (e : VisualEkf) : VisualEkf :=
  (visualLoop N cfg statePropagat level hk ph cfg.maxIterations
    { e with oldState := e.state }).toVisualEkf

end Loop

/-! ## The rows -/

/-- A row: a point of the submap, and a pixel of its patch. -/
abbrev PatchRow (n patchSize : ℕ) := Fin n × Fin patchSize × Fin patchSize

/-- What the rows of a submap point are computed from. -/
structure SubPoint where
  pos : V3D
  searchLevel : ℕ
  warpPatch : List ℚ
  invExpo : ℚ

/-- What the reference patch of a submap point contributes to the inverse rows. -/
structure RefPoint where
  pos : V3D
  refPos : V3D
  refF : V3D
  refPx : V2D
  refRot : M3D
  refImg : Mat

section Rows

variable (L : VioLibs) (cfg : VioConfig) (img : Mat) (level : ℕ)

/-- `VIOManager::computeProjectionJacobian`. -/
def computeProjectionJacobian (cam : Camera) (p : V3D) : Matrix (Fin 2) (Fin 3) ℚ :=
  let zInv := 1 / p 2
  let zInv2 := zInv * zInv
  !![cam.fx * zInv, 0, -cam.fx * p 0 * zInv2; 0, cam.fy * zInv, -cam.fy * p 1 * zInv2]

def Rcw (s : StatesGroup) : M3D := cfg.Rci * s.rotEnd.transpose

def Pcw (s : StatesGroup) : V3D := -(cfg.Rci * s.rotEnd.transpose).mulVec s.posEnd + cfg.Pci

/-- The point in the camera frame of a state. -/
def pointF (s : StatesGroup) (p : V3D) : V3D := (Rcw cfg s).mulVec p + Pcw cfg s

/-- A row of `updateState`: its Jacobian and its residual. -/
def photoRow (s : StatesGroup) (pt : SubPoint) (x y : ℕ) : (Fin 7 → ℚ) × ℚ :=
  let scale := 2 ^ (level + pt.searchLevel)
  let pf := pointF cfg s pt.pos
  let b := bilinear (L.cam.world2cam pf) scale
  let ptr := b.ptr L.cam.width cfg.patchSizeHalf scale x y
  let Jdpi := computeProjectionJacobian L.cam pf
  let Jimg : V2D := (s.invExpoTime * (1 / scale)) •
    ![b.du img L.cam.width scale ptr, b.dv img L.cam.width scale ptr]
  let Jdphi := Matrix.vecMul (Matrix.vecMul Jimg Jdpi) (skewSymMatrx pf)
  let Jdp := -Matrix.vecMul Jimg Jdpi
  let JdR := Matrix.vecMul Jdphi cfg.Rci + Matrix.vecMul Jdp cfg.JdpDR
  let Jdt := Matrix.vecMul Jdp (cfg.Rci * s.rotEnd.transpose)
  let curValue := b.value img L.cam.width scale ptr
  let res := s.invExpoTime * curValue -
    pt.invExpo * pt.warpPatch.getD (cfg.patchSizeTotal * level + x * cfg.patchSize + y) 0
  (![JdR 0, JdR 1, JdR 2, Jdt 0, Jdt 1, Jdt 2, if cfg.exposureEstimateEn then curValue else 0], res)

/-- The rows of `updateState`. -/
def photometry (pts : List SubPoint) : Photometry (PatchRow pts.length cfg.patchSize) 7 where
  hSub := fun s r => (photoRow L cfg img level s (pts.get r.1) r.2.1 r.2.2).1
  z := fun s r => (photoRow L cfg img level s (pts.get r.1) r.2.1 r.2.2).2

/-- A row of `H_sub_inv`. -/
def inverseRow (pt : RefPoint) (x y : ℕ) : V3D × V3D :=
  let scale := 2 ^ level
  let depth := V3D.norm L.toLibm (pt.pos - pt.refPos)
  let Jdpi := computeProjectionJacobian L.cam (depth • pt.refF)
  let b := bilinear pt.refPx scale
  let ptr := b.ptr L.cam.width cfg.patchSizeHalf scale x y
  let Jimg : V2D := (1 / scale : ℚ) •
    ![b.du pt.refImg L.cam.width scale ptr, b.dv pt.refImg L.cam.width scale ptr]
  (Matrix.vecMul (Matrix.vecMul (Matrix.vecMul Jimg Jdpi) pt.refRot) (skewSymMatrx pt.pos),
    Matrix.vecMul (-Matrix.vecMul Jimg Jdpi) pt.refRot)

/-- A row of `updateStateInverse`. -/
def inversePhotoRow (s : StatesGroup) (pt : SubPoint) (J : V3D × V3D) (x y : ℕ) :
    (Fin 6 → ℚ) × ℚ :=
  let scale := 2 ^ level
  let b := bilinear (L.cam.world2cam (pointF cfg s pt.pos)) scale
  let ptr := b.ptr L.cam.width cfg.patchSizeHalf scale x y
  let res := b.value img L.cam.width scale ptr -
    pt.warpPatch.getD (cfg.patchSizeTotal * level + x * cfg.patchSize + y) 0
  let JdR := Matrix.vecMul J.1 s.rotEnd +
    Matrix.vecMul (Matrix.vecMul J.2 (skewSymMatrx s.posEnd)) s.rotEnd
  let Jdt := Matrix.vecMul J.2 s.rotEnd
  (![JdR 0, JdR 1, JdR 2, Jdt 0, Jdt 1, Jdt 2], res)

/-- The rows of `updateStateInverse`, each submap point with its reference. -/
def inversePhotometry (pts : List (SubPoint × RefPoint)) :
    Photometry (PatchRow pts.length cfg.patchSize) 6 where
  hSub := fun s r =>
    let pt := pts.get r.1
    (inversePhotoRow L cfg img level s pt.1 (inverseRow L cfg level pt.2 r.2.1 r.2.2)
      r.2.1 r.2.2).1
  z := fun s r =>
    let pt := pts.get r.1
    (inversePhotoRow L cfg img level s pt.1 (inverseRow L cfg level pt.2 r.2.1 r.2.2)
      r.2.1 r.2.2).2

end Rows

/-! ## The levels -/

section Levels

variable (L : VioLibs) (cfg : VioConfig) (img : Mat) (statePropagat : StatesGroup)

/-- `VIOManager::updateState`. -/
def updateState (pts : List SubPoint) (level : ℕ) (e : VisualEkf) : VisualEkf :=
  updateLevel L.toNumerics cfg statePropagat level (by decide) (photometry L cfg img level pts) e

/-- `VIOManager::updateStateInverse`, once `precomputeReferencePatches` has followed the reference
pointers. -/
def updateStateInverse (pts : List (SubPoint × RefPoint)) (level : ℕ) (e : VisualEkf) :
    VisualEkf :=
  updateLevel L.toNumerics cfg statePropagat level pose_le_dimState
    (inversePhotometry L cfg img level pts) e

/-- The levels from the coarsest down. -/
def levels : List ℕ := (List.range cfg.patchPyrimidLevel).reverse

/-- `state->cov -= G * state->cov`. -/
def finishUpdate (e : VisualEkf) : VisualEkf :=
  let cov := e.state.cov - e.G * e.state.cov
  { e with state := { e.state with cov := cov }, covs := e.covs ++ [cov] }

end Levels

namespace VIOManager

variable (L : VioLibs) (cfg : VioConfig) (inp : FrameInput)

/-- The submap points, as the rows read them. -/
def subPoints (v : VIOManager) : Except VioFault (List SubPoint) :=
  v.submap.entries.mapM fun e => do
    let pt ← v.point e.point
    pure ⟨pt.pos, e.searchLevel, e.warpPatch, e.invExpo⟩

/-- `VIOManager::precomputeReferencePatches`: what it reads through `ref_patch`. -/
def precomputeReferencePatches (v : VIOManager) : Except VioFault (List (SubPoint × RefPoint)) :=
  v.submap.entries.mapM fun e => do
    let pt ← v.point e.point
    let ref ← pt.derefPatch
    pure (⟨pt.pos, e.searchLevel, e.warpPatch, e.invExpo⟩,
      ⟨pt.pos, ref.pos, ref.f, ref.px, ref.tFW.rot, ref.img⟩)

/-- The levels of the update: with the inverse composition a level computes the reference rows in
its first iteration, if it has one. -/
def updateLevels (v : VIOManager) (e : VisualEkf) : Except VioFault VisualEkf :=
  if cfg.inverseCompositionEn then
    (levels cfg).foldlM (fun e level =>
      if cfg.maxIterations = 0 then pure e
      else do
        let pts ← v.precomputeReferencePatches
        pure (updateStateInverse L cfg inp.img inp.statePropagat pts level e)) e
  else do
    let pts ← v.subPoints
    pure ((levels cfg).foldl (fun e level =>
      updateState L cfg inp.img inp.statePropagat pts level e) e)

/-- `VIOManager::updateFrameState`. -/
def updateFrameState (s : StatesGroup) (v : VIOManager) : VIOManager :=
  { v with newFrame := { v.newFrame with tFW := ⟨L.toRotation (Rcw cfg s), Pcw cfg s⟩ } }

/-- `VIOManager::computeJacobianAndUpdateEKF`, on `*state`. -/
def computeJacobianAndUpdateEKF (v : VIOManager) :
    Except VioFault (VIOManager × VisualEkf) :=
  let e : VisualEkf := { state := inp.state, G := v.G, HTH := v.HTH }
  if v.totalPoints = 0 then .ok (v, e)
  else do
    let e ← updateLevels L cfg inp v e
    let e := finishUpdate e
    pure (updateFrameState L cfg e.state { v with G := e.G, HTH := e.HTH }, e)

end VIOManager

end FastLivo2
