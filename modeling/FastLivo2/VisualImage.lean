import FastLivo2.FilterState
import FastLivo2.VisualPoint
import FastLivo2.VoxelMap
import FastLivo2.Lib.Precision

/-!
# Images, cameras and warps

What `vio.cpp` computes from pixels: interpolated patches (`getImagePatch`), the affine warp of a
reference patch into the current view (`getWarpMatrixAffine`, `getWarpMatrixAffineHomography`,
`warpAffine`, `getBestSearchLevel`) and the correlation of two patches (`calculateNCC`); and the
settings of `VIOManager` with what `initializeVIO` derives from them.

The camera model, the corner score and the conversion of a matrix to a rotation come from other
libraries.  They are parameters, and so is the order in which a hash map is walked.  A pixel
outside the buffer reads as zero here.  A pixel position is narrowed to `float` before its pixels
are chosen, which is kept; the arithmetic on the values is exact.
-/

namespace FastLivo2

/-! ## Libraries -/

/-- `vk::AbstractCamera`. -/
structure Camera where
  width : ℕ
  height : ℕ
  fx : ℚ
  fy : ℚ
  world2cam : V3D → V2D
  cam2world : V2D → V3D

/-- `px.cast<int>()`. -/
def castInt (px : V2D) : Fin 2 → ℤ := fun j => truncInt (px j)

/-- `isInFrame`. -/
def Camera.isInFrame (cam : Camera) (obs : Fin 2 → ℤ) (boundary : ℤ) : Bool :=
  decide (boundary ≤ obs 0 ∧ obs 0 < cam.width - boundary ∧ boundary ≤ obs 1 ∧
    obs 1 < cam.height - boundary)

/-- The libraries of the visual part.  `indeterminate f g` is what the mean of `g`'s patch reads as
while it is unset, in the round of `f`. -/
structure VioLibs extends Numerics where
  cam : Camera
  shiTomasiScore : Mat → ℤ → ℤ → ℚ
  toRotation : M3D → M3D
  hashOrder : List VoxelLocation → List VoxelLocation
  hashOrder_perm : ∀ l, (hashOrder l).Perm l
  indeterminate : Feature → Feature → ℚ

/-! ## Settings -/

/-- The settings of `VIOManager`. -/
structure VioConfig where
  gridSizeParam : ℕ := 5
  gridNHeightParam : ℕ := 17
  patchSize : ℕ := 8
  patchPyrimidLevel : ℕ := 4
  maxIterations : ℕ := 5
  imgPointCov : ℚ := 100
  outlierThreshold : ℚ := 100
  nccThre : ℚ := 0
  normalEn : Bool := true
  inverseCompositionEn : Bool := false
  exposureEstimateEn : Bool := true
  raycastEn : Bool := false
  nccEn : Bool := false
  Rli : M3D := 1
  Pli : V3D := 0
  Rcl : M3D := 1
  Pcl : V3D := 0

namespace VioConfig

variable (cfg : VioConfig) (cam : Camera)

def Rci : M3D := cfg.Rcl * cfg.Rli

def Pci : V3D := cfg.Rcl.mulVec cfg.Pli + cfg.Pcl

/-- `Jdp_dR`. -/
def JdpDR : M3D :=
  -cfg.Rci * skewSymMatrx (-cfg.Rci.transpose.mulVec cfg.Pci)

/-- `grid_size`: the setting, or what the number of rows leaves. -/
def gridSize : ℕ :=
  if 10 < cfg.gridSizeParam then cfg.gridSizeParam else cam.height / cfg.gridNHeightParam

def gridNWidth : ℕ := cam.width / cfg.gridSize cam

def gridNHeight : ℕ := cam.height / cfg.gridSize cam

def length : ℕ := cfg.gridNWidth cam * cfg.gridNHeight cam

def patchSizeTotal : ℕ := cfg.patchSize * cfg.patchSize

def patchSizeHalf : ℕ := cfg.patchSize / 2

def warpLen : ℕ := cfg.patchSizeTotal * cfg.patchPyrimidLevel

def border : ℤ := (cfg.patchSizeHalf + 1) * 2 ^ cfg.patchPyrimidLevel

/-- `border_flag`. -/
def borderFlag (index : ℕ) : Bool :=
  let row := index / cfg.gridNWidth cam + 1
  let col := index % cfg.gridNWidth cam + 1
  decide (row = 1 ∨ col = 1 ∨ row = cfg.gridNHeight cam ∨ col = cfg.gridNWidth cam)

/-- `SamplePointsEachGrid`: along the ray of a cell's centre, every 0.2 m from 0.1 m to 3 m. -/
def samplePoints (index : ℕ) : List V3D :=
  let gridSize := cfg.gridSize cam
  let u := gridSize / 2 + index % cfg.gridNWidth cam * gridSize
  let v := gridSize / 2 + index / cfg.gridNWidth cam * gridSize
  (List.range 15).map fun k =>
    let xyz := cam.cam2world ![u, v]
    ((1 / 10 + k * (1 / 5) : ℚ) / xyz 2) • xyz

end VioConfig

/-! ## Pixels -/

/-- A byte of the image buffer. -/
def Mat.byte (img : Mat) (off : ℤ) : ℚ :=
  if 0 ≤ off then ((img.data.getD off.toNat 0).toNat : ℚ) else 0

/-- The weights of an interpolation, and the pixel they are taken from. -/
structure Bilinear where
  u : ℤ
  v : ℤ
  tl : ℚ
  tr : ℚ
  bl : ℚ
  br : ℚ

/-- The interpolation at a pixel position, on the grid of every `scale`-th pixel: `floorf` narrows
the quotient to `float`, and `u_ref` and `v_ref` are the narrowed coordinates. -/
def bilinear (pc : V2D) (scale : ℕ) : Bilinear :=
  let u := ⌊toFloat (pc 0 / scale)⌋ * scale
  let v := ⌊toFloat (pc 1 / scale)⌋ * scale
  let subpixU := (toFloat (pc 0) - u) / scale
  let subpixV := (toFloat (pc 1) - v) / scale
  { u := u, v := v
    tl := (1 - subpixU) * (1 - subpixV), tr := subpixU * (1 - subpixV)
    bl := (1 - subpixU) * subpixV, br := subpixU * subpixV }

namespace Bilinear

/-- `img_ptr` at column `y` of row `x` of a patch. -/
def ptr (b : Bilinear) (width half scale x y : ℕ) : ℤ :=
  (b.v + x * scale - half * scale) * width + b.u - half * scale + y * scale

/-- The interpolated value at a pointer. -/
def value (b : Bilinear) (img : Mat) (width scale : ℕ) (p : ℤ) : ℚ :=
  b.tl * img.byte p + b.tr * img.byte (p + scale) + b.bl * img.byte (p + scale * width) +
    b.br * img.byte (p + scale * width + scale)

/-- `du`. -/
def du (b : Bilinear) (img : Mat) (width scale : ℕ) (p : ℤ) : ℚ :=
  1 / 2 * (b.value img width scale (p + scale) - b.value img width scale (p - scale))

/-- `dv`. -/
def dv (b : Bilinear) (img : Mat) (width scale : ℕ) (p : ℤ) : ℚ :=
  1 / 2 * (b.value img width scale (p + scale * width) -
    b.value img width scale (p - scale * width))

end Bilinear

/-- `VIOManager::getImagePatch`. -/
def getImagePatch (cfg : VioConfig) (cam : Camera) (img : Mat) (pc : V2D) (level : ℕ) : List ℚ :=
  let scale := 2 ^ level
  let b := bilinear pc scale
  (List.range cfg.patchSize).flatMap fun x =>
    (List.range cfg.patchSize).map fun y =>
      b.value img cam.width scale (b.ptr cam.width cfg.patchSizeHalf scale x y)

/-- `vk::interpolateMat_8u`, whose arguments are `float`. -/
def interpolateMat8u (mat : Mat) (u v : ℚ) : ℚ :=
  let u := toFloat u
  let v := toFloat v
  let x := ⌊u⌋
  let y := ⌊v⌋
  let subpixX := u - x
  let subpixY := v - y
  let w00 := (1 - subpixX) * (1 - subpixY)
  let w01 := (1 - subpixX) * subpixY
  let w10 := subpixX * (1 - subpixY)
  let w11 := 1 - w00 - w01 - w10
  let p := y * mat.cols + x
  w00 * mat.byte p + w01 * mat.byte (p + mat.cols) + w10 * mat.byte (p + 1) +
    w11 * mat.byte (p + mat.cols + 1)

/-! ## Warps -/

/-- Two columns. -/
def ofCols (a b : V2D) : M2D := fun i j => if j = 0 then a i else b i

/-- `VIOManager::getWarpMatrixAffineHomography`. -/
def getWarpMatrixAffineHomography (cam : Camera) (pxRef : V2D) (xyzRef normalRef : V3D)
    (TCurRef : SE3) (levelRef : ℕ) : M2D :=
  let t := TCurRef.inverse.trans
  let HCurRef := TCurRef.rot * ((normalRef ⬝ᵥ xyzRef) • (1 : M3D) - Matrix.vecMulVec t normalRef)
  let kHalfPatchSize : ℚ := 4
  let fDuRef := cam.cam2world (pxRef + (2 ^ levelRef : ℚ) • ![kHalfPatchSize, 0])
  let fDvRef := cam.cam2world (pxRef + (2 ^ levelRef : ℚ) • ![0, kHalfPatchSize])
  let pxCur := cam.world2cam (HCurRef.mulVec xyzRef)
  let pxDuCur := cam.world2cam (HCurRef.mulVec fDuRef)
  let pxDvCur := cam.world2cam (HCurRef.mulVec fDvRef)
  ofCols ((1 / kHalfPatchSize) • (pxDuCur - pxCur)) ((1 / kHalfPatchSize) • (pxDvCur - pxCur))

/-- `VIOManager::getWarpMatrixAffine`. -/
def getWarpMatrixAffine (cam : Camera) (pxRef : V2D) (fRef : V3D) (depthRef : ℚ) (TCurRef : SE3)
    (levelRef pyramidLevel halfpatchSize : ℕ) : M2D :=
  let half : ℚ := halfpatchSize
  let scale : ℚ := 2 ^ levelRef * 2 ^ pyramidLevel
  let xyzRef := depthRef • fRef
  let xyzDuRef := cam.cam2world (pxRef + scale • ![half, 0])
  let xyzDvRef := cam.cam2world (pxRef + scale • ![0, half])
  let xyzDuRef := (xyzRef 2 / xyzDuRef 2) • xyzDuRef
  let xyzDvRef := (xyzRef 2 / xyzDvRef 2) • xyzDvRef
  let pxCur := cam.world2cam (TCurRef.act xyzRef)
  let pxDu := cam.world2cam (TCurRef.act xyzDuRef)
  let pxDv := cam.world2cam (TCurRef.act xyzDvRef)
  ofCols ((1 / half) • (pxDu - pxCur)) ((1 / half) • (pxDv - pxCur))

/-- `VIOManager::getBestSearchLevel`, with `maxLevel - searchLevel` levels left. -/
def searchLevelFrom (D : ℚ) (searchLevel : ℕ) : ℕ → ℕ
  | 0 => searchLevel
  | left + 1 => if 3 < D then searchLevelFrom (D * (1 / 4)) (searchLevel + 1) left else searchLevel

def getBestSearchLevel (ACurRef : M2D) (maxLevel : ℕ) : ℕ :=
  searchLevelFrom (ACurRef 0 0 * ACurRef 1 1 - ACurRef 0 1 * ACurRef 1 0) 0 maxLevel

/-- `A.inverse()` of a two by two matrix; not a number when it is singular. -/
def M2D.inverse (A : M2D) : Option M2D :=
  let det := A 0 0 * A 1 1 - A 0 1 * A 1 0
  if det = 0 then none
  else some ((1 / det) • ofCols ![A 1 1, -A 1 0] ![-A 0 1, A 0 0])

/-- `VIOManager::warpAffine`: the values of one pyramid level.  A singular warp writes nothing over
the zeros the patch starts with, and neither does the loop past an even number of rows. -/
def warpAffine (cfg : VioConfig) (ACurRef : M2D) (imgRef : Mat) (pxRef : V2D)
    (searchLevel pyramidLevel halfpatchSize : ℕ) : List ℚ :=
  match M2D.inverse ACurRef with
  | none => List.replicate cfg.patchSizeTotal 0
  | some ARefCur =>
      let patchSize := halfpatchSize * 2
      (List.range cfg.patchSizeTotal).map fun k =>
        if k < patchSize * patchSize then
          let x := k % patchSize
          let y := k / patchSize
          let scale : ℚ := 2 ^ searchLevel * 2 ^ pyramidLevel
          let pxPatch : V2D := scale • ![(x : ℚ) - halfpatchSize, (y : ℚ) - halfpatchSize]
          let px := ARefCur.mulVec pxPatch + pxRef
          if px 0 < 0 ∨ px 1 < 0 ∨ (imgRef.cols : ℚ) - 1 ≤ px 0 ∨
              (imgRef.rows : ℚ) - 1 ≤ px 1 then 0
          else interpolateMat8u imgRef (px 0) (px 1)
        else 0

/-! ## Correlation -/

/-- The mean of a patch. -/
def patchMean (n : ℕ) (patch : ℕ → ℚ) : ℚ := ((List.range n).map patch).sum / n

/-- `VIOManager::calculateNCC`. -/
def calculateNCC (m : Libm) (refPatch curPatch : ℕ → ℚ) (patchSize : ℕ) : ℚ :=
  let meanRef := patchMean patchSize refPatch
  let meanCurr := patchMean patchSize curPatch
  let sum := fun f : ℕ → ℚ => ((List.range patchSize).map f).sum
  let numerator := sum fun i => (refPatch i - meanRef) * (curPatch i - meanCurr)
  let demoniator1 := sum fun i => (refPatch i - meanRef) * (refPatch i - meanRef)
  let demoniator2 := sum fun i => (curPatch i - meanCurr) * (curPatch i - meanCurr)
  numerator / m.sqrt (demoniator1 * demoniator2 + 1 / 10000000000)

end FastLivo2
