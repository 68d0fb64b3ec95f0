import FastLivo2.VisualImage

/-!
# The visual map and its retrieval

`VIOManager` of `vio.cpp`: the hash map of visual points, the grid over the image, and the first
step of a frame, `retrieveFromVisualSparseMap`, which collects the points to align with.

Visual points live in a heap, `points`; a pointer to one is its place there.  `feat_map` keeps, for
a key, the pointers in its voxel.  Patch buffers are the numbers of their allocations, and
`liveBufs` holds those that were allocated and not freed.

Keys are computed in four places: `insertLocation` where a point enters the visual map,
`queryLocation` where the visual map is searched for a scan point and, by the same lines, where it
and the LiDAR map are searched for a sample of a ray, and `referenceLocation` where the LiDAR map is
searched for the plane of a visual point.
-/

namespace FastLivo2

/-! ## Keys -/

/-- A floating-point integer converted to `int`. -/
def intOf (n : ℤ) : Except VioFault ℤ :=
  if -2147483648 ≤ n ∧ n < 2147483648 then .ok n else .error .intRange

/-- One coordinate of a query: the floor, less one below zero. -/
def queryKey (x : ℚ) : Except VioFault ℤ := do
  let loc ← intOf ⌊x / (1 / 2)⌋
  if loc < 0 then intOf (loc - 1) else pure loc

/-- `position` in `retrieveFromVisualSparseMap`: the key of a scan point, or of a sample of a
ray. -/
def queryLocation (p : V3D) : Except VioFault VoxelLocation := do
  let x ← queryKey (p 0)
  let y ← queryKey (p 1)
  let z ← queryKey (p 2)
  pure ![x, y, z]

/-- `position` in `insertPointIntoVoxelMap`. -/
def insertLocation (p : V3D) : VoxelLocation := voxelLocation (1 / 2) p

/-- `position` in `updateReferencePatch`. -/
def referenceLocation (p : V3D) : VoxelLocation := voxelLocation (1 / 2) p

/-- `feat_map`. -/
structure FeatMap where
  find : VoxelLocation → Option (List ℕ) := fun _ => none
  size : ℕ := 0

/-- The pointers under a key. -/
def FeatMap.bucket (m : FeatMap) (position : VoxelLocation) : List ℕ := (m.find position).getD []

/-- `feat_map[position]->voxel_points.push_back(i)`, in a new voxel if there is none. -/
def FeatMap.push (m : FeatMap) (position : VoxelLocation) (i : ℕ) : FeatMap :=
  { find := fun k => if k = position then some (m.bucket position ++ [i]) else m.find k
    size := if (m.find position).isSome then m.size else m.size + 1 }

/-! ## The manager -/

inductive CellType
  | map
  | pointcloud
  | unknown
  deriving DecidableEq, Repr

/-- The arrays over the cells of the image grid, as `resetGrid` fills them. -/
structure Grid where
  gridNum : ℕ → CellType := fun _ => .unknown
  mapDist : ℕ → ℚ := fun _ => 10000
  updateFlag : ℕ → Bool := fun _ => false
  scanValue : ℕ → ℚ := fun _ => 0
  retrieveVoxelPoints : ℕ → Option ℕ := fun _ => none
  appendVoxelPoints : ℕ → PointWithVar := fun _ => {}

/-- One entry of the visual submap. -/
structure SubEntry where
  point : ℕ
  error : ℚ
  searchLevel : ℕ
  warpPatch : List ℚ
  invExpo : ℚ

/-- `SubSparseMap`. -/
structure SubSparseMap where
  entries : List SubEntry := []
  addFromVoxelMap : List PointWithVar := []

/-- `Frame`. -/
structure Frame where
  id : ℕ := 0
  tFW : SE3 := {}
  img : Mat := {}

namespace Frame

variable (L : VioLibs) (frame : Frame)

def w2f (p : V3D) : V3D := frame.tFW.act p

def f2w (f : V3D) : V3D := frame.tFW.inverse.act f

def w2c (p : V3D) : V2D := L.cam.world2cam (frame.w2f p)

def pos : V3D := frame.tFW.inverse.trans

end Frame

/-- `Warp`. -/
structure Warp where
  searchLevel : ℕ
  ACurRef : M2D

/-- `VIOManager`, with the counters of the allocator and of the frames. -/
structure VIOManager where
  points : List VisualPoint := []
  featMap : FeatMap := {}
  warpMap : ℕ → Option Warp := fun _ => none
  submap : SubSparseMap := {}
  grid : Grid := {}
  totalPoints : ℕ := 0
  newFrame : Frame := {}
  G : MState := 0
  HTH : MState := 0
  frameCounter : ℕ := 0
  nextFtr : ℕ := 0
  nextBuf : ℕ := 0
  liveBufs : Finset ℕ := ∅
  /-- The denominators the correlations of the frame divided by: a ghost record. -/
  denoms : List ℚ := []

/-- What a call of `processFrame` is given: the image, gray and of the camera's size unless the
constructor of `Frame` is to throw, the points of the scan, the voxel map, and the two filter states
it has pointers to. -/
structure FrameInput where
  img : Mat
  pg : List PointWithVar := []
  planeMap : VoxelLocation → VoxelOctoTree := fun _ => .nullptr
  state : StatesGroup := {}
  statePropagat : StatesGroup := {}

namespace VIOManager

variable (L : VioLibs) (cfg : VioConfig) (inp : FrameInput)

/-- `VIOManager::resetGrid`. -/
def resetGrid (v : VIOManager) : VIOManager := { v with grid := {}, totalPoints := 0 }

/-- `*pt`. -/
def point (v : VIOManager) (i : ℕ) : Except VioFault VisualPoint :=
  match v.points[i]? with
  | none => .error .danglingPointer
  | some pt => .ok pt

/-- `*pt = ...`. -/
def setPoint (v : VIOManager) (i : ℕ) (pt : VisualPoint) : VIOManager :=
  { v with points := v.points.set i pt }

/-- `VIOManager::insertPointIntoVoxelMap`, of a point just allocated. -/
def insertPointIntoVoxelMap (v : VIOManager) (ptNew : VisualPoint) : VIOManager :=
  { v with
    points := v.points ++ [ptNew]
    featMap := v.featMap.push (insertLocation ptNew.pos) v.points.length }

/-- `new float[patch_size_total]`. -/
def allocBuf (v : VIOManager) : VIOManager :=
  { v with nextBuf := v.nextBuf + 1, liveBufs := insert v.nextBuf v.liveBufs }

/-- `delete[]` of some buffers. -/
def freeBufs (v : VIOManager) (bufs : List ℕ) : VIOManager :=
  { v with liveBufs := v.liveBufs \ bufs.toFinset }

/-- The cell of a pixel. -/
def cellIndex (pc : V2D) : Except VioFault ℕ :=
  if cfg.gridSize L.cam = 0 then .error .outOfRange
  else
    let index := truncInt (pc 1 / cfg.gridSize L.cam) * cfg.gridNWidth L.cam +
      truncInt (pc 0 / cfg.gridSize L.cam)
    if 0 ≤ index ∧ index < cfg.length L.cam then .ok index.toNat else .error .outOfRange

/-! ## Candidates -/

/-- `map_dist` and `retrieve_voxel_points` take the nearest point of a cell, the last among
equals, by distances narrowed to `float`. -/
def offer (grid : Grid) (index : ℕ) (curDist : ℚ) (i : ℕ) : Grid :=
  let grid := { grid with gridNum := fun k => if k = index then .map else grid.gridNum k }
  if curDist ≤ grid.mapDist index then
    { grid with
      mapDist := fun k => if k = index then curDist else grid.mapDist k
      retrieveVoxelPoints := fun k => if k = index then some i else grid.retrieveVoxelPoints k }
  else grid

/-- The body of the loops over the points of a voxel; with the flag `voxel_in_fov`. -/
def visit (v : VIOManager) (g : Grid × Bool) (i : ℕ) : Except VioFault (Grid × Bool) := do
  let pt ← v.point i
  if pt.obs.isEmpty then pure g
  else if v.newFrame.w2f pt.pos 2 < 0 then pure g
  else
    let pc := v.newFrame.w2c L pt.pos
    if L.cam.isInFrame (castInt pc) cfg.border then do
      let index ← cellIndex L cfg pc
      pure (offer g.1 index (toFloat (V3D.norm L.toLibm (v.newFrame.pos - pt.pos))) i, true)
    else pure g

/-- The points of the voxel under a key, if there is one. -/
def visitVoxel (v : VIOManager) (grid : Grid) (position : VoxelLocation) :
    Except VioFault Grid := do
  let g ← (v.featMap.bucket position).foldlM (visit L cfg v) (grid, false)
  pure g.1

/-- The variables of the ray casting. -/
structure Rays where
  grid : Grid
  subFeatMap : List VoxelLocation
  addFromVoxelMap : List PointWithVar := []

/-- The samples of one ray, from the camera outwards. -/
def castRay (v : VIOManager) : List V3D → Rays → Except VioFault Rays
  | [], r => pure r
  | it :: rest, r => do
      let samplePointW := v.newFrame.f2w it
      let samplePos ← queryLocation samplePointW
      if samplePos ∈ r.subFeatMap then pure r
      else match v.featMap.find samplePos with
        | some voxelPoints =>
            if voxelPoints.isEmpty then castRay v rest r
            else do
              let g ← voxelPoints.foldlM (visit L cfg v) (r.grid, false)
              pure { r with
                grid := g.1
                subFeatMap := if g.2 then samplePos :: r.subFeatMap else r.subFeatMap }
        | none =>
            match VoxelOctoTree.findCorrespond samplePointW (inp.planeMap samplePos) with
            | .nullptr => castRay v rest r
            | .node d _ =>
                if d.plane.isPlane then
                  pure { r with
                    addFromVoxelMap := r.addFromVoxelMap ++
                      [{ pointW := d.plane.center, normal := d.plane.normal }] }
                else castRay v rest r

/-- The ray of one cell. -/
def castCell (v : VIOManager) (r : Rays) (i : ℕ) : Except VioFault Rays :=
  if r.grid.gridNum i = .map ∨ cfg.borderFlag L.cam i then pure r
  else castRay L cfg inp v (cfg.samplePoints L.cam i) r

/-- `sub_feat_map`: the keys of the scan. -/
def scanKeys (pg : List PointWithVar) : Except VioFault (List VoxelLocation) :=
  pg.foldlM (fun keys p => do
    let position ← queryLocation p.pointW
    pure (if position ∈ keys then keys else keys ++ [position])) []

/-- `depth_img`: the last scan point projected onto each pixel. -/
def depthImg (frame : Frame) (pg : List PointWithVar) : ℤ → ℚ :=
  pg.foldl (fun it p =>
    let ptC := frame.w2f p.pointW
    if 0 < ptC 2 ∧ L.cam.isInFrame (castInt (L.cam.world2cam ptC)) cfg.border then
      let px := castInt (L.cam.world2cam ptC)
      fun k => if k = L.cam.width * px 1 + px 0 then ptC 2 else it k
    else it) fun _ => 0

/-! ## The reference of a point -/

/-- `phtometric_errors` of a feature: its mean squared difference to the features of other
frames. -/
def photometricErrors (pt : VisualPoint) (ftr : Feature) : Flt :=
  let others := pt.obs.filter fun g => g.id ≠ ftr.id
  Flt.div ((others.map fun g => ((List.range cfg.patchSizeTotal).map fun ind =>
    (ftr.patch.at ind - g.patch.at ind) * (ftr.patch.at ind - g.patch.at ind)).sum).sum)
    others.length

/-- The feature of least photometric error; `none` leaves `ref_ftr` unset. -/
def leastPhotometric (pt : VisualPoint) : Option Feature :=
  (pt.obs.foldl (fun (it : WithTop ℚ × Option Feature) ftr =>
    let e := photometricErrors cfg pt ftr
    if e.below it.1 then ((e.getD 0 : ℚ), some ftr) else it) (⊤, none)).2

/-- `ref_ftr`: the point with its reference updated, and the feature to warp; `none` skips the
point. -/
def selectRef (v : VIOManager) (pt : VisualPoint) :
    Except VioFault (Option (VisualPoint × Feature)) :=
  if cfg.normalEn then
    match pt.obs with
    | [ftr] => .ok (some (pt.setRef ftr, ftr))
    | _ =>
        if pt.hasRefPatch = false then
          match leastPhotometric cfg pt with
          | none => .error .wildPointer
          | some ftr => .ok (some (pt.setRef ftr, ftr))
        else
          match pt.derefPatch with
          | .error e => .error e
          | .ok ftr => .ok (some (pt, ftr))
  else
    match pt.getCloseViewObs L.toLibm v.newFrame.pos with
    | none => .ok none
    | some ftr => .ok (some (pt, ftr))

/-- The warp into the current view, and `warp_map` after it. -/
def warpOf (v : VIOManager) (pt : VisualPoint) (refFtr : Feature) :
    Warp × (ℕ → Option Warp) :=
  let TCurRef := v.newFrame.tFW.mul refFtr.tFW.inverse
  if cfg.normalEn then
    let normVec := V3D.normalized L.toLibm (refFtr.tFW.rot.mulVec pt.normal)
    let A := getWarpMatrixAffineHomography L.cam refFtr.px (refFtr.tFW.act pt.pos) normVec TCurRef 0
    (⟨getBestSearchLevel A 2, A⟩, v.warpMap)
  else
    match v.warpMap refFtr.id with
    | some w => (w, v.warpMap)
    | none =>
        let A := getWarpMatrixAffine L.cam refFtr.px refFtr.f
          (V3D.norm L.toLibm (refFtr.pos - pt.pos)) TCurRef refFtr.level 0 cfg.patchSizeHalf
        let w : Warp := ⟨getBestSearchLevel A 2, A⟩
        (w, fun k => if k = refFtr.id then some w else v.warpMap k)

/-! ## The submap -/

/-- `depth_continous`: the depth image around the point jumps by more than half a metre. -/
def depthContinous (depth : ℤ → ℚ) (pc : V2D) (z : ℚ) : Bool :=
  let window := (List.range (2 * cfg.patchSizeHalf + 1)).map fun k => (k : ℤ) - cfg.patchSizeHalf
  window.any fun u => window.any fun w =>
    let d := depth (L.cam.width * (w + truncInt (pc 1)) + u + truncInt (pc 0))
    decide (¬(u = 0 ∧ w = 0) ∧ d ≠ 0 ∧ 1 / 2 < |z - d|)

/-- A point that passed its tests enters the submap with its warped patch, unless the patch
differs too much from the image. -/
def addEntry (k : ℕ) (pc : V2D) (refFtr : Feature) (w : Warp) (v : VIOManager) :
    Except VioFault VIOManager :=
  let patchWrap := (List.range cfg.patchPyrimidLevel).flatMap fun pyramidLevel =>
    warpAffine cfg w.ACurRef refFtr.img refFtr.px w.searchLevel pyramidLevel cfg.patchSizeHalf
  if cfg.warpLen < cfg.patchSizeTotal then .error .outOfRange
  else
    let patchBuffer := getImagePatch cfg L.cam inp.img pc 0
    let wrap := fun ind => patchWrap.getD ind 0
    let cur := fun ind => patchBuffer.getD ind 0
    let error := ((List.range cfg.patchSizeTotal).map fun ind =>
      (refFtr.invExpoTime * wrap ind - inp.state.invExpoTime * cur ind) *
        (refFtr.invExpoTime * wrap ind - inp.state.invExpoTime * cur ind)).sum
    if cfg.nccEn ∧ calculateNCC L.toLibm wrap cur cfg.patchSizeTotal < cfg.nccThre then .ok v
    else if cfg.outlierThreshold * cfg.patchSizeTotal < error then .ok v
    else
      let entry : SubEntry := ⟨k, error, w.searchLevel, patchWrap, refFtr.invExpoTime⟩
      .ok { v with submap := { v.submap with entries := v.submap.entries ++ [entry] } }

/-- The last loop of the retrieval, on one cell. -/
def retrieveCell (depth : ℤ → ℚ) (v : VIOManager) (i : ℕ) : Except VioFault VIOManager :=
  if v.grid.gridNum i ≠ .map then .ok v
  else
    match v.grid.retrieveVoxelPoints i with
    | none => .error .nullPointer
    | some k => do
        let pt ← v.point k
        let pc := v.newFrame.w2c L pt.pos
        if depthContinous L cfg depth pc (v.newFrame.w2f pt.pos 2) then pure v
        else if pt.isNormalInitialized = false then pure v
        else
          match ← selectRef L cfg v pt with
          | none => pure v
          | some (pt, refFtr) =>
              let (w, warpMap) := warpOf L cfg v pt refFtr
              addEntry L cfg inp k pc refFtr w { v.setPoint k pt with warpMap := warpMap }

/-- The first loops of the retrieval: which point each cell offers, and which planes of the voxel
map are to become points. -/
def collect (v : VIOManager) : Except VioFault VIOManager := do
  let keys ← scanKeys inp.pg
  let grid ← (L.hashOrder keys).foldlM (visitVoxel L cfg v) v.grid
  let r ← if cfg.raycastEn then
      (List.range (cfg.length L.cam)).foldlM (castCell L cfg inp v)
        { grid := grid, subFeatMap := keys }
    else pure { grid := grid, subFeatMap := keys }
  pure { v with
    grid := r.grid
    submap := { v.submap with addFromVoxelMap := v.submap.addFromVoxelMap ++ r.addFromVoxelMap } }

/-- `VIOManager::retrieveFromVisualSparseMap`. -/
def retrieveFromVisualSparseMap (v : VIOManager) : Except VioFault VIOManager :=
  if v.featMap.size ≤ 0 then .ok v
  else do
    let v := { v with
      submap := {}
      warpMap := if cfg.normalEn then v.warpMap else fun _ => none }
    let v ← collect L cfg inp v
    let v ← (List.range (cfg.length L.cam)).foldlM
      (retrieveCell L cfg inp (depthImg L cfg v.newFrame inp.pg)) v
    pure { v with totalPoints := v.submap.entries.length }

end VIOManager

end FastLivo2
