import FastLivo2.OctoTreeGeometry

/-!
# The voxel map

`VoxelMapManager` of `voxel_map.cpp`: the hash map from voxel keys to octrees, the two ways of
adding points to it (`BuildVoxelMap` once, `UpdateVoxelMap` for each scan) and the sliding window
(`mapSliding`, `clearMemOutOfMap`).

`voxel_map_` is a function that gives the null pointer for an absent key: the code never stores
one.  Points arrive with the covariance the caller computed.  A configuration carries the proof
that its voxel size is positive.
-/

namespace FastLivo2

/-! ## Keys -/

/-- Conversion of a floating-point number to an integer type: towards zero. -/
def truncInt (x : ℚ) : ℤ := if 0 ≤ x then ⌊x⌋ else ⌈x⌉

lemma truncInt_intCast (n : ℤ) : truncInt n = n := by
  unfold truncInt
  rw [Int.floor_intCast, Int.ceil_intCast, ite_self]

lemma truncInt_eq_floor {x : ℚ} (hpos : 0 < truncInt x) : 0 ≤ x ∧ truncInt x = ⌊x⌋ := by
  by_cases hx : 0 ≤ x
  · exact ⟨hx, if_pos hx⟩
  · have hceil : truncInt x = ⌈x⌉ := if_neg hx
    have hle : ⌈x⌉ ≤ 0 := Int.ceil_nonpos.mpr (not_le.mp hx).le
    omega

lemma truncInt_eq_zero {x : ℚ} (h : |x| < 1) : truncInt x = 0 := by
  obtain ⟨hlow, hhigh⟩ := abs_lt.mp h
  unfold truncInt
  split_ifs with hx
  · exact Int.floor_eq_zero_iff.mpr ⟨hx, hhigh⟩
  · exact Int.ceil_eq_zero_iff.mpr ⟨hlow, (not_le.mp hx).le⟩

/-- One coordinate of a key: less one below zero, then truncated. -/
def voxelKey (voxelSize x : ℚ) : ℤ :=
  let loc := x / voxelSize
  truncInt (if loc < 0 then loc - 1 else loc)

/-- `VOXEL_LOCATION`. -/
abbrev VoxelLocation := Fin 3 → ℤ

/-- `position`: the key of a world point. -/
def voxelLocation (voxelSize : ℚ) (pw : V3D) : VoxelLocation := fun j => voxelKey voxelSize (pw j)

lemma voxelKey_of_nonneg {voxelSize x : ℚ} (h : 0 ≤ x / voxelSize) :
    voxelKey voxelSize x = ⌊x / voxelSize⌋ := by
  simp only [voxelKey, truncInt, if_neg (not_lt.mpr h), if_pos h]

lemma voxelKey_of_neg {voxelSize x : ℚ} (h : x / voxelSize < 0) :
    voxelKey voxelSize x = ⌈x / voxelSize⌉ - 1 := by
  have hneg : ¬0 ≤ x / voxelSize - 1 := by linarith
  simp only [voxelKey, truncInt, if_pos h, if_neg hneg, Int.ceil_sub_one]

/-- A coordinate lies between the walls of its key's voxel. -/
lemma voxelKey_bounds {voxelSize : ℚ} (hpos : 0 < voxelSize) (x : ℚ) :
    voxelKey voxelSize x * voxelSize ≤ x ∧ x ≤ (voxelKey voxelSize x + 1) * voxelSize := by
  rw [← le_div_iff₀ hpos, ← div_le_iff₀ hpos]
  rcases lt_or_ge (x / voxelSize) 0 with hneg | hnonneg
  · rw [voxelKey_of_neg hneg]
    push_cast
    constructor
    · linarith [Int.ceil_lt_add_one (x / voxelSize)]
    · linarith [Int.le_ceil (x / voxelSize)]
  · rw [voxelKey_of_nonneg hnonneg]
    exact ⟨Int.floor_le _, (Int.lt_floor_add_one _).le⟩

/-- A world point lies in the cube of its key. -/
theorem mem_grid_voxelLocation {voxelSize : ℚ} (hpos : 0 < voxelSize) (pw : V3D) :
    (Cell.grid voxelSize (voxelLocation voxelSize pw)).Mem pw :=
  Cell.mem_grid.mpr fun j => voxelKey_bounds hpos (pw j)

/-! ## The manager -/

/-- `VoxelMapConfig`, as far as the map uses it. -/
structure VoxelMapConfig where
  maxVoxelSize : ℚ := 1 / 2
  maxVoxelSize_pos : 0 < maxVoxelSize := by norm_num
  maxLayer : ℤ := 1
  layerInitNum : InitNums := { nums := [5, 5, 5, 5, 5] }
  maxPointsNum : ℤ := 50
  slidingThresh : ℚ := 8
  halfMapSize : ℤ := 100

lemma VoxelMapConfig.half_pos : (0 : ℚ) < 1 / 2 := by norm_num

/-- A new root voxel. -/
def VoxelMapConfig.newRoot (cfg : VoxelMapConfig) (position : VoxelLocation) : OctoNode where
  maxLayer := cfg.maxLayer
  layer := 0
  pointsSizeThreshold := cfg.layerInitNum.read 0
  maxPointsNum := cfg.maxPointsNum
  layerInitNum := cfg.layerInitNum
  quaterLength := cfg.maxVoxelSize / 4
  voxelCenter := fun j => (1 / 2 + position j) * cfg.maxVoxelSize

/-- The object stored under a key, or a new one. -/
def VoxelMapConfig.rootOrNew (cfg : VoxelMapConfig) (position : VoxelLocation) :
    VoxelOctoTree → VoxelOctoTree
  | .nullptr => .node (cfg.newRoot position) fun _ => .nullptr
  | t => t

/-- `VoxelMapManager`: the map, and the place where it was last slid to. -/
structure VoxelMapManager where
  voxelMap : VoxelLocation → VoxelOctoTree := fun _ => .nullptr
  lastSlidePosition : V3D := 0

namespace VoxelMapManager

/-- `voxel_map_[position] = t`. -/
def setRoot (m : VoxelMapManager) (position : VoxelLocation) (t : VoxelOctoTree) :
    VoxelMapManager :=
  { m with voxelMap := fun k => if k = position then t else m.voxelMap k }

/-- One round of the first loop of `BuildVoxelMap`. -/
def pushRoot (cfg : VoxelMapConfig) (m : VoxelMapManager) (pv : PointWithVar) : VoxelMapManager :=
  let position := voxelLocation cfg.maxVoxelSize pv.pointW
  m.setRoot position (VoxelOctoTree.pushPoint pv (cfg.rootOrNew position (m.voxelMap position)))

/-- `VoxelMapManager::BuildVoxelMap`, from its points on. -/
def buildVoxelMap (cfg : VoxelMapConfig) (fit : PlaneFit) (inputPoints : List PointWithVar)
    (m : VoxelMapManager) : VoxelMapManager :=
  let m := inputPoints.foldl (pushRoot cfg) m
  { m with voxelMap := fun position => VoxelOctoTree.initOctoTree fit (m.voxelMap position) }

/-- One round of the loop of `UpdateVoxelMap`, with the fit made along the way. -/
def updateRoot (cfg : VoxelMapConfig) (m : VoxelMapManager) (p : PointWithVar × PlaneFit) :
    VoxelMapManager :=
  let position := voxelLocation cfg.maxVoxelSize p.1.pointW
  m.setRoot position
    (VoxelOctoTree.updateOctoTree p.2 p.1 (cfg.rootOrNew position (m.voxelMap position)))

/-- `VoxelMapManager::UpdateVoxelMap`. -/
def updateVoxelMap (cfg : VoxelMapConfig) (inputPoints : List (PointWithVar × PlaneFit))
    (m : VoxelMapManager) : VoxelMapManager :=
  inputPoints.foldl (updateRoot cfg) m

/-! ## Sliding -/

/-- `int64_t` to `int`, as the arguments of `clearMemOutOfMap` are passed. -/
def narrowInt (n : ℤ) : ℤ := n.bmod 4294967296

/-- `should_remove`. -/
def shouldRemove (max min position : VoxelLocation) : Prop :=
  ∃ j, max j < position j ∨ position j < min j

instance (max min position : VoxelLocation) : Decidable (shouldRemove max min position) :=
  inferInstanceAs (Decidable (∃ j, max j < position j ∨ position j < min j))

/-- `VoxelMapManager::clearMemOutOfMap`. -/
def clearMemOutOfMap (max min : VoxelLocation) (m : VoxelMapManager) : VoxelMapManager :=
  { m with voxelMap := fun position =>
      if shouldRemove max min position then .nullptr else m.voxelMap position }

/-- `v.norm() < thresh`. -/
def normLt (v : V3D) (thresh : ℚ) : Prop := 0 < thresh ∧ v ⬝ᵥ v < thresh * thresh

instance (v : V3D) (thresh : ℚ) : Decidable (normLt v thresh) :=
  inferInstanceAs (Decidable (0 < thresh ∧ v ⬝ᵥ v < thresh * thresh))

/-- `VoxelMapManager::mapSliding`. -/
def mapSliding (cfg : VoxelMapConfig) (positionLast : V3D) (m : VoxelMapManager) :
    VoxelMapManager :=
  if normLt (positionLast - m.lastSlidePosition) cfg.slidingThresh then m
  else
    let loc := voxelLocation cfg.maxVoxelSize positionLast
    { m with lastSlidePosition := positionLast }.clearMemOutOfMap
      (fun j => narrowInt (loc j + cfg.halfMapSize)) (fun j => narrowInt (loc j - cfg.halfMapSize))

end VoxelMapManager

/-! ## Runs -/

/-- A call on the manager. -/
inductive VoxelMapCall
  | build (fit : PlaneFit) (inputPoints : List PointWithVar)
  | update (inputPoints : List (PointWithVar × PlaneFit))
  | slide (positionLast : V3D)

/-- The manager takes a call. -/
def VoxelMapManager.call (cfg : VoxelMapConfig) (m : VoxelMapManager) :
    VoxelMapCall → VoxelMapManager
  | .build fit inputPoints => m.buildVoxelMap cfg fit inputPoints
  | .update inputPoints => m.updateVoxelMap cfg inputPoints
  | .slide positionLast => m.mapSliding cfg positionLast

/-- The manager after a sequence of calls, from an empty map. -/
def VoxelMapManager.after (cfg : VoxelMapConfig) (calls : List VoxelMapCall) : VoxelMapManager :=
  calls.foldl (VoxelMapManager.call cfg) {}

/-! ## The geometry of the map -/

/-- The frame of the root under a key. -/
def VoxelMapConfig.rootFrame (cfg : VoxelMapConfig) (position : VoxelLocation) : OctoFrame where
  cell := Cell.grid cfg.maxVoxelSize position
  layer := 0
  maxLayer := cfg.maxLayer
  layerInitNum := cfg.layerInitNum
  pointsSizeThreshold := cfg.layerInitNum.read 0
  updateSizeThreshold := 5
  maxPointsNum := cfg.maxPointsNum

namespace VoxelOctoTree

/-- Below the root the threshold of a node is the entry of its layer. -/
def ThresholdsRead (nums : List ℤ) (t : VoxelOctoTree) : Prop :=
  t.Everywhere fun _ leaves => ∀ i b kids, leaves i = .node b kids →
    nums[b.layer.toNat]? = some b.pointsSizeThreshold

/-- With more entries than the last layer no child reads past them. -/
lemma GeoAt.thresholdsRead {f : OctoFrame} {t : VoxelOctoTree} (h : GeoAt f t)
    (hlayer : 0 ≤ f.layer) (hnums : f.maxLayer < f.layerInitNum.nums.length) :
    t.ThresholdsRead f.layerInitNum.nums := by
  induction t generalizing f with
  | nullptr => trivial
  | node d leaves ih =>
      obtain ⟨-, -, hleaves⟩ := geoAt_node.mp h
      refine ⟨fun i b kids hi => ?_, fun i => ?_⟩
      · rcases hleaves i with hnull | ⟨hlt, hgeo⟩
        · rw [hnull] at hi
          cases hi
        · rw [hi] at hgeo
          have hframe : b.frame = f.child i := hgeo.1
          have hl : b.layer = f.layer + 1 := congrArg OctoFrame.layer hframe
          have hthr : b.pointsSizeThreshold = f.layerInitNum.read (f.layer + 1).toNat :=
            congrArg OctoFrame.pointsSizeThreshold hframe
          have hin : (f.layer + 1).toNat < f.layerInitNum.nums.length := by omega
          rw [hthr, hl, InitNums.read, List.getD_eq_getElem _ _ hin, List.getElem?_eq_getElem hin]
      · rcases hleaves i with hnull | ⟨-, hgeo⟩
        · rw [hnull]
          trivial
        · have hchild : 0 ≤ (f.child i).layer := Int.add_nonneg hlayer Int.one_nonneg
          show ThresholdsRead (f.child i).layerInitNum.nums (leaves i)
          exact ih i hgeo hchild hnums

end VoxelOctoTree

namespace VoxelMapManager

open VoxelOctoTree

/-- Every root has the cube of its key and layer zero, and below it every node is in place. -/
def MapGeometry (cfg : VoxelMapConfig) (m : VoxelMapManager) : Prop :=
  ∀ position, m.voxelMap position = .nullptr ∨
    GeoAt (cfg.rootFrame position) (m.voxelMap position)

lemma geoAt_rootOrNew {cfg : VoxelMapConfig} {position : VoxelLocation} {t : VoxelOctoTree}
    (h : t = .nullptr ∨ GeoAt (cfg.rootFrame position) t) :
    GeoAt (cfg.rootFrame position) (cfg.rootOrNew position t) := by
  rcases h with rfl | h
  · exact geoAt_node.mpr ⟨rfl, by simp [VoxelMapConfig.newRoot], leavesGeo_null _⟩
  · cases t with
    | nullptr => exact absurd h not_geoAt_nullptr
    | node d leaves => exact h

/-- Writing one root keeps the geometry of the map when that root has it. -/
lemma MapGeometry.set {cfg : VoxelMapConfig} {m : VoxelMapManager} {position : VoxelLocation}
    {t : VoxelOctoTree} (h : m.MapGeometry cfg) (ht : GeoAt (cfg.rootFrame position) t) :
    (m.setRoot position t).MapGeometry cfg := by
  intro k
  simp only [setRoot]
  split_ifs with heq
  · exact .inr (heq ▸ ht)
  · exact h k

lemma MapGeometry.pushRoot {cfg : VoxelMapConfig} {m : VoxelMapManager} (h : m.MapGeometry cfg)
    (pv : PointWithVar) : (m.pushRoot cfg pv).MapGeometry cfg :=
  h.set ((geoAt_rootOrNew (h _)).pushPoint (mem_grid_voxelLocation cfg.maxVoxelSize_pos _))

lemma MapGeometry.updateRoot {cfg : VoxelMapConfig} {m : VoxelMapManager} (h : m.MapGeometry cfg)
    (p : PointWithVar × PlaneFit) : (m.updateRoot cfg p).MapGeometry cfg :=
  h.set ((geoAt_rootOrNew (h _)).updateOctoTree (mem_grid_voxelLocation cfg.maxVoxelSize_pos _))

lemma MapGeometry.buildVoxelMap {cfg : VoxelMapConfig} {m : VoxelMapManager}
    (h : m.MapGeometry cfg) (fit : PlaneFit) (inputPoints : List PointWithVar) :
    (m.buildVoxelMap cfg fit inputPoints).MapGeometry cfg := by
  have hpushed : (inputPoints.foldl (VoxelMapManager.pushRoot cfg) m).MapGeometry cfg := by
    induction inputPoints generalizing m with
    | nil => exact h
    | cons pv pts ih => exact ih (h.pushRoot pv)
  intro position
  rcases hpushed position with hnull | hgeo
  · refine .inl ?_
    simp only [VoxelMapManager.buildVoxelMap, hnull]
    rfl
  · exact .inr hgeo.initOctoTree

lemma MapGeometry.updateVoxelMap {cfg : VoxelMapConfig} {m : VoxelMapManager}
    (h : m.MapGeometry cfg) (inputPoints : List (PointWithVar × PlaneFit)) :
    (m.updateVoxelMap cfg inputPoints).MapGeometry cfg := by
  unfold VoxelMapManager.updateVoxelMap
  induction inputPoints generalizing m with
  | nil => exact h
  | cons p pts ih => exact ih (h.updateRoot p)

/-- A slide removes a root or keeps it. -/
lemma mapSliding_root (cfg : VoxelMapConfig) (m : VoxelMapManager) (positionLast : V3D)
    (position : VoxelLocation) :
    (m.mapSliding cfg positionLast).voxelMap position = .nullptr ∨
      (m.mapSliding cfg positionLast).voxelMap position = m.voxelMap position := by
  unfold mapSliding
  split_ifs
  · exact .inr rfl
  · simp only [clearMemOutOfMap]
    split_ifs
    · exact .inl rfl
    · exact .inr rfl

lemma MapGeometry.mapSliding {cfg : VoxelMapConfig} {m : VoxelMapManager} (h : m.MapGeometry cfg)
    (positionLast : V3D) : (m.mapSliding cfg positionLast).MapGeometry cfg := by
  intro position
  obtain hnull | hkept := mapSliding_root cfg m positionLast position
  · exact .inl (by rw [hnull])
  · rw [hkept]
    exact h position

/-- **The geometry holds after any sequence of calls.** -/
theorem mapGeometry_after (cfg : VoxelMapConfig) (calls : List VoxelMapCall) :
    (after cfg calls).MapGeometry cfg := by
  have hrun : ∀ m : VoxelMapManager, m.MapGeometry cfg →
      (calls.foldl (VoxelMapManager.call cfg) m).MapGeometry cfg := by
    induction calls with
    | nil => exact fun _ h => h
    | cons c calls ih =>
        intro m h
        refine ih _ ?_
        cases c with
        | build fit inputPoints => exact h.buildVoxelMap fit inputPoints
        | update inputPoints => exact h.updateVoxelMap inputPoints
        | slide positionLast => exact h.mapSliding positionLast
  exact hrun {} fun _ => .inl rfl

/-- The root under a key has the key's cube and layer zero. -/
lemma geoAt_after {cfg : VoxelMapConfig} {calls : List VoxelMapCall} {position : VoxelLocation}
    {d : OctoNode} {leaves : Leaves}
    (hroot : (after cfg calls).voxelMap position = .node d leaves) :
    GeoAt (cfg.rootFrame position) (.node d leaves) := by
  rcases mapGeometry_after cfg calls position with hnull | hgeo
  · rw [hroot] at hnull
    cases hnull
  · rwa [hroot] at hgeo

lemma root_geometry {cfg : VoxelMapConfig} {position : VoxelLocation} {d : OctoNode}
    {leaves : Leaves} (h : GeoAt (cfg.rootFrame position) (.node d leaves)) :
    d.layer = 0 ∧ d.maxLayer = cfg.maxLayer ∧ d.quaterLength = cfg.maxVoxelSize / 4 ∧
      ∀ j, d.voxelCenter j = (1 / 2 + position j) * cfg.maxVoxelSize := by
  have hframe : d.frame = cfg.rootFrame position := h.1
  have hcell : d.cell = Cell.grid cfg.maxVoxelSize position := congrArg OctoFrame.cell hframe
  exact ⟨congrArg OctoFrame.layer hframe, congrArg OctoFrame.maxLayer hframe,
    congrArg Cell.quarter hcell, congrFun (congrArg Cell.centre hcell)⟩

/-! ## What a slide removes -/

lemma narrowInt_of_fits {n : ℤ} (hlo : -2147483648 ≤ n) (hhi : n < 2147483648) :
    narrowInt n = n := by
  unfold narrowInt
  exact Int.bmod_eq_of_le (by omega) (by omega)

/-- The box around a position: every key at most `half_map_size` away along each axis. -/
def InBox (cfg : VoxelMapConfig) (positionLast : V3D) (position : VoxelLocation) : Prop :=
  ∀ j, |position j - voxelLocation cfg.maxVoxelSize positionLast j| ≤ cfg.halfMapSize

instance (cfg : VoxelMapConfig) (positionLast : V3D) (position : VoxelLocation) :
    Decidable (InBox cfg positionLast position) :=
  inferInstanceAs (Decidable
    (∀ j, |position j - voxelLocation cfg.maxVoxelSize positionLast j| ≤ cfg.halfMapSize))

/-- The bounds of the box fit the `int` they are passed as. -/
def BoxFits (cfg : VoxelMapConfig) (positionLast : V3D) : Prop :=
  ∀ j, let loc := voxelLocation cfg.maxVoxelSize positionLast j
    (-2147483648 ≤ loc + cfg.halfMapSize ∧ loc + cfg.halfMapSize < 2147483648) ∧
      -2147483648 ≤ loc - cfg.halfMapSize ∧ loc - cfg.halfMapSize < 2147483648

/-- A slide below the threshold changes nothing. -/
lemma mapSliding_short {cfg : VoxelMapConfig} {m : VoxelMapManager} {positionLast : V3D}
    (h : normLt (positionLast - m.lastSlidePosition) cfg.slidingThresh) :
    m.mapSliding cfg positionLast = m := by
  unfold mapSliding
  rw [if_pos h]

/-- A slide past the threshold removes the roots outside the box. -/
lemma mapSliding_voxelMap {cfg : VoxelMapConfig} {m : VoxelMapManager} {positionLast : V3D}
    (h : ¬normLt (positionLast - m.lastSlidePosition) cfg.slidingThresh)
    (hfits : BoxFits cfg positionLast) (position : VoxelLocation) :
    (m.mapSliding cfg positionLast).voxelMap position =
      if InBox cfg positionLast position then m.voxelMap position else .nullptr := by
  have hremove : shouldRemove
      (fun j => narrowInt (voxelLocation cfg.maxVoxelSize positionLast j + cfg.halfMapSize))
      (fun j => narrowInt (voxelLocation cfg.maxVoxelSize positionLast j - cfg.halfMapSize))
      position ↔ ¬InBox cfg positionLast position := by
    simp only [shouldRemove, InBox, not_forall, abs_le]
    refine exists_congr fun j => ?_
    obtain ⟨⟨hmaxlo, hmaxhi⟩, hminlo, hminhi⟩ := hfits j
    rw [narrowInt_of_fits hmaxlo hmaxhi, narrowInt_of_fits hminlo hminhi]
    omega
  unfold mapSliding
  rw [if_neg h]
  simp only [clearMemOutOfMap]
  by_cases hbox : InBox cfg positionLast position
  · rw [if_pos hbox, if_neg (fun hr => hremove.mp hr hbox)]
  · rw [if_neg hbox, if_pos (hremove.mpr hbox)]

/-- **The octrees of the map and its window.**  After any calls, with a threshold for every layer,
the root under a key has the key's cube and layer zero, every child the next layer, its threshold
and the cube of its octant, and every point stored lies in its node's cube.  A slide past the
threshold removes exactly the roots outside the box around the new position; a shorter one removes
none. -/
theorem voxelMap_geometry (cfg : VoxelMapConfig)
    (hnums : cfg.maxLayer < cfg.layerInitNum.nums.length) (calls : List VoxelMapCall) :
    (∀ position d leaves, (after cfg calls).voxelMap position = .node d leaves →
      (d.layer = 0 ∧ d.maxLayer = cfg.maxLayer ∧ d.quaterLength = cfg.maxVoxelSize / 4 ∧
        ∀ j, d.voxelCenter j = (1 / 2 + position j) * cfg.maxVoxelSize) ∧
      Geometric (.node d leaves) ∧ ThresholdsRead cfg.layerInitNum.nums (.node d leaves)) ∧
    ∀ positionLast,
      (normLt (positionLast - (after cfg calls).lastSlidePosition) cfg.slidingThresh →
        (after cfg calls).mapSliding cfg positionLast = after cfg calls) ∧
      (¬normLt (positionLast - (after cfg calls).lastSlidePosition) cfg.slidingThresh →
        BoxFits cfg positionLast → ∀ position,
          ((after cfg calls).mapSliding cfg positionLast).voxelMap position =
            if InBox cfg positionLast position then (after cfg calls).voxelMap position
            else .nullptr) := by
  refine ⟨fun position d leaves hroot => ?_, fun positionLast =>
    ⟨mapSliding_short, fun hfar hfits => mapSliding_voxelMap hfar hfits⟩⟩
  have hgeo := geoAt_after hroot
  exact ⟨root_geometry hgeo, hgeo.2, hgeo.thresholdsRead le_rfl hnums⟩

/-- A small window, to see roots leave it. -/
def smallWindow : VoxelMapConfig := { halfMapSize := 1 }

/-- One point ten metres away, in the voxel `(20, 0, 0)`. -/
def farPoint : VoxelMapCall := .update [({ pointW := ![10, 0, 0] }, fun _ => {})]

/-- The root of the far point stays where the vehicle has not moved, and goes once it has. -/
theorem voxelMap_geometry_farPoint :
    let m := after smallWindow [farPoint]
    (m.voxelMap ![20, 0, 0]).isNull = false ∧
      (m.mapSliding smallWindow ![100, 0, 0]).voxelMap ![20, 0, 0] = .nullptr := by
  refine ⟨by decide +kernel, ?_⟩
  have hslide := ((voxelMap_geometry smallWindow (by decide) [farPoint]).2 ![100, 0, 0]).2
    (by decide +kernel) (by unfold BoxFits; decide +kernel) ![20, 0, 0]
  rw [hslide, if_neg (by decide +kernel)]

/-- A call of `mapSliding` can leave a root that lies outside the box. -/
theorem root_outside_box_kept :
    let m := after smallWindow [farPoint]
    ¬InBox smallWindow 0 ![20, 0, 0] ∧
      ((m.mapSliding smallWindow 0).voxelMap ![20, 0, 0]).isNull = false := by
  decide +kernel

end VoxelMapManager

end FastLivo2
