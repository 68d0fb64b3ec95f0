import FastLivo2.Common
import FastLivo2.Lib.PTree
import FastLivo2.Lib.Cell

/-!
# The octree of a voxel

`VoxelOctoTree` of `voxel_map.cpp`: the octree kept under each root voxel of the LiDAR map, with
`init_octo_tree`, `cut_octo_tree`, `UpdateOctoTree` and `find_correspond`.

Whether the points of a node form a plane is decided in `init_plane` by an eigenvalue routine of
the linear algebra library, so the plane it leaves behind is a parameter: a `PlaneFit`, one for
each call into the tree, reads the whole node and gives its new plane.  Every verdict at every
node of every call is covered that way.

`cut_octo_tree` inlines the body of `init_octo_tree` for each of its leaves, which in turn cuts
the leaf.  Here that body is `settle`, with the cut to be used as an argument, and the recursion
is on the number of layers left.  `OctoNode` leaves out `planer_threshold_`, which only
`init_plane` reads.
-/

namespace FastLivo2

/-- `pointWithVar`, as far as the voxel map and the residuals use it; its numbers are the rationals
unless a statement says otherwise. -/
structure PointWithVar (K : Type := ℚ) [Zero K] where
  pointB : Fin 3 → K := 0
  pointW : Fin 3 → K := 0
  bodyVar : Matrix (Fin 3) (Fin 3) K := 0
  var : Matrix (Fin 3) (Fin 3) K := 0
  normal : Fin 3 → K := 0
  deriving DecidableEq

/-- `VoxelPlane`, as far as the matching code reads it. -/
structure VoxelPlane (K : Type := ℚ) [Zero K] where
  center : Fin 3 → K := 0
  normal : Fin 3 → K := 0
  planeVar : Matrix (Fin 6) (Fin 6) K := 0
  radius : K := 0
  d : K := 0
  isPlane : Bool := false

/-- `layer_init_num_`.  What `operator[]` finds behind the last entry is not the program's to
say. -/
structure InitNums where
  nums : List ℤ
  behind : ℕ → ℤ := fun _ => 0

/-- `layer_init_num_[l]`. -/
def InitNums.read (n : InitNums) (l : ℕ) : ℤ := n.nums.getD l (n.behind l)

/-- The members of a `VoxelOctoTree` object besides its eight pointers. -/
structure OctoNode where
  tempPoints : List PointWithVar := []
  plane : VoxelPlane := {}
  layer : ℤ
  octoState : ℕ := 0
  voxelCenter : V3D
  layerInitNum : InitNums
  quaterLength : ℚ
  pointsSizeThreshold : ℤ
  updateSizeThreshold : ℤ := 5
  maxPointsNum : ℤ
  maxLayer : ℤ
  newPoints : ℤ := 0
  initOcto : Bool := false
  updateEnable : Bool := true

/-- `VoxelOctoTree *`. -/
abbrev VoxelOctoTree := PTree (Fin 8) OctoNode

/-- `leaves_`. -/
abbrev Leaves := Fin 8 → VoxelOctoTree

/-- What `init_plane` makes of a node's plane. -/
abbrev PlaneFit := OctoNode → VoxelPlane

/-! ## Octants -/

/-- `leafnum`. -/
def leafnum (xyz : Fin 3 → Bool) : Fin 8 :=
  ⟨4 * (xyz 0).toNat + 2 * (xyz 1).toNat + (xyz 2).toNat, by
    have h := fun j => Bool.toNat_lt (xyz j)
    have h0 := h 0
    have h1 := h 1
    have h2 := h 2
    omega⟩

/-- The bits of a leaf number. -/
def leafXyz (i : Fin 8) : Fin 3 → Bool :=
  ![i.val.testBit 2, i.val.testBit 1, i.val.testBit 0]

lemma leafXyz_leafnum (xyz : Fin 3 → Bool) : leafXyz (leafnum xyz) = xyz := by
  revert xyz
  decide

/-- `size() > n` between a `size_t` and an `int`: a negative `int` turns into a huge number. -/
def sizeGt (size : ℕ) (n : ℤ) : Bool := decide (0 ≤ n ∧ n < size)

/-- `size() >= n` between a `size_t` and an `int`. -/
def sizeGe (size : ℕ) (n : ℤ) : Bool := decide (0 ≤ n ∧ n ≤ size)

namespace OctoNode

/-- The cube of the node: `voxel_center_` plus or minus twice `quater_length_`. -/
def cell (d : OctoNode) : Cell (Fin 3) ℚ := ⟨d.voxelCenter, d.quaterLength⟩

/-- `xyz`: on which side of the centre the point lies. -/
def octant (d : OctoNode) (pw : V3D) : Fin 3 → Bool := fun j => decide (d.voxelCenter j < pw j)

/-- The leaf number of a point. -/
def leafOf (d : OctoNode) (pw : V3D) : Fin 8 := leafnum (d.octant pw)

/-- A new leaf, as the three places that allocate one set it up. -/
def newLeaf (d : OctoNode) (xyz : Fin 3 → Bool) : OctoNode where
  maxLayer := d.maxLayer
  layer := d.layer + 1
  pointsSizeThreshold := d.layerInitNum.read (d.layer + 1).toNat
  maxPointsNum := d.maxPointsNum
  layerInitNum := d.layerInitNum
  voxelCenter := fun j => d.voxelCenter j + (2 * (if xyz j then 1 else 0) - 1) * d.quaterLength
  quaterLength := d.quaterLength / 2

/-- `temp_points_.push_back(pv)` and `new_points_++`. -/
def push (d : OctoNode) (pv : PointWithVar) : OctoNode :=
  { d with tempPoints := d.tempPoints ++ [pv], newPoints := d.newPoints + 1 }

/-- `init_plane(temp_points_, plane_ptr_)`. -/
def initPlane (d : OctoNode) (fit : PlaneFit) : OctoNode := { d with plane := fit d }

/-- The node stops taking points and drops those it has. -/
def freeze (d : OctoNode) : OctoNode :=
  { d with updateEnable := false, tempPoints := [], newPoints := 0 }

/-- The end of an initialisation. -/
def initialised (d : OctoNode) : OctoNode := { d with initOcto := true, newPoints := 0 }

/-- The re-fit of an update: after more than `update_size_threshold_` new points. -/
def refit (d : OctoNode) (fit : PlaneFit) : OctoNode :=
  if d.updateSizeThreshold < d.newPoints then { d.initPlane fit with newPoints := 0 } else d

/-- The re-fit of a node that is a plane, and the freeze after it. -/
def updatePlane (d : OctoNode) (fit : PlaneFit) (pv : PointWithVar) : OctoNode :=
  let d := (d.push pv).refit fit
  if sizeGe d.tempPoints.length d.maxPointsNum then d.freeze else d

/-- The re-fit of a node of the last layer that is no plane, and the freeze after it. -/
def updateLast (d : OctoNode) (fit : PlaneFit) (pv : PointWithVar) : OctoNode :=
  let d := (d.push pv).refit fit
  if sizeGt d.tempPoints.length d.maxPointsNum then d.freeze else d

/-- A leaf frozen in the loop of `cut_octo_tree` resets the counter of the node being cut, not its
own. -/
def afterCut (d : OctoNode) (frozen : Bool) : OctoNode :=
  if frozen then { d with newPoints := 0 } else d

/-- The layers below the node. -/
def layersLeft (d : OctoNode) : ℕ := (d.maxLayer - d.layer).toNat

end OctoNode

namespace VoxelOctoTree

/-- The object under a slot: the one there, or a new leaf. -/
def orNew (d : OctoNode) (xyz : Fin 3 → Bool) : VoxelOctoTree → VoxelOctoTree
  | .nullptr => .node (d.newLeaf xyz) fun _ => .nullptr
  | t => t

/-- `temp_points_.push_back(pv)` and `new_points_++` through a pointer. -/
def pushPoint (pv : PointWithVar) : VoxelOctoTree → VoxelOctoTree
  | .nullptr => .nullptr
  | .node d leaves => .node (d.push pv) leaves

/-! ## Initialisation -/

/-- The body of `init_octo_tree`, which `cut_octo_tree` repeats for each leaf: enough points are
fitted, and what is no plane is cut. -/
def settle (cut : OctoNode → Leaves → VoxelOctoTree) (fit : PlaneFit) :
    VoxelOctoTree → VoxelOctoTree
  | .nullptr => .nullptr
  | .node d leaves =>
      if sizeGt d.tempPoints.length d.pointsSizeThreshold then
        let d := d.initPlane fit
        if d.plane.isPlane then
          let d := { d with octoState := 0 }
          let d := if sizeGt d.tempPoints.length d.maxPointsNum then d.freeze else d
          .node d.initialised leaves
        else
          match cut { d with octoState := 1 } leaves with
          | .nullptr => .nullptr
          | .node d leaves => .node d.initialised leaves
      else .node d leaves

/-- The leaf becomes a plane in this cut and is frozen at once. -/
def freezesLeaf (fit : PlaneFit) : VoxelOctoTree → Bool
  | .nullptr => false
  | .node d _ =>
      sizeGt d.tempPoints.length d.pointsSizeThreshold && (fit d).isPlane &&
        sizeGt d.tempPoints.length d.maxPointsNum

/-- One round of the first loop of `cut_octo_tree`: the point goes to its leaf. -/
def pushLeaf (d : OctoNode) (leaves : Leaves) (pv : PointWithVar) : Leaves :=
  let i := d.leafOf pv.pointW
  Function.update leaves i (pushPoint pv (orNew d (d.octant pv.pointW) (leaves i)))

/-- The first loop of `cut_octo_tree`. -/
def distribute (d : OctoNode) (leaves : Leaves) : Leaves := d.tempPoints.foldl (pushLeaf d) leaves

/-- `VoxelOctoTree::cut_octo_tree`, for at most `fuel` layers. -/
def cutOctoTree (fit : PlaneFit) : ℕ → OctoNode → Leaves → VoxelOctoTree
  | fuel, d, leaves =>
      if d.maxLayer ≤ d.layer then .node { d with octoState := 0 } leaves
      else match fuel with
        | 0 => .node d leaves
        | fuel + 1 =>
            let leaves := distribute d leaves
            let frozen := (List.finRange 8).any fun i => freezesLeaf fit (leaves i)
            .node (d.afterCut frozen) fun i => settle (cutOctoTree fit fuel) fit (leaves i)

/-- The cut of a node: as many layers as it has below it. -/
def cutBelow (fit : PlaneFit) (d : OctoNode) (leaves : Leaves) : VoxelOctoTree :=
  cutOctoTree fit d.layersLeft d leaves

/-- `VoxelOctoTree::init_octo_tree`. -/
def initOctoTree (fit : PlaneFit) (t : VoxelOctoTree) : VoxelOctoTree :=
  settle (cutBelow fit) fit t

/-! ## Update and lookup -/

/-- `UpdateOctoTree` on a node that is not initialised. -/
def updateUninit (fit : PlaneFit) (pv : PointWithVar) (d : OctoNode) (leaves : Leaves) :
    VoxelOctoTree :=
  let d := d.push pv
  if sizeGt d.tempPoints.length d.pointsSizeThreshold then initOctoTree fit (.node d leaves)
  else .node d leaves

/-- `VoxelOctoTree::UpdateOctoTree`.  A leaf allocated on the way is not initialised, so its own
update is `updateUninit`. -/
def updateOctoTree (fit : PlaneFit) (pv : PointWithVar) : VoxelOctoTree → VoxelOctoTree
  | .nullptr => .nullptr
  | .node d leaves =>
      if d.initOcto = false then updateUninit fit pv d leaves
      else if d.plane.isPlane then
        .node (if d.updateEnable then d.updatePlane fit pv else d) leaves
      else if d.layer < d.maxLayer then
        let i := d.leafOf pv.pointW
        .node d (Function.update leaves i
          (if (leaves i).isNull then
            updateUninit fit pv (d.newLeaf (d.octant pv.pointW)) fun _ => .nullptr
          else updateOctoTree fit pv (leaves i)))
      else .node (if d.updateEnable then d.updateLast fit pv else d) leaves

/-- `VoxelOctoTree::find_correspond`: the node returned, with what is below it. -/
def findCorrespond (pw : V3D) : VoxelOctoTree → VoxelOctoTree
  | .nullptr => .nullptr
  | .node d leaves =>
      if d.initOcto = false ∨ d.plane.isPlane = true ∨ d.maxLayer ≤ d.layer then .node d leaves
      else if (leaves (d.leafOf pw)).isNull then .node d leaves
      else findCorrespond pw (leaves (d.leafOf pw))

end VoxelOctoTree

/-! ## The four kinds of node -/

namespace OctoNode

/-- The node has been fitted and is a plane. -/
def IsPlaneNode (d : OctoNode) : Prop := d.initOcto = true ∧ d.plane.isPlane = true

/-- The node has been fitted, is no plane, and may have leaves. -/
def IsBranch (d : OctoNode) : Prop :=
  d.initOcto = true ∧ d.plane.isPlane = false ∧ d.layer < d.maxLayer

/-- The node has been fitted, is no plane, and lies in the last layer. -/
def IsLast (d : OctoNode) : Prop :=
  d.initOcto = true ∧ d.plane.isPlane = false ∧ d.maxLayer ≤ d.layer

lemma kind_cases (d : OctoNode) :
    d.initOcto = false ∨ d.IsPlaneNode ∨ d.IsBranch ∨ d.IsLast := by
  unfold IsPlaneNode IsBranch IsLast
  cases d.initOcto <;> cases d.plane.isPlane <;> simp [lt_or_ge]

end OctoNode

namespace VoxelOctoTree

variable {fit : PlaneFit} {pv : PointWithVar} {pw : V3D} {d : OctoNode} {leaves : Leaves}

lemma cutOctoTree_last {fuel : ℕ} (h : d.maxLayer ≤ d.layer) :
    cutOctoTree fit fuel d leaves = .node { d with octoState := 0 } leaves := by
  unfold cutOctoTree
  rw [if_pos h]

lemma cutOctoTree_succ (fit : PlaneFit) (fuel : ℕ) (leaves : Leaves) (h : d.layer < d.maxLayer) :
    ∃ frozen, cutOctoTree fit (fuel + 1) d leaves = .node (d.afterCut frozen)
      fun i => settle (cutOctoTree fit fuel) fit (distribute d leaves i) := by
  conv in cutOctoTree fit (fuel + 1) d leaves => unfold cutOctoTree
  rw [if_neg (not_le.mpr h)]
  exact ⟨_, rfl⟩

lemma updateOctoTree_uninit (h : d.initOcto = false) :
    updateOctoTree fit pv (.node d leaves) = updateUninit fit pv d leaves := by
  unfold updateOctoTree
  rw [if_pos h]

lemma updateOctoTree_plane (h : d.IsPlaneNode) :
    updateOctoTree fit pv (.node d leaves) =
      .node (if d.updateEnable then d.updatePlane fit pv else d) leaves := by
  unfold updateOctoTree
  rw [if_neg (by simp [h.1]), if_pos h.2]

/-- In a branch the update goes to the leaf of the point's octant, a new one if there is none. -/
lemma updateOctoTree_branch (h : d.IsBranch) :
    updateOctoTree fit pv (.node d leaves) =
      .node d (Function.update leaves (d.leafOf pv.pointW)
        (updateOctoTree fit pv (orNew d (d.octant pv.pointW) (leaves (d.leafOf pv.pointW))))) := by
  conv_lhs => unfold updateOctoTree
  rw [if_neg (by simp [h.1]), if_neg (by simp [h.2.1]), if_pos h.2.2]
  dsimp only
  cases hi : leaves (d.leafOf pv.pointW) with
  | nullptr =>
      rw [PTree.isNull_nullptr, if_pos rfl, orNew, updateOctoTree_uninit rfl]
  | node b kids =>
      rw [PTree.isNull_node, if_neg Bool.false_ne_true]
      rfl

lemma updateOctoTree_last (h : d.IsLast) :
    updateOctoTree fit pv (.node d leaves) =
      .node (if d.updateEnable then d.updateLast fit pv else d) leaves := by
  unfold updateOctoTree
  rw [if_neg (by simp [h.1]), if_neg (by simp [h.2.1]), if_neg (not_lt.mpr h.2.2)]

/-- A node that is no branch answers for itself. -/
lemma findCorrespond_self (h : ¬d.IsBranch) :
    findCorrespond pw (.node d leaves) = .node d leaves := by
  unfold findCorrespond
  refine if_pos ?_
  rcases d.kind_cases with hinit | hplane | hbranch | hlast
  · exact .inl hinit
  · exact .inr (.inl hplane.2)
  · exact absurd hbranch h
  · exact .inr (.inr hlast.2.2)

/-- A branch sends the lookup to the leaf of the octant, or answers when there is none. -/
lemma findCorrespond_branch (h : d.IsBranch) :
    findCorrespond pw (.node d leaves) =
      if (leaves (d.leafOf pw)).isNull then .node d leaves
      else findCorrespond pw (leaves (d.leafOf pw)) := by
  conv_lhs => unfold findCorrespond
  refine if_neg ?_
  rintro (hinit | hplane | hlast)
  · exact absurd h.1 (by simp [hinit])
  · exact absurd h.2.1 (by simp [hplane])
  · exact absurd h.2.2 (not_lt.mpr hlast)

end VoxelOctoTree

end FastLivo2
