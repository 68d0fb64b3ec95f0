import FastLivo2.OctoTree

/-!
# The geometry of the octree

What an operation on a node never changes is its `frame`: the cube, the layer and the limits it
was allocated with.  A tree is *geometric* under a frame when its root has the frame, its root's
points lie in the cube, and every child is geometric under the frame of its octant, which exists
only above the last layer.  Every operation keeps that, whatever the plane verdicts: cutting and
descending send a point to the octant its coordinates name, and a point of a cube lies in that
octant.
-/

namespace FastLivo2

/-- What the operations on a node leave as it is. -/
@[ext] structure OctoFrame where
  cell : Cell (Fin 3) ℚ
  layer : ℤ
  maxLayer : ℤ
  layerInitNum : InitNums
  pointsSizeThreshold : ℤ
  updateSizeThreshold : ℤ
  maxPointsNum : ℤ

/-- The frame of a child. -/
def OctoFrame.child (f : OctoFrame) (i : Fin 8) : OctoFrame where
  cell := f.cell.child (leafXyz i)
  layer := f.layer + 1
  maxLayer := f.maxLayer
  layerInitNum := f.layerInitNum
  pointsSizeThreshold := f.layerInitNum.read (f.layer + 1).toNat
  updateSizeThreshold := 5
  maxPointsNum := f.maxPointsNum

namespace OctoNode

/-- The frame of a node. -/
def frame (d : OctoNode) : OctoFrame where
  cell := d.cell
  layer := d.layer
  maxLayer := d.maxLayer
  layerInitNum := d.layerInitNum
  pointsSizeThreshold := d.pointsSizeThreshold
  updateSizeThreshold := d.updateSizeThreshold
  maxPointsNum := d.maxPointsNum

@[simp] lemma push_frame (d : OctoNode) (pv : PointWithVar) : (d.push pv).frame = d.frame := rfl

@[simp] lemma initPlane_frame (d : OctoNode) (fit : PlaneFit) :
    (d.initPlane fit).frame = d.frame := rfl

@[simp] lemma freeze_frame (d : OctoNode) : d.freeze.frame = d.frame := rfl

@[simp] lemma initialised_frame (d : OctoNode) : d.initialised.frame = d.frame := rfl

@[simp] lemma push_tempPoints (d : OctoNode) (pv : PointWithVar) :
    (d.push pv).tempPoints = d.tempPoints ++ [pv] := rfl

@[simp] lemma freeze_tempPoints (d : OctoNode) : d.freeze.tempPoints = [] := rfl

@[simp] lemma initialised_tempPoints (d : OctoNode) :
    d.initialised.tempPoints = d.tempPoints := rfl

@[simp] lemma afterCut_frame (d : OctoNode) (frozen : Bool) :
    (d.afterCut frozen).frame = d.frame := by
  unfold afterCut
  split_ifs <;> rfl

@[simp] lemma afterCut_tempPoints (d : OctoNode) (frozen : Bool) :
    (d.afterCut frozen).tempPoints = d.tempPoints := by
  unfold afterCut
  split_ifs <;> rfl

@[simp] lemma afterCut_plane (d : OctoNode) (frozen : Bool) :
    (d.afterCut frozen).plane = d.plane := by
  unfold afterCut
  split_ifs <;> rfl

@[simp] lemma afterCut_updateEnable (d : OctoNode) (frozen : Bool) :
    (d.afterCut frozen).updateEnable = d.updateEnable := by
  unfold afterCut
  split_ifs <;> rfl

@[simp] lemma refit_frame (d : OctoNode) (fit : PlaneFit) : (d.refit fit).frame = d.frame := by
  unfold refit
  split_ifs <;> rfl

@[simp] lemma refit_tempPoints (d : OctoNode) (fit : PlaneFit) :
    (d.refit fit).tempPoints = d.tempPoints := by
  unfold refit
  split_ifs <;> rfl

@[simp] lemma refit_initOcto (d : OctoNode) (fit : PlaneFit) :
    (d.refit fit).initOcto = d.initOcto := by
  unfold refit
  split_ifs <;> rfl

lemma newLeaf_frame (d : OctoNode) (xyz : Fin 3 → Bool) :
    (d.newLeaf xyz).frame = d.frame.child (leafnum xyz) := by
  rw [OctoFrame.child, leafXyz_leafnum]
  rfl

lemma newLeaf_octant_frame (d : OctoNode) (pw : V3D) :
    (d.newLeaf (d.octant pw)).frame = d.frame.child (d.leafOf pw) :=
  d.newLeaf_frame _

/-- A point of a node's cube lies in the cube of its leaf. -/
lemma mem_leafOf {d : OctoNode} {pw : V3D} (h : d.cell.Mem pw) :
    (d.frame.child (d.leafOf pw)).cell.Mem pw := by
  have hside : leafXyz (d.leafOf pw) = d.cell.side pw := leafXyz_leafnum _
  simp only [OctoFrame.child, hside]
  exact Cell.mem_child h

/-- After its re-fit a node has the points it had, the new one, or none. -/
lemma updatePlane_cases (d : OctoNode) (fit : PlaneFit) (pv : PointWithVar) :
    d.updatePlane fit pv = (d.push pv).refit fit ∨
      d.updatePlane fit pv = ((d.push pv).refit fit).freeze := by
  simp only [updatePlane]
  split_ifs
  · exact .inr rfl
  · exact .inl rfl

lemma updateLast_cases (d : OctoNode) (fit : PlaneFit) (pv : PointWithVar) :
    d.updateLast fit pv = (d.push pv).refit fit ∨
      d.updateLast fit pv = ((d.push pv).refit fit).freeze := by
  simp only [updateLast]
  split_ifs
  · exact .inr rfl
  · exact .inl rfl

@[simp] lemma updatePlane_frame (d : OctoNode) (fit : PlaneFit) (pv : PointWithVar) :
    (d.updatePlane fit pv).frame = d.frame := by
  rcases d.updatePlane_cases fit pv with heq | heq <;> simp [heq]

@[simp] lemma updateLast_frame (d : OctoNode) (fit : PlaneFit) (pv : PointWithVar) :
    (d.updateLast fit pv).frame = d.frame := by
  rcases d.updateLast_cases fit pv with heq | heq <;> simp [heq]

lemma updatePlane_initOcto (d : OctoNode) (fit : PlaneFit) (pv : PointWithVar) :
    (d.updatePlane fit pv).initOcto = d.initOcto := by
  rcases d.updatePlane_cases fit pv with heq | heq <;> simp [heq, freeze, push]

lemma updateLast_initOcto (d : OctoNode) (fit : PlaneFit) (pv : PointWithVar) :
    (d.updateLast fit pv).initOcto = d.initOcto := by
  rcases d.updateLast_cases fit pv with heq | heq <;> simp [heq, freeze, push]

lemma layer_congr {d d' : OctoNode} (h : d'.frame = d.frame) : d'.layer = d.layer :=
  congrArg OctoFrame.layer h

lemma maxLayer_congr {d d' : OctoNode} (h : d'.frame = d.frame) : d'.maxLayer = d.maxLayer :=
  congrArg OctoFrame.maxLayer h

end OctoNode

/-! ## Geometric trees -/

/-- The geometry of one node: its points lie in its cube, and each child has the cube of its
octant and the next layer (its frame says so), which is not past the last. -/
def NodeGeometry (d : OctoNode) (leaves : Leaves) : Prop :=
  (∀ pv ∈ d.tempPoints, d.cell.Mem pv.pointW) ∧
    ∀ i b kids, leaves i = .node b kids → b.frame = d.frame.child i ∧ b.layer ≤ b.maxLayer

namespace VoxelOctoTree

/-- The geometry of every node. -/
def Geometric (t : VoxelOctoTree) : Prop := t.Everywhere NodeGeometry

/-- The root of the tree has the given frame. -/
def Framed (f : OctoFrame) : VoxelOctoTree → Prop
  | .nullptr => False
  | .node d _ => d.frame = f

/-- A geometric tree whose root has the given frame. -/
def GeoAt (f : OctoFrame) (t : VoxelOctoTree) : Prop := t.Framed f ∧ t.Geometric

/-- Each slot of a node of the given frame is empty, or holds the tree of a further layer. -/
def LeavesGeo (f : OctoFrame) (leaves : Leaves) : Prop :=
  ∀ i, leaves i = .nullptr ∨ (f.layer < f.maxLayer ∧ GeoAt (f.child i) (leaves i))

lemma leavesGeo_null (f : OctoFrame) : LeavesGeo f fun _ => .nullptr := fun _ => .inl rfl

lemma not_geoAt_nullptr {f : OctoFrame} : ¬GeoAt f .nullptr := fun h => h.1

lemma geoAt_node {f : OctoFrame} {d : OctoNode} {leaves : Leaves} :
    GeoAt f (.node d leaves) ↔
      d.frame = f ∧ (∀ pv ∈ d.tempPoints, f.cell.Mem pv.pointW) ∧ LeavesGeo f leaves := by
  constructor
  · rintro ⟨rfl, ⟨hpts, hchild⟩, hall⟩
    refine ⟨rfl, hpts, fun i => ?_⟩
    cases hi : leaves i with
    | nullptr => exact .inl rfl
    | node b kids =>
        obtain ⟨hframe, hlayer⟩ := hchild i b kids hi
        have hl : b.layer = d.layer + 1 := congrArg OctoFrame.layer hframe
        have hm : b.maxLayer = d.maxLayer := congrArg OctoFrame.maxLayer hframe
        refine .inr ⟨?_, hframe, ?_⟩
        · change d.layer < d.maxLayer
          omega
        · have := hall i
          rwa [hi] at this
  · rintro ⟨rfl, hpts, hleaves⟩
    refine ⟨rfl, ⟨hpts, fun i b kids hi => ?_⟩, fun i => ?_⟩
    · rcases hleaves i with hnull | ⟨hlt, hframe, -⟩
      · rw [hnull] at hi
        cases hi
      · rw [hi] at hframe
        have hl : b.layer = d.layer + 1 := congrArg OctoFrame.layer hframe
        have hm : b.maxLayer = d.maxLayer := congrArg OctoFrame.maxLayer hframe
        refine ⟨hframe, ?_⟩
        have hlt' : d.layer < d.maxLayer := hlt
        omega
    · rcases hleaves i with hnull | ⟨-, -, hgeo⟩
      · rw [hnull]
        trivial
      · exact hgeo

/-- The node may change in anything but its frame and points. -/
lemma GeoAt.setNode {f : OctoFrame} {d d' : OctoNode} {leaves : Leaves}
    (h : GeoAt f (.node d leaves)) (hframe : d'.frame = d.frame)
    (hpts : d'.tempPoints ⊆ d.tempPoints) : GeoAt f (.node d' leaves) := by
  obtain ⟨hf, hall, hleaves⟩ := geoAt_node.mp h
  exact geoAt_node.mpr ⟨hframe.trans hf, fun pv hpv => hall pv (hpts hpv), hleaves⟩

lemma GeoAt.push {f : OctoFrame} {d : OctoNode} {leaves : Leaves} {pv : PointWithVar}
    (h : GeoAt f (.node d leaves)) (hpv : f.cell.Mem pv.pointW) :
    GeoAt f (.node (d.push pv) leaves) := by
  obtain ⟨hf, hall, hleaves⟩ := geoAt_node.mp h
  refine geoAt_node.mpr ⟨hf, fun q hq => ?_, hleaves⟩
  rcases List.mem_append.mp hq with hq | hq
  · exact hall q hq
  · rwa [List.mem_singleton.mp hq]

lemma GeoAt.pushPoint {f : OctoFrame} {t : VoxelOctoTree} {pv : PointWithVar} (h : GeoAt f t)
    (hpv : f.cell.Mem pv.pointW) : GeoAt f (t.pushPoint pv) := by
  cases t with
  | nullptr => exact h
  | node d leaves => exact h.push hpv

/-- A new leaf has the frame of the point's octant. -/
lemma geoAt_newLeaf (d : OctoNode) (pw : V3D) :
    GeoAt (d.frame.child (d.leafOf pw)) (.node (d.newLeaf (d.octant pw)) fun _ => .nullptr) :=
  geoAt_node.mpr ⟨d.newLeaf_octant_frame pw, by simp [OctoNode.newLeaf], leavesGeo_null _⟩

lemma orNew_of_geoAt {f : OctoFrame} {d : OctoNode} {xyz : Fin 3 → Bool} {t : VoxelOctoTree}
    (h : GeoAt f t) : orNew d xyz t = t := by
  cases t with
  | nullptr => exact absurd h not_geoAt_nullptr
  | node b kids => rfl

/-! ## Distribution and cutting -/

lemma LeavesGeo.pushLeaf {d : OctoNode} {leaves : Leaves} {pv : PointWithVar}
    (h : LeavesGeo d.frame leaves) (hlt : d.layer < d.maxLayer) (hpv : d.cell.Mem pv.pointW) :
    LeavesGeo d.frame (pushLeaf d leaves pv) := by
  intro i
  unfold VoxelOctoTree.pushLeaf
  rcases eq_or_ne i (d.leafOf pv.pointW) with rfl | hne
  · rw [Function.update_self]
    refine .inr ⟨hlt, GeoAt.pushPoint ?_ (OctoNode.mem_leafOf hpv)⟩
    rcases h (d.leafOf pv.pointW) with hnull | ⟨-, hgeo⟩
    · rw [hnull]
      exact geoAt_newLeaf d pv.pointW
    · rwa [orNew_of_geoAt hgeo]
  · rw [Function.update_of_ne hne]
    exact h i

lemma LeavesGeo.distribute {d : OctoNode} {leaves : Leaves} (h : LeavesGeo d.frame leaves)
    (hlt : d.layer < d.maxLayer) (hpts : ∀ pv ∈ d.tempPoints, d.cell.Mem pv.pointW) :
    LeavesGeo d.frame (distribute d leaves) := by
  unfold VoxelOctoTree.distribute
  generalize d.tempPoints = pts at hpts
  induction pts generalizing leaves with
  | nil => exact h
  | cons pv pts ih =>
      exact ih (h.pushLeaf hlt (hpts pv (by simp))) fun q hq => hpts q (by simp [hq])

/-- Settling keeps the geometry when the cut does. -/
lemma GeoAt.settle {f : OctoFrame} {t : VoxelOctoTree} {fit : PlaneFit}
    {cut : OctoNode → Leaves → VoxelOctoTree} (h : GeoAt f t)
    (hcut : ∀ d leaves, GeoAt f (.node d leaves) → GeoAt f (cut d leaves)) :
    GeoAt f (settle cut fit t) := by
  cases t with
  | nullptr => exact h
  | node d leaves =>
      simp only [VoxelOctoTree.settle]
      split_ifs
      · exact h.setNode rfl (by simp)
      · exact h.setNode rfl fun _ hq => hq
      · have hcut' := hcut { d.initPlane fit with octoState := 1 } leaves
          (h.setNode rfl fun _ hq => hq)
        split
        · rename_i heq
          rw [heq] at hcut'
          exact hcut'
        · rename_i heq
          rw [heq] at hcut'
          exact hcut'.setNode rfl fun _ hq => hq
      · exact h

lemma GeoAt.cutOctoTree {fit : PlaneFit} {fuel : ℕ} {f : OctoFrame} {d : OctoNode}
    {leaves : Leaves} (h : GeoAt f (.node d leaves)) :
    GeoAt f (cutOctoTree fit fuel d leaves) := by
  induction fuel generalizing f d leaves with
  | zero =>
      unfold VoxelOctoTree.cutOctoTree
      split_ifs
      · exact h.setNode rfl fun _ hq => hq
      · exact h
  | succ fuel ih =>
      rcases le_or_gt d.maxLayer d.layer with hlast | hlt
      · rw [cutOctoTree_last hlast]
        exact h.setNode rfl fun _ hq => hq
      · obtain ⟨frozen, heq⟩ := cutOctoTree_succ fit fuel leaves hlt
        rw [heq]
        obtain ⟨rfl, hpts, hleaves⟩ := geoAt_node.mp h
        have hdist := hleaves.distribute hlt hpts
        refine geoAt_node.mpr ⟨by simp, by simpa using hpts, fun i => ?_⟩
        rcases hdist i with hnull | ⟨-, hgeo⟩
        · refine .inl ?_
          simp only [hnull]
          rfl
        · exact .inr ⟨hlt, hgeo.settle fun _ _ => ih⟩

lemma GeoAt.initOctoTree {fit : PlaneFit} {f : OctoFrame} {t : VoxelOctoTree} (h : GeoAt f t) :
    GeoAt f (initOctoTree fit t) :=
  h.settle fun _ _ => GeoAt.cutOctoTree

/-! ## Update -/

lemma GeoAt.updateUninit {fit : PlaneFit} {f : OctoFrame} {d : OctoNode} {leaves : Leaves}
    {pv : PointWithVar} (h : GeoAt f (.node d leaves)) (hpv : f.cell.Mem pv.pointW) :
    GeoAt f (updateUninit fit pv d leaves) := by
  simp only [VoxelOctoTree.updateUninit]
  split_ifs
  · exact (h.push hpv).initOctoTree
  · exact h.push hpv

/-- The re-fitted node has the frame it had, and points of its cube. -/
lemma GeoAt.refit {fit : PlaneFit} {f : OctoFrame} {d d' : OctoNode} {leaves : Leaves}
    {pv : PointWithVar} (h : GeoAt f (.node d leaves)) (hpv : f.cell.Mem pv.pointW)
    (hd' : d' = (d.push pv).refit fit ∨ d' = ((d.push pv).refit fit).freeze) :
    GeoAt f (.node d' leaves) := by
  rcases hd' with rfl | rfl
  · exact (h.push hpv).setNode (by simp) (by simp)
  · exact (h.push hpv).setNode (by simp) (by simp)

/-- **An update keeps the geometry**, when the point lies in the root's cube. -/
theorem GeoAt.updateOctoTree {fit : PlaneFit} {f : OctoFrame} {t : VoxelOctoTree}
    {pv : PointWithVar} (h : GeoAt f t) (hpv : f.cell.Mem pv.pointW) :
    GeoAt f (updateOctoTree fit pv t) := by
  induction t generalizing f with
  | nullptr => exact h
  | node d leaves ih =>
      rcases d.kind_cases with hinit | hplane | hbranch | hlast
      · rw [updateOctoTree_uninit hinit]
        exact h.updateUninit hpv
      · rw [updateOctoTree_plane hplane]
        split_ifs
        · exact h.refit hpv (d.updatePlane_cases fit pv)
        · exact h
      · rw [updateOctoTree_branch hbranch]
        obtain ⟨rfl, hpts, hleaves⟩ := geoAt_node.mp h
        refine geoAt_node.mpr ⟨rfl, hpts, fun i => ?_⟩
        rcases eq_or_ne i (d.leafOf pv.pointW) with rfl | hne
        · rw [Function.update_self]
          refine .inr ⟨hbranch.2.2, ?_⟩
          rcases hleaves (d.leafOf pv.pointW) with hnone | ⟨-, hgeo⟩
          · rw [hnone, orNew, updateOctoTree_uninit rfl]
            exact (geoAt_newLeaf d pv.pointW).updateUninit (OctoNode.mem_leafOf hpv)
          · rw [orNew_of_geoAt hgeo]
            exact ih _ hgeo (OctoNode.mem_leafOf hpv)
        · rw [Function.update_of_ne hne]
          exact hleaves i
      · rw [updateOctoTree_last hlast]
        split_ifs
        · exact h.refit hpv (d.updateLast_cases fit pv)
        · exact h

/-! ## The layers left are enough to cut -/

/-- A cut that may go as deep as the layers left does not depend on how much deeper it may go. -/
theorem cutOctoTree_fuel {fit : PlaneFit} {fuel : ℕ} {f : OctoFrame} {d : OctoNode}
    {leaves : Leaves} (h : GeoAt f (.node d leaves)) (hfuel : d.layersLeft ≤ fuel) :
    cutOctoTree fit fuel d leaves = cutBelow fit d leaves := by
  unfold cutBelow
  generalize hleft : d.layersLeft = left at hfuel
  induction left generalizing fuel f d leaves with
  | zero =>
      have hlast : d.maxLayer ≤ d.layer := by
        unfold OctoNode.layersLeft at hleft
        omega
      unfold VoxelOctoTree.cutOctoTree
      rw [if_pos hlast, if_pos hlast]
  | succ left ih =>
      obtain ⟨fuel, rfl⟩ : ∃ n, fuel = n + 1 := ⟨fuel - 1, by omega⟩
      have hlt : d.layer < d.maxLayer := by
        unfold OctoNode.layersLeft at hleft
        omega
      unfold VoxelOctoTree.cutOctoTree
      rw [if_neg (not_le.mpr hlt), if_neg (not_le.mpr hlt)]
      obtain ⟨rfl, hpts, hleaves⟩ := geoAt_node.mp h
      have hdist := hleaves.distribute hlt hpts
      refine congrArg (PTree.node _) (funext fun i => ?_)
      rcases hdist i with hnull | ⟨-, hgeo⟩
      · rw [hnull]
        rfl
      · cases hi : distribute d leaves i with
        | nullptr => rfl
        | node b kids =>
            rw [hi] at hgeo
            have hframe : b.frame = d.frame.child i := hgeo.1
            have hl : b.layer = d.layer + 1 := congrArg OctoFrame.layer hframe
            have hm : b.maxLayer = d.maxLayer := congrArg OctoFrame.maxLayer hframe
            have hb : { b.initPlane fit with octoState := 1 }.layersLeft = left := by
              unfold OctoNode.layersLeft at hleft ⊢
              change (b.maxLayer - b.layer).toNat = left
              omega
            have hcut : VoxelOctoTree.cutOctoTree fit fuel
                { b.initPlane fit with octoState := 1 } kids =
                VoxelOctoTree.cutOctoTree fit left
                  { b.initPlane fit with octoState := 1 } kids :=
              ih (hgeo.setNode rfl fun _ hq => hq) hb (by omega)
            simp only [VoxelOctoTree.settle, hcut]

end VoxelOctoTree

end FastLivo2
