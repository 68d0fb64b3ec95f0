import FastLivo2.OctoTreeGeometry

/-!
# Runs of calls on one octree

`Settled d t` says everything the initialisation of a node `d` without leaves can end in, whatever
the verdicts: too few points to fit, a plane that keeps its points or drops them, a node of the
last layer, or a branch whose octants are settled in turn.  `settled_initOctoTree` is the only
place where `init_octo_tree` and `cut_octo_tree` are unfolded; the results about reads and about
lost points are inductions on `Settled`.

A run (`OctoRun`) makes the calls the map makes on a root: `BuildVoxelMap` pushes points to a new
root and initialises it, `UpdateVoxelMap` updates it.  Neither initialises a root a second time:
`BuildVoxelMap` fills an empty map, and `UpdateOctoTree` tests `init_octo_`.
-/

namespace FastLivo2

/-- The points of a call of `UpdateVoxelMap`, each with the fit made along its way. -/
abbrev ScanPoints := List (PointWithVar × PlaneFit)

/-- The leaves of a node that has none. -/
def noLeaves : Leaves := fun _ => .nullptr

namespace OctoNode

/-- The points of a node in one of its octants. -/
def pointsIn (d : OctoNode) (i : Fin 8) : List PointWithVar :=
  d.tempPoints.filter fun pv => d.leafOf pv.pointW = i

/-- A new leaf with the points of the octant. -/
def filled (d : OctoNode) (i : Fin 8) : OctoNode :=
  { d.newLeaf (leafXyz i) with
    tempPoints := d.pointsIn i, newPoints := (d.pointsIn i).length }

lemma mem_pointsIn {d : OctoNode} {pv : PointWithVar} (h : pv ∈ d.tempPoints) :
    pv ∈ d.pointsIn (d.leafOf pv.pointW) :=
  List.mem_filter.mpr ⟨h, by simp⟩

lemma octant_eq_leafXyz (d : OctoNode) (pw : V3D) : d.octant pw = leafXyz (d.leafOf pw) :=
  (leafXyz_leafnum _).symm

lemma layersLeft_filled {d : OctoNode} (i : Fin 8) :
    (d.filled i).layersLeft = d.layersLeft - 1 := by
  unfold layersLeft
  change (d.maxLayer - (d.layer + 1)).toNat = _
  omega

end OctoNode

namespace VoxelOctoTree

/-! ## Distribution over empty leaves -/

/-- A new leaf with the given points, or none when there are no points. -/
def leafWith (d : OctoNode) (i : Fin 8) : List PointWithVar → VoxelOctoTree
  | [] => .nullptr
  | pv :: pts => .node { d.newLeaf (leafXyz i) with
      tempPoints := pv :: pts, newPoints := (pv :: pts).length } noLeaves

lemma leafWith_snoc (d : OctoNode) (i : Fin 8) (pts : List PointWithVar) (pv : PointWithVar) :
    pushPoint pv (orNew d (leafXyz i) (leafWith d i pts)) = leafWith d i (pts ++ [pv]) := by
  cases pts with
  | nil => rfl
  | cons q pts => simp [leafWith, orNew, pushPoint, OctoNode.push]

/-- **What distribution makes of empty leaves**: each octant that has points gets a new leaf with
exactly those. -/
theorem distribute_noLeaves (d : OctoNode) (i : Fin 8) :
    distribute d noLeaves i = leafWith d i (d.pointsIn i) := by
  have hrun : ∀ (pts seen : List PointWithVar),
      pts.foldl (pushLeaf d) (fun i => leafWith d i
        (seen.filter fun pv => d.leafOf pv.pointW = i)) i =
      leafWith d i ((seen ++ pts).filter fun pv => d.leafOf pv.pointW = i) := by
    intro pts
    induction pts with
    | nil => simp
    | cons pv pts ih =>
        intro seen
        have hpush : pushLeaf d (fun i => leafWith d i
            (seen.filter fun pv => d.leafOf pv.pointW = i)) pv =
            fun i => leafWith d i ((seen ++ [pv]).filter fun pv => d.leafOf pv.pointW = i) := by
          funext j
          unfold pushLeaf
          rcases eq_or_ne j (d.leafOf pv.pointW) with rfl | hne
          · rw [Function.update_self, d.octant_eq_leafXyz, leafWith_snoc]
            simp
          · rw [Function.update_of_ne hne]
            simp [hne.symm]
        rw [List.append_cons, ← ih, List.foldl_cons, hpush]
  exact hrun d.tempPoints []

lemma leafWith_pointsIn {d : OctoNode} {i : Fin 8} (h : d.pointsIn i ≠ []) :
    leafWith d i (d.pointsIn i) = .node (d.filled i) noLeaves := by
  unfold OctoNode.filled
  cases hp : d.pointsIn i with
  | nil => exact absurd hp h
  | cons pv pts => rfl

/-! ## What an initialisation ends in -/

/-- The outcomes of settling a node `d` without leaves. -/
inductive Settled : OctoNode → VoxelOctoTree → Prop
  /-- Too few points to fit. -/
  | few {d : OctoNode} (few : sizeGt d.tempPoints.length d.pointsSizeThreshold = false) :
      Settled d (.node d noLeaves)
  /-- A plane that keeps its points. -/
  | plane {d d' : OctoNode} (kind : d'.IsPlaneNode) (frame : d'.frame = d.frame)
      (points : d'.tempPoints = d.tempPoints) (enable : d'.updateEnable = d.updateEnable)
      (small : sizeGt d.tempPoints.length d.maxPointsNum = false) :
      Settled d (.node d' noLeaves)
  /-- A plane with so many points that it is frozen. -/
  | frozen {d d' : OctoNode} (kind : d'.IsPlaneNode) (frame : d'.frame = d.frame)
      (points : d'.tempPoints = []) (enable : d'.updateEnable = false) :
      Settled d (.node d' noLeaves)
  /-- No plane, in the last layer. -/
  | last {d d' : OctoNode} (kind : d'.IsLast) (frame : d'.frame = d.frame)
      (points : d'.tempPoints = d.tempPoints) (enable : d'.updateEnable = d.updateEnable) :
      Settled d (.node d' noLeaves)
  /-- No plane: the node keeps its points and each octant with points has a settled leaf. -/
  | branch {d d' : OctoNode} {leaves : Leaves} (kind : d'.IsBranch) (frame : d'.frame = d.frame)
      (points : d'.tempPoints = d.tempPoints) (enable : d'.updateEnable = d.updateEnable)
      (none : ∀ i, d.pointsIn i = [] → leaves i = .nullptr)
      (some : ∀ i, d.pointsIn i ≠ [] → Settled (d.filled i) (leaves i)) :
      Settled d (.node d' leaves)

/-- What a cut makes of a fitted node without leaves. -/
structure CutOf (fit : PlaneFit) (d d' : OctoNode) (leaves : Leaves) : Prop where
  plane : d'.plane = fit d
  frame : d'.frame = d.frame
  points : d'.tempPoints = d.tempPoints
  enable : d'.updateEnable = d.updateEnable
  last : d.maxLayer ≤ d.layer → leaves = noLeaves
  none : d.layer < d.maxLayer → ∀ i, d.pointsIn i = [] → leaves i = .nullptr
  some : d.layer < d.maxLayer → ∀ i, d.pointsIn i ≠ [] → Settled (d.filled i) (leaves i)

/-- Settling ends in one of the outcomes when the cut it uses does its part. -/
lemma settled_of_cut {fit : PlaneFit} {cut : OctoNode → Leaves → VoxelOctoTree} {d : OctoNode}
    (hcut : ∃ d' leaves, cut { d.initPlane fit with octoState := 1 } noLeaves = .node d' leaves ∧
      CutOf fit d d' leaves) :
    Settled d (settle cut fit (.node d noLeaves)) := by
  simp only [settle]
  split_ifs with hsize hplane hfreeze
  · exact .frozen ⟨rfl, hplane⟩ rfl rfl rfl
  · exact .plane ⟨rfl, hplane⟩ rfl rfl rfl (eq_false_of_ne_true hfreeze)
  · obtain ⟨d', leaves, heq, h⟩ := hcut
    have hnot : d'.plane.isPlane = false := by
      rw [h.plane]
      exact eq_false_of_ne_true hplane
    have hlayer : d'.layer = d.layer := congrArg OctoFrame.layer h.frame
    have hmax : d'.maxLayer = d.maxLayer := congrArg OctoFrame.maxLayer h.frame
    rw [heq]
    rcases le_or_gt d.maxLayer d.layer with hlast | hlt
    · rw [h.last hlast]
      refine .last ⟨rfl, hnot, ?_⟩ h.frame h.points h.enable
      change d'.maxLayer ≤ d'.layer
      omega
    · refine .branch ⟨rfl, hnot, ?_⟩ h.frame h.points h.enable (h.none hlt) (h.some hlt)
      change d'.layer < d'.maxLayer
      omega
  · exact .few (eq_false_of_ne_true hsize)

/-- In the last layer there is nothing to cut, whatever the fuel. -/
lemma settled_last {fit : PlaneFit} {d : OctoNode} (fuel : ℕ) (hlast : d.maxLayer ≤ d.layer) :
    Settled d (settle (cutOctoTree fit fuel) fit (.node d noLeaves)) :=
  settled_of_cut ⟨_, _, cutOctoTree_last hlast, rfl, rfl, rfl, rfl, fun _ => rfl,
    fun hlt => absurd hlast (not_le.mpr hlt), fun hlt => absurd hlast (not_le.mpr hlt)⟩

/-- Settling with enough fuel ends in one of the outcomes. -/
lemma settled_settle {fit : PlaneFit} {fuel : ℕ} {d : OctoNode} (hfuel : d.layersLeft ≤ fuel) :
    Settled d (settle (cutOctoTree fit fuel) fit (.node d noLeaves)) := by
  induction fuel generalizing d with
  | zero =>
      refine settled_last 0 ?_
      unfold OctoNode.layersLeft at hfuel
      omega
  | succ fuel ih =>
      rcases le_or_gt d.maxLayer d.layer with hlast | hlt
      · exact settled_last _ hlast
      · let c : OctoNode := { d.initPlane fit with octoState := 1 }
        obtain ⟨frozen, heq⟩ := cutOctoTree_succ fit fuel noLeaves (d := c) hlt
        have hleaf : ∀ i, distribute c noLeaves i = leafWith d i (d.pointsIn i) :=
          distribute_noLeaves c
        refine settled_of_cut ⟨_, _, heq, c.afterCut_plane frozen, c.afterCut_frame frozen,
          c.afterCut_tempPoints frozen, c.afterCut_updateEnable frozen,
          fun hlast => absurd hlt (not_lt.mpr hlast), fun _ i hi => ?_, fun _ i hi => ?_⟩
        · rw [hleaf, hi]
          rfl
        · rw [hleaf, leafWith_pointsIn hi]
          have hleft : (d.filled i).layersLeft = d.layersLeft - 1 := OctoNode.layersLeft_filled i
          exact ih (by omega)

/-- **What an initialisation ends in.** -/
theorem settled_initOctoTree (fit : PlaneFit) (d : OctoNode) :
    Settled d (initOctoTree fit (.node d noLeaves)) := by
  change Settled d (settle (cutOctoTree fit d.layersLeft) fit (.node d noLeaves))
  exact settled_settle le_rfl

/-- **What an update of a node that is not initialised ends in.** -/
theorem settled_updateUninit (fit : PlaneFit) (pv : PointWithVar) (d : OctoNode) :
    Settled (d.push pv) (updateUninit fit pv d noLeaves) := by
  simp only [updateUninit]
  split_ifs with hsize
  · exact settled_initOctoTree fit _
  · exact .few (eq_false_of_ne_true hsize)

lemma Settled.ne_nullptr {d : OctoNode} {t : VoxelOctoTree} (h : Settled d t) : t ≠ .nullptr := by
  cases h <;> exact PTree.node_ne_nullptr

/-! ## Only branches have leaves -/

/-- Only a branch has leaves. -/
def Tidy (t : VoxelOctoTree) : Prop := t.Everywhere fun d leaves => d.IsBranch ∨ leaves = noLeaves

lemma tidy_noLeaves (d : OctoNode) : Tidy (.node d noLeaves) := ⟨.inr rfl, fun _ => trivial⟩

lemma Settled.tidy {d : OctoNode} {t : VoxelOctoTree} (h : Settled d t) : t.Tidy := by
  induction h with
  | few | plane | frozen | last => exact tidy_noLeaves _
  | @branch d d' leaves kind _ _ _ none _ ih =>
      refine ⟨.inl kind, fun i => ?_⟩
      by_cases hi : d.pointsIn i = []
      · rw [none i hi]
        trivial
      · exact ih i hi

/-- A tidy node that is no branch has no leaves. -/
lemma Tidy.leaves_eq {d : OctoNode} {leaves : Leaves} (h : Tidy (.node d leaves))
    (hkind : ¬d.IsBranch) : leaves = noLeaves :=
  h.1.resolve_left hkind

section Rule

variable {P : VoxelOctoTree → VoxelOctoTree → Prop} {fit : PlaneFit} {pv : PointWithVar}

/-- **Update rule.**  What relates a node to what it turns into when it takes a point relates a
tidy tree to the tree after an update.  The point goes to a node that waits, to one that is
updated, or to one that is frozen; a branch hands it to a leaf, a new one if there is none. -/
theorem updateOctoTree_rule (null : P .nullptr .nullptr)
    (waiting : ∀ d t, d.initOcto = false → Settled (d.push pv) t → P (.node d noLeaves) t)
    (plane : ∀ d, d.IsPlaneNode → d.updateEnable = true →
      P (.node d noLeaves) (.node (d.updatePlane fit pv) noLeaves))
    (last : ∀ d, d.IsLast → d.updateEnable = true →
      P (.node d noLeaves) (.node (d.updateLast fit pv) noLeaves))
    (frozen : ∀ d, d.updateEnable = false → P (.node d noLeaves) (.node d noLeaves))
    (branch : ∀ d leaves t, d.IsBranch →
      P (orNew d (d.octant pv.pointW) (leaves (d.leafOf pv.pointW))) t →
      P (.node d leaves) (.node d (Function.update leaves (d.leafOf pv.pointW) t)))
    {t : VoxelOctoTree} (h : t.Tidy) : P t (updateOctoTree fit pv t) := by
  induction t with
  | nullptr => exact null
  | node d leaves ih =>
      by_cases hbranch : d.IsBranch
      · rw [updateOctoTree_branch hbranch]
        refine branch d leaves _ hbranch ?_
        cases hi : leaves (d.leafOf pv.pointW) with
        | nullptr =>
            rw [orNew, updateOctoTree_uninit rfl]
            exact waiting _ _ rfl (settled_updateUninit fit pv _)
        | node b kids =>
            have hb := ih (d.leafOf pv.pointW) (h.2 _)
            rwa [hi] at hb
      · obtain rfl := h.leaves_eq hbranch
        rcases d.kind_cases with hinit | hplane | hb | hlast
        · rw [updateOctoTree_uninit hinit]
          exact waiting d _ hinit (settled_updateUninit fit pv d)
        · rw [updateOctoTree_plane hplane]
          split_ifs with henable
          · exact plane d hplane henable
          · exact frozen d (eq_false_of_ne_true henable)
        · exact absurd hb hbranch
        · rw [updateOctoTree_last hlast]
          split_ifs with henable
          · exact last d hlast henable
          · exact frozen d (eq_false_of_ne_true henable)

end Rule

/-- An update of a tidy tree leaves it tidy. -/
lemma Tidy.updateOctoTree {t : VoxelOctoTree} (h : t.Tidy) (fit : PlaneFit) (pv : PointWithVar) :
    (updateOctoTree fit pv t).Tidy := by
  refine updateOctoTree_rule (P := fun t u => t.Tidy → u.Tidy)
    id ?waiting ?plane ?last ?frozen ?branch h h
  case waiting => exact fun d t _ hsettled _ => hsettled.tidy
  case plane => exact fun d _ _ _ => tidy_noLeaves _
  case last => exact fun d _ _ _ => tidy_noLeaves _
  case frozen => exact fun d _ => id
  case branch =>
    intro d leaves t hbranch ih htidy
    refine ⟨.inl hbranch, PTree.everywhere_update htidy.2 _ (ih ?_)⟩
    cases hi : leaves (d.leafOf pv.pointW) with
    | nullptr => exact tidy_noLeaves _
    | node b kids =>
        have hb := htidy.2 (d.leafOf pv.pointW)
        rwa [hi] at hb

/-- An update never leaves a null pointer where there was a node. -/
lemma Tidy.updateOctoTree_ne_nullptr {t : VoxelOctoTree} (h : t.Tidy) (hnull : t ≠ .nullptr)
    (fit : PlaneFit) (pv : PointWithVar) : VoxelOctoTree.updateOctoTree fit pv t ≠ .nullptr := by
  refine updateOctoTree_rule (P := fun t u => t ≠ .nullptr → u ≠ .nullptr)
    id ?waiting ?plane ?last ?frozen ?branch h hnull
  case waiting => exact fun d t _ hsettled _ => hsettled.ne_nullptr
  case plane => exact fun d _ _ _ => PTree.node_ne_nullptr
  case last => exact fun d _ _ _ => PTree.node_ne_nullptr
  case frozen => exact fun d _ => id
  case branch => exact fun d leaves t _ _ _ => PTree.node_ne_nullptr

end VoxelOctoTree

/-! ## Runs -/

/-- A call on one octree. -/
inductive OctoCall
  /-- `BuildVoxelMap` pushes a point to the root. -/
  | push (pv : PointWithVar)
  | init (fit : PlaneFit)
  | update (fit : PlaneFit) (pv : PointWithVar)

/-- The octree takes a call. -/
def VoxelOctoTree.call (t : VoxelOctoTree) : OctoCall → VoxelOctoTree
  | .push pv => t.pushPoint pv
  | .init fit => t.initOctoTree fit
  | .update fit pv => t.updateOctoTree fit pv

/-- A node as its constructor leaves it. -/
structure OctoNode.IsNew (d : OctoNode) : Prop where
  tempPoints : d.tempPoints = []
  plane : d.plane = {}
  newPoints : d.newPoints = 0
  initOcto : d.initOcto = false
  updateEnable : d.updateEnable = true

/-- The root is not initialised. -/
def VoxelOctoTree.Uninit : VoxelOctoTree → Prop
  | .nullptr => False
  | .node d _ => d.initOcto = false

/-- The octrees reached by runs of calls that all meet `C`.  Points are pushed past the update,
and the root is initialised from outside, only before it is initialised. -/
inductive OctoRun (C : VoxelOctoTree → OctoCall → Prop) : VoxelOctoTree → Prop
  | new {d : OctoNode} (new : d.IsNew) : OctoRun C (.node d noLeaves)
  | push {t : VoxelOctoTree} (run : OctoRun C t) (uninit : t.Uninit) (pv : PointWithVar)
      (ok : C t (.push pv)) : OctoRun C (t.call (.push pv))
  | init {t : VoxelOctoTree} (run : OctoRun C t) (uninit : t.Uninit) (fit : PlaneFit)
      (ok : C t (.init fit)) : OctoRun C (t.call (.init fit))
  | update {t : VoxelOctoTree} (run : OctoRun C t) (fit : PlaneFit) (pv : PointWithVar)
      (ok : C t (.update fit pv)) : OctoRun C (t.call (.update fit pv))

namespace VoxelOctoTree

/-- A tidy root that is not initialised is a node without leaves. -/
lemma Tidy.of_uninit {t : VoxelOctoTree} (h : t.Tidy) (huninit : t.Uninit) :
    ∃ d, t = .node d noLeaves ∧ d.initOcto = false := by
  cases t with
  | nullptr => exact huninit.elim
  | node d leaves =>
      have hinit : d.initOcto = false := huninit
      exact ⟨d, by rw [h.leaves_eq fun hb => by simp [hb.1] at hinit], hinit⟩

/-- Every octree reached is tidy. -/
theorem tidy_of_run {C : VoxelOctoTree → OctoCall → Prop} {t : VoxelOctoTree} (h : OctoRun C t) :
    t.Tidy := by
  induction h with
  | new => exact tidy_noLeaves _
  | push _ uninit pv _ ih =>
      obtain ⟨d, rfl, -⟩ := ih.of_uninit uninit
      exact tidy_noLeaves _
  | init _ uninit fit _ ih =>
      obtain ⟨d, rfl, -⟩ := ih.of_uninit uninit
      exact (settled_initOctoTree fit d).tidy
  | update _ fit pv _ ih => exact ih.updateOctoTree fit pv

/-- Every octree reached has a root. -/
lemma ne_nullptr_of_run {C : VoxelOctoTree → OctoCall → Prop} {t : VoxelOctoTree}
    (h : OctoRun C t) : t ≠ .nullptr := by
  induction h with
  | new => exact PTree.node_ne_nullptr
  | push run uninit pv _ _ =>
      obtain ⟨d, rfl, -⟩ := (tidy_of_run run).of_uninit uninit
      exact PTree.node_ne_nullptr
  | init run uninit fit _ _ =>
      obtain ⟨d, rfl, -⟩ := (tidy_of_run run).of_uninit uninit
      exact (settled_initOctoTree fit d).ne_nullptr
  | update run fit pv _ ih => exact (tidy_of_run run).updateOctoTree_ne_nullptr ih fit pv

/-- The octree after the updates of some points. -/
def updates (pts : ScanPoints) (t : VoxelOctoTree) : VoxelOctoTree :=
  pts.foldl (fun t p => updateOctoTree p.2 p.1 t) t

lemma updates_cons (p : PointWithVar × PlaneFit) (pts : ScanPoints) (t : VoxelOctoTree) :
    updates (p :: pts) t = updates pts (updateOctoTree p.2 p.1 t) := rfl

lemma updates_append (pts pts' : ScanPoints) (t : VoxelOctoTree) :
    updates (pts ++ pts') t = updates pts' (updates pts t) :=
  List.foldl_append

/-- Each of the updates meets `C` when it is made. -/
def UpdatesMeet (C : VoxelOctoTree → OctoCall → Prop) : ScanPoints → VoxelOctoTree → Prop
  | [], _ => True
  | p :: pts, t => C t (.update p.2 p.1) ∧ UpdatesMeet C pts (updateOctoTree p.2 p.1 t)

/-- A sequence of updates that all meet `C` goes on a run. -/
lemma octoRun_updates {C : VoxelOctoTree → OctoCall → Prop} {t : VoxelOctoTree}
    (h : OctoRun C t) {pts : ScanPoints} (hmeet : UpdatesMeet C pts t) :
    OctoRun C (updates pts t) := by
  induction pts generalizing t with
  | nil => exact h
  | cons p pts ih => exact ih (h.update p.2 p.1 hmeet.1) hmeet.2

lemma updatesMeet_true (pts : ScanPoints) (t : VoxelOctoTree) :
    UpdatesMeet (fun _ _ => True) pts t := by
  induction pts generalizing t with
  | nil => trivial
  | cons p pts ih => exact ⟨trivial, ih _⟩

end VoxelOctoTree

/-- A new root of half a metre, next to the origin, with one layer below it. -/
def halfMetreRoot : OctoNode where
  layer := 0
  maxLayer := 1
  voxelCenter := fun _ => 1 / 4
  quaterLength := 1 / 8
  layerInitNum := { nums := [5, 5, 5, 5, 5] }
  pointsSizeThreshold := 5
  maxPointsNum := 50

lemma halfMetreRoot_isNew : halfMetreRoot.IsNew := ⟨rfl, rfl, rfl, rfl, rfl⟩

/-- The same with two layers below it and room for thirteen points. -/
def twoLayerRoot : OctoNode := { halfMetreRoot with maxLayer := 2, maxPointsNum := 13 }

lemma twoLayerRoot_isNew : twoLayerRoot.IsNew := ⟨rfl, rfl, rfl, rfl, rfl⟩

/-- Points of one small octant, one after the other. -/
def cornerPoint (n : ℕ) : PointWithVar := { pointW := ![(n + 1) / 250, 1 / 100, 1 / 100] }

/-- Up to six points of the first layer look like a plane, and nothing else does. -/
def cornerFit : PlaneFit := fun d =>
  { isPlane := decide (d.layer = 1 ∧ d.tempPoints.length ≤ 6) }

/-- The tree after the first `n` points. -/
def cornerTree (n : ℕ) : VoxelOctoTree :=
  VoxelOctoTree.updates ((List.range n).map fun k => (cornerPoint k, cornerFit))
    (.node twoLayerRoot noLeaves)

end FastLivo2
