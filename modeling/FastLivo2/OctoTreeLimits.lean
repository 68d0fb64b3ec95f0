import FastLivo2.OctoTreeMemory

/-!
# Limits that are never reached

The converse of the bound on the memory.  `temp_points_.size()` is unsigned and the limits are
`int`s, so a negative limit is compared as a huge number.  A node whose threshold is negative waits
for ever and keeps what it is given; so does a plane under a negative `max_points_num_`.

The node of a negative threshold may lie deep in the tree.  `exists_hoard` leads points to it: a
node above it is filled with points at its centre, which all fall into its lowest octant, is found
to be no plane, and is cut; the points that follow go to its highest octant, where there is no leaf
yet, and start on a new one.
-/

namespace FastLivo2

variable {cfg : VoxelMapConfig}

/-- The verdicts by which every node is a plane. -/
def planeFit : PlaneFit := fun _ => { isPlane := true }

/-- The verdicts by which no node is. -/
def noPlaneFit : PlaneFit := fun _ => {}

/-! ## A node that hoards -/

/-- The node keeps the `n` points it was given, and goes on doing so: it waits under a limit that
is negative, or it is a plane and `max_points_num_` is. -/
structure OctoNode.Hoards (n : ℕ) (d : OctoNode) : Prop where
  held : d.tempPoints.length = n
  enable : d.updateEnable = true
  kind : (d.initOcto = false ∧ (d.pointsSizeThreshold < 0 ∨ d.maxPointsNum < 0)) ∨
    (d.IsPlaneNode ∧ d.maxPointsNum < 0)

lemma sizeGt_of_neg {size : ℕ} {n : ℤ} (h : n < 0) : sizeGt size n = false := by
  simp only [sizeGt, decide_eq_false_iff_not]
  omega

lemma sizeGe_of_neg {size : ℕ} {n : ℤ} (h : n < 0) : sizeGe size n = false := by
  simp only [sizeGe, decide_eq_false_iff_not]
  omega

namespace VoxelOctoTree

variable {fit : PlaneFit} {pv : PointWithVar} {d : OctoNode} {leaves : Leaves}

/-- A node that is found to be a plane, under a `max_points_num_` it does not pass. -/
lemma settle_plane {cut : OctoNode → Leaves → VoxelOctoTree}
    (hsize : sizeGt d.tempPoints.length d.pointsSizeThreshold = true)
    (hplane : (fit d).isPlane = true) (hmax : sizeGt d.tempPoints.length d.maxPointsNum = false) :
    settle cut fit (.node d leaves) =
      .node { d.initPlane fit with octoState := 0 }.initialised leaves := by
  have hfit : (d.initPlane fit).plane.isPlane = true := hplane
  simp only [settle, hsize, if_true, hfit]
  exact congrArg (fun d => PTree.node d leaves) (by simp [OctoNode.initPlane, hmax])

/-- A node that is found to be no plane is what its cut makes of it. -/
lemma settle_noPlane {cut : OctoNode → Leaves → VoxelOctoTree} {d' : OctoNode} {leaves' : Leaves}
    (hsize : sizeGt d.tempPoints.length d.pointsSizeThreshold = true)
    (hplane : (fit d).isPlane = false)
    (hcut : cut { d.initPlane fit with octoState := 1 } leaves = .node d' leaves') :
    settle cut fit (.node d leaves) = .node d'.initialised leaves' := by
  have hfit : ¬(d.initPlane fit).plane.isPlane = true := ne_true_of_eq_false hplane
  simp only [settle]
  rw [if_pos hsize, if_neg hfit, hcut]

/-- A node that hoards takes one point more. -/
lemma Hoards.update {n : ℕ} (h : d.Hoards n) (pv : PointWithVar) :
    ∃ d', updateOctoTree planeFit pv (.node d noLeaves) = .node d' noLeaves ∧
      d'.Hoards (n + 1) := by
  have hlen : (d.push pv).tempPoints.length = n + 1 := by simp [OctoNode.push, h.held]
  rcases h.kind with ⟨hinit, hlimit⟩ | ⟨hplane, hmax⟩
  · rw [updateOctoTree_uninit hinit]
    simp only [updateUninit]
    split_ifs with hsize
    · have hthr : 0 ≤ d.pointsSizeThreshold := by
        simp only [sizeGt, decide_eq_true_eq] at hsize
        exact hsize.1
      have hmax : d.maxPointsNum < 0 := hlimit.resolve_left (not_lt.mpr hthr)
      refine ⟨_, settle_plane hsize rfl (sizeGt_of_neg hmax), hlen, h.enable, .inr ⟨?_, hmax⟩⟩
      exact ⟨rfl, rfl⟩
    · exact ⟨_, rfl, hlen, h.enable, .inl ⟨hinit, hlimit⟩⟩
  · rw [updateOctoTree_plane hplane, if_pos h.enable]
    have hkeep : d.updatePlane planeFit pv = (d.push pv).refit planeFit := by
      have hneg : ((d.push pv).refit planeFit).maxPointsNum < 0 :=
        (congrArg OctoFrame.maxPointsNum (d.pushed_frame planeFit pv)).trans_lt hmax
      simp only [OctoNode.updatePlane, sizeGe_of_neg hneg]
      rfl
    have hstill : ((d.push pv).refit planeFit).plane.isPlane = true := by
      unfold OctoNode.refit
      split_ifs
      · rfl
      · exact hplane.2
    refine ⟨_, rfl, ?_, ?_, .inr ⟨⟨?_, ?_⟩, ?_⟩⟩ <;> rw [hkeep]
    · rw [OctoNode.refit_tempPoints, hlen]
    · rw [OctoNode.pushed_updateEnable, h.enable]
    · rw [OctoNode.refit_initOcto]
      exact hplane.1
    · exact hstill
    · exact (congrArg OctoFrame.maxPointsNum (d.pushed_frame planeFit pv)).trans_lt hmax

/-- A node that hoards takes any number of points. -/
lemma Hoards.updates {n : ℕ} (h : d.Hoards n) (pv : PointWithVar) (k : ℕ) :
    ∃ d', updates (List.replicate k (pv, planeFit)) (.node d noLeaves) = .node d' noLeaves ∧
      d'.Hoards (n + k) := by
  induction k generalizing n d with
  | zero => exact ⟨d, rfl, h⟩
  | succ k ih =>
      obtain ⟨d', heq, h'⟩ := Hoards.update h pv
      obtain ⟨d'', heq', h''⟩ := ih h'
      refine ⟨d'', ?_, by rwa [Nat.add_right_comm] at h''⟩
      rw [List.replicate_succ, updates_cons, heq, heq']

/-! ## Above a node that hoards -/

/-- A waiting node takes points up to its threshold. -/
lemma updates_waiting {k : ℕ} (hinit : d.initOcto = false)
    (hroom : (d.tempPoints.length : ℤ) + k ≤ d.pointsSizeThreshold) (fit : PlaneFit)
    (pv : PointWithVar) :
    ∃ d', updates (List.replicate k (pv, fit)) (.node d noLeaves) = .node d' noLeaves ∧
      d'.frame = d.frame ∧ d'.initOcto = false ∧
      d'.tempPoints = d.tempPoints ++ List.replicate k pv := by
  induction k generalizing d with
  | zero => exact ⟨d, rfl, rfl, hinit, by simp⟩
  | succ k ih =>
      have hfew : sizeGt (d.push pv).tempPoints.length d.pointsSizeThreshold = false := by
        simp only [sizeGt, OctoNode.push_tempPoints, List.length_append, List.length_singleton,
          decide_eq_false_iff_not]
        push_cast at hroom ⊢
        omega
      have hstep : updateOctoTree fit pv (.node d noLeaves) = .node (d.push pv) noLeaves := by
        rw [updateOctoTree_uninit hinit]
        simp only [updateUninit]
        exact if_neg (ne_true_of_eq_false hfew)
      obtain ⟨d', heq, hframe, hinit', hpts⟩ := ih (d := d.push pv) hinit (by
        show ((d.push pv).tempPoints.length : ℤ) + k ≤ d.pointsSizeThreshold
        simp only [OctoNode.push_tempPoints, List.length_append, List.length_singleton]
        push_cast at hroom ⊢
        omega)
      refine ⟨d', ?_, hframe, hinit', ?_⟩
      · rw [List.replicate_succ, updates_cons, hstep, heq]
      · rw [hpts, OctoNode.push_tempPoints, List.replicate_succ, List.append_assoc]
        rfl

/-- A waiting node past its threshold that is found to be no plane turns into a branch, without a
leaf in an octant that has no points. -/
lemma updateUninit_cut
    (hsize : sizeGt (d.push pv).tempPoints.length (d.push pv).pointsSizeThreshold = true)
    (hlt : d.layer < d.maxLayer) {i : Fin 8} (hi : (d.push pv).pointsIn i = []) :
    ∃ d' leaves, updateUninit noPlaneFit pv d noLeaves = .node d' leaves ∧ d'.IsBranch ∧
      d'.frame = d.frame ∧ leaves i = .nullptr := by
  let c : OctoNode := { (d.push pv).initPlane noPlaneFit with octoState := 1 }
  obtain ⟨fuel, hfuel⟩ : ∃ fuel, c.layersLeft = fuel + 1 := by
    refine Nat.exists_eq_succ_of_ne_zero ?_
    show (d.maxLayer - d.layer).toNat ≠ 0
    omega
  obtain ⟨frozen, heq⟩ := cutOctoTree_succ noPlaneFit fuel noLeaves (d := c) hlt
  have hcut : cutBelow noPlaneFit c noLeaves = .node (c.afterCut frozen) fun i =>
      settle (cutOctoTree noPlaneFit fuel) noPlaneFit (distribute c noLeaves i) := by
    rw [cutBelow, hfuel, heq]
  have hframe := c.afterCut_frame frozen
  refine ⟨(c.afterCut frozen).initialised,
    fun i => settle (cutOctoTree noPlaneFit fuel) noPlaneFit (distribute c noLeaves i),
    ?_, ⟨rfl, ?_, ?_⟩, hframe, ?_⟩
  · simp only [updateUninit]
    rw [if_pos hsize]
    exact settle_noPlane hsize rfl hcut
  · show (c.afterCut frozen).plane.isPlane = false
    rw [OctoNode.afterCut_plane]
    rfl
  · show (c.afterCut frozen).layer < (c.afterCut frozen).maxLayer
    rw [OctoNode.layer_congr hframe, OctoNode.maxLayer_congr hframe]
    exact hlt
  · have hnone : c.pointsIn i = [] := hi
    show settle _ noPlaneFit (distribute c noLeaves i) = .nullptr
    rw [distribute_noLeaves, hnone]
    rfl

/-- A tidy tree with a root: what a slot holds once a point has been there. -/
structure Rooted (t : VoxelOctoTree) : Prop where
  tidy : t.Tidy
  there : t ≠ .nullptr

namespace Rooted

variable {t : VoxelOctoTree}

lemma new (d : OctoNode) : Rooted (.node d noLeaves) := ⟨tidy_noLeaves d, PTree.node_ne_nullptr⟩

lemma updateOctoTree (h : Rooted t) (fit : PlaneFit) (pv : PointWithVar) :
    Rooted (updateOctoTree fit pv t) :=
  ⟨h.tidy.updateOctoTree fit pv, h.tidy.updateOctoTree_ne_nullptr h.there fit pv⟩

lemma orNew_eq (h : Rooted t) (d : OctoNode) (xyz : Fin 3 → Bool) : orNew d xyz t = t := by
  cases t with
  | nullptr => exact absurd rfl h.there
  | node b kids => rfl

lemma rootOrNew_eq (h : Rooted t) (cfg : VoxelMapConfig) (position : VoxelLocation) :
    cfg.rootOrNew position t = t := by
  cases t with
  | nullptr => exact absurd rfl h.there
  | node b kids => rfl

end Rooted

/-- In a branch, points of an octant that has no leaf yet start on a new one. -/
lemma updates_newLeaf {xyz : Fin 3 → Bool} {pts : ScanPoints} (hbranch : d.IsBranch)
    (hnull : leaves (leafnum xyz) = .nullptr) (hne : pts ≠ [])
    (hoct : ∀ p ∈ pts, d.octant p.1.pointW = xyz) :
    updates pts (.node d leaves) =
      .node d (Function.update leaves (leafnum xyz)
        (updates pts (.node (d.newLeaf xyz) noLeaves))) := by
  have hleaf : ∀ p ∈ pts, d.leafOf p.1.pointW = leafnum xyz := fun p hp =>
    congrArg leafnum (hoct p hp)
  cases pts with
  | nil => exact absurd rfl hne
  | cons p pts =>
      have hfirst : updateOctoTree p.2 p.1 (.node d leaves) =
          .node d (Function.update leaves (leafnum xyz)
            (updateOctoTree p.2 p.1 (.node (d.newLeaf xyz) noLeaves))) := by
        rw [updateOctoTree_branch hbranch, hleaf p List.mem_cons_self, hnull,
          hoct p List.mem_cons_self]
        rfl
      refine (List.foldl_rel
        (r := fun (s t : VoxelOctoTree) =>
          s = .node d (Function.update leaves (leafnum xyz) t) ∧ Rooted t)
        ⟨hfirst, (Rooted.new _).updateOctoTree p.2 p.1⟩ ?_).1
      rintro q hq _ t ⟨rfl, ht⟩
      refine ⟨?_, ht.updateOctoTree q.2 q.1⟩
      rw [updateOctoTree_branch hbranch, hleaf q (List.mem_cons_of_mem p hq),
        Function.update_self, ht.orNew_eq, Function.update_idem]

/-- The highest octant. -/
def top : Fin 3 → Bool := fun _ => true

/-- The point lies in the part of the cube above the centre, the centre included. -/
def Upper (d : OctoNode) (pw : V3D) : Prop :=
  ∀ j, d.voxelCenter j ≤ pw j ∧ pw j < d.voxelCenter j + 2 * d.quaterLength

lemma upper_centre (hpos : 0 < d.quaterLength) : Upper d d.voxelCenter := by
  intro j
  constructor
  · exact le_rfl
  · linarith

/-- What is above the centre of the highest leaf lies in the highest octant. -/
lemma octant_of_upper {pw : V3D} (hpos : 0 < d.quaterLength) (h : Upper (d.newLeaf top) pw) :
    d.octant pw = top := by
  funext j
  have hlow : d.voxelCenter j + (2 * 1 - 1) * d.quaterLength ≤ pw j := (h j).1
  show decide (d.voxelCenter j < pw j) = true
  rw [decide_eq_true_eq]
  linarith

lemma upper_of_newLeaf {pw : V3D} (hpos : 0 < d.quaterLength) (h : Upper (d.newLeaf top) pw) :
    Upper d pw := by
  intro j
  have hlow : d.voxelCenter j + (2 * 1 - 1) * d.quaterLength ≤ pw j := (h j).1
  have hhigh : pw j < d.voxelCenter j + (2 * 1 - 1) * d.quaterLength + 2 * (d.quaterLength / 2) :=
    (h j).2
  constructor <;> linarith

/-- Filling a waiting node at its centre cuts it, and leaves its highest octant empty. -/
lemma exists_cut (hnew : d.IsNew) (hthr : 0 ≤ d.pointsSizeThreshold) (hlt : d.layer < d.maxLayer) :
    ∃ pts d' leaves, (∀ p ∈ pts, p.1.pointW = d.voxelCenter) ∧
      updates pts (.node d noLeaves) = .node d' leaves ∧ d'.IsBranch ∧ d'.frame = d.frame ∧
      leaves (leafnum top) = .nullptr := by
  let centre : PointWithVar := { pointW := d.voxelCenter }
  let k := d.pointsSizeThreshold.toNat
  obtain ⟨b, heq, hframe, hinit, hpts⟩ := updates_waiting (k := k) hnew.initOcto
    (by rw [hnew.tempPoints, List.length_nil]; omega) noPlaneFit centre
  have hthr' : b.pointsSizeThreshold = d.pointsSizeThreshold :=
    congrArg OctoFrame.pointsSizeThreshold hframe
  have hfull : sizeGt (b.push centre).tempPoints.length (b.push centre).pointsSizeThreshold =
      true := by
    show sizeGt (b.tempPoints ++ [centre]).length b.pointsSizeThreshold = true
    rw [hpts, hnew.tempPoints, hthr']
    simp only [sizeGt, List.nil_append, List.length_append, List.length_replicate,
      List.length_singleton, decide_eq_true_eq]
    omega
  have hcentre : b.voxelCenter = d.voxelCenter :=
    congrArg (fun f : OctoFrame => f.cell.centre) hframe
  have hempty : (b.push centre).pointsIn (leafnum top) = [] := by
    have hall : ∀ pv ∈ (b.push centre).tempPoints, pv = centre := by
      rw [OctoNode.push_tempPoints, hpts, hnew.tempPoints]
      intro pv hpv
      simp only [List.nil_append, List.mem_append, List.mem_replicate, List.mem_singleton] at hpv
      exact hpv.elim And.right id
    refine List.filter_eq_nil_iff.mpr fun pv hpv => ?_
    have hoct : (b.push centre).octant pv.pointW = fun _ => false := by
      funext j
      show decide (b.voxelCenter j < pv.pointW j) = false
      rw [hall pv hpv, hcentre]
      exact decide_eq_false (lt_irrefl _)
    rw [decide_eq_true_eq, OctoNode.leafOf, hoct]
    decide
  have hlt' : b.layer < b.maxLayer := by
    rw [OctoNode.layer_congr hframe, OctoNode.maxLayer_congr hframe]
    exact hlt
  obtain ⟨d', leaves, hcut, hbranch, hframe', hnull⟩ := updateUninit_cut hfull hlt' hempty
  refine ⟨List.replicate k (centre, noPlaneFit) ++ [(centre, noPlaneFit)], d', leaves,
    fun p hp => ?_, ?_, hbranch, hframe'.trans hframe, hnull⟩
  · simp only [List.mem_append, List.mem_replicate, List.mem_singleton] at hp
    rcases hp with ⟨-, rfl⟩ | rfl <;> rfl
  · rw [updates_append, heq, updates_cons]
    show updateOctoTree noPlaneFit centre (.node b noLeaves) = _
    rw [updateOctoTree_uninit hinit, hcut]

/-- **A negative limit lets some node hold any number of points**: `k` layers below a new node
with limits that are reached up to there. -/
lemma exists_hoard (k n : ℕ) (hnew : d.IsNew) (hof : d.frame.Of cfg) (hpos : 0 < d.quaterLength)
    (hlayer : d.layer.toNat + k ≤ cfg.maxLayer.toNat)
    (habove : ∀ l, d.layer.toNat ≤ l → l < d.layer.toNat + k → 0 ≤ cfg.layerInitNum.read l)
    (hlimit : cfg.layerInitNum.read (d.layer.toNat + k) < 0 ∨ cfg.maxPointsNum < 0) :
    ∃ pts : ScanPoints, pts ≠ [] ∧ (∀ p ∈ pts, Upper d p.1.pointW) ∧
      (updates pts (.node d noLeaves)).Any fun b => n < b.tempPoints.length := by
  have hthr : d.pointsSizeThreshold = cfg.layerInitNum.read d.layer.toNat := hof.threshold
  induction k generalizing d with
  | zero =>
      have hmax : d.maxPointsNum = cfg.maxPointsNum := hof.maxPointsNum
      have hhoards : d.Hoards 0 := by
        refine ⟨by simp [hnew.tempPoints], hnew.updateEnable, .inl ⟨hnew.initOcto, ?_⟩⟩
        rw [hthr, hmax]
        exact hlimit
      let centre : PointWithVar := { pointW := d.voxelCenter }
      obtain ⟨d', heq, hheld⟩ := Hoards.updates hhoards centre (n + 1)
      refine ⟨List.replicate (n + 1) (centre, planeFit), by simp, fun p hp => ?_, ?_⟩
      · rw [List.eq_of_mem_replicate hp]
        exact upper_centre hpos
      · rw [heq]
        refine .inl ?_
        have hlen := hheld.held
        omega
  | succ k ih =>
      have hnonneg : 0 ≤ d.layer := hof.layer_nonneg
      have hlt : d.layer < d.maxLayer := by
        have hmaxLayer : d.maxLayer = cfg.maxLayer := hof.maxLayer
        omega
      have hreached : 0 ≤ d.pointsSizeThreshold := by
        rw [hthr]
        exact habove _ le_rfl (by omega)
      obtain ⟨fill, d', leaves, hfill, heq, hbranch, hframe, hnull⟩ := exists_cut hnew hreached hlt
      have hcell : d'.cell = d.cell := congrArg OctoFrame.cell hframe
      have hquater : d'.quaterLength = d.quaterLength := congrArg Cell.quarter hcell
      have hcentre : d'.voxelCenter = d.voxelCenter := congrArg Cell.centre hcell
      have hpos' : 0 < d'.quaterLength := hquater ▸ hpos
      have hof' : (d'.newLeaf top).frame.Of cfg := by
        rw [OctoNode.newLeaf_frame, hframe]
        exact hof.child hlt _
      have hdown : (d'.newLeaf top).layer.toNat = d.layer.toNat + 1 := by
        have hlayer' := OctoNode.layer_congr hframe
        show (d'.layer + 1).toNat = _
        omega
      obtain ⟨pts, hne, hupper, hany⟩ := ih (d := d'.newLeaf top) ⟨rfl, rfl, rfl, rfl, rfl⟩ hof'
        (half_pos hpos') (by omega) (fun l hl hl' => habove l (by omega) (by omega))
        (by rwa [hdown, Nat.add_right_comm]) hof'.threshold
      refine ⟨fill ++ pts, by simp [hne], fun p hp => ?_, ?_⟩
      · rcases List.mem_append.mp hp with hp | hp
        · rw [hfill p hp]
          exact upper_centre hpos
        · have hup := upper_of_newLeaf hpos' (hupper p hp)
          rwa [Upper, hcentre, hquater] at hup
      · rw [updates_append, heq, updates_newLeaf hbranch hnull hne
          fun p hp => octant_of_upper hpos' (hupper p hp)]
        refine .inr ⟨leafnum top, ?_⟩
        rwa [Function.update_self]

end VoxelOctoTree

/-! ## The bound -/

namespace VoxelMapManager

open VoxelOctoTree

variable {m : VoxelMapManager}

/-- Points that all lie in one voxel of an empty map make its root. -/
lemma updateVoxelMap_root {position : VoxelLocation} {pts : ScanPoints} (hne : pts ≠ [])
    (hvoxel : ∀ p ∈ pts, voxelLocation cfg.maxVoxelSize p.1.pointW = position)
    (hnull : m.voxelMap position = .nullptr) :
    (m.updateVoxelMap cfg pts).voxelMap position =
      updates pts (.node (cfg.newRoot position) noLeaves) := by
  have hstep : ∀ (m : VoxelMapManager) (p : PointWithVar × PlaneFit),
      voxelLocation cfg.maxVoxelSize p.1.pointW = position →
      (m.updateRoot cfg p).voxelMap position =
        updateOctoTree p.2 p.1 (cfg.rootOrNew position (m.voxelMap position)) := by
    intro m p hp
    simp only [updateRoot, setRoot, hp, if_true]
  cases pts with
  | nil => exact absurd rfl hne
  | cons p pts =>
      have hfirst : (m.updateRoot cfg p).voxelMap position =
          updateOctoTree p.2 p.1 (.node (cfg.newRoot position) noLeaves) := by
        rw [hstep m p (hvoxel p List.mem_cons_self), hnull]
        rfl
      refine (List.foldl_rel
        (r := fun (m : VoxelMapManager) (t : VoxelOctoTree) => m.voxelMap position = t ∧ Rooted t)
        ⟨hfirst, (Rooted.new _).updateOctoTree p.2 p.1⟩ ?_).1
      rintro q hq m _ ⟨rfl, ht⟩
      refine ⟨?_, ht.updateOctoTree q.2 q.1⟩
      rw [hstep m q (hvoxel q (List.mem_cons_of_mem p hq)), ht.rootOrNew_eq]

/-- The part of the first voxel above its centre lies in the voxel. -/
lemma voxelLocation_of_upper {pw : V3D} (h : Upper (cfg.newRoot 0) pw) :
    voxelLocation cfg.maxVoxelSize pw = 0 := by
  have hpos := cfg.maxVoxelSize_pos
  funext j
  have hlow : (1 / 2 + ((0 : ℤ) : ℚ)) * cfg.maxVoxelSize ≤ pw j := (h j).1
  have hhigh : pw j < (1 / 2 + ((0 : ℤ) : ℚ)) * cfg.maxVoxelSize + 2 * (cfg.maxVoxelSize / 4) :=
    (h j).2
  have hnonneg : 0 ≤ pw j / cfg.maxVoxelSize := by
    apply div_nonneg _ hpos.le
    push_cast at hlow
    linarith
  show voxelKey cfg.maxVoxelSize (pw j) = 0
  rw [voxelKey_of_nonneg hnonneg, Int.floor_eq_zero_iff]
  refine ⟨hnonneg, ?_⟩
  rw [div_lt_one hpos]
  push_cast at hhigh
  linarith

/-- The first layer whose limits are never reached, or the root under a negative
`max_points_num_`.  A missing threshold is one that may be anything. -/
lemma exists_unreached (h : ¬cfg.LimitsNonneg) :
    ∃ behind, ∃ k ≤ cfg.maxLayer.toNat,
      (∀ l < k, 0 ≤ (cfg.behind behind).layerInitNum.read l) ∧
        ((cfg.behind behind).layerInitNum.read k < 0 ∨ cfg.maxPointsNum < 0) := by
  refine ⟨fun _ => -1, ?_⟩
  by_cases hmax : cfg.maxPointsNum < 0
  · exact ⟨0, Nat.zero_le _, fun l hl => absurd hl (Nat.not_lt_zero l), .inr hmax⟩
  · have hex : ∃ l, l ≤ cfg.maxLayer.toNat ∧
        (cfg.behind fun _ => -1).layerInitNum.read l < 0 := by
      by_contra hnone
      push Not at hnone
      refine h ⟨not_lt.mp hmax, fun l hl => ?_⟩
      have hread : 0 ≤ cfg.layerInitNum.nums[l]?.getD (-1) := hnone l hl
      cases hl' : cfg.layerInitNum.nums[l]? with
      | none => simp [hl'] at hread
      | some n => exact ⟨n, rfl, by simpa [hl'] using hread⟩
    obtain ⟨hle, hneg⟩ := Nat.find_spec hex
    refine ⟨Nat.find hex, hle, fun l hl => ?_, .inl hneg⟩
    by_contra hl'
    exact Nat.find_min hex hl ⟨hl.le.trans hle, not_le.mp hl'⟩

/-- **Without non-negative limits one scan can pass the bound.** -/
theorem exists_beyond_bound (h : ¬cfg.LimitsNonneg) : ∃ behind, ∃ pts : ScanPoints,
    ¬(afterUpdates (cfg.behind behind) [pts]).WithinBound (cfg.behind behind) := by
  obtain ⟨behind, k, hle, habove, hlimit⟩ := exists_unreached h
  refine ⟨behind, ?_⟩
  have hle' : k ≤ (cfg.behind behind).maxLayer.toNat := hle
  have hlimit' : (cfg.behind behind).layerInitNum.read k < 0 ∨
      (cfg.behind behind).maxPointsNum < 0 := hlimit
  generalize cfg.behind behind = cfg at habove hle' hlimit' ⊢
  have hquater : 0 < (cfg.newRoot 0).quaterLength := div_pos cfg.maxVoxelSize_pos (by norm_num)
  have hlayer : (cfg.newRoot 0).layer.toNat = 0 := rfl
  obtain ⟨pts, hne, hupper, hany⟩ := exists_hoard k cfg.memoryBound.toNat (newRoot_isNew cfg 0)
    (of_newRoot cfg 0) hquater (by omega) (fun l _ hl => habove l (by omega))
    (by rwa [hlayer, Nat.zero_add])
  refine ⟨pts, fun hbound => ?_⟩
  have hroot : (afterUpdates cfg [pts]).voxelMap 0 =
      updates pts (.node (cfg.newRoot 0) noLeaves) :=
    updateVoxelMap_root hne (fun p hp => voxelLocation_of_upper (hupper p hp)) rfl
  have hevery := hbound 0
  rw [hroot] at hevery
  refine hevery.not_any (fun b _ hb hmore => ?_) hany
  omega

/-- Calls of `UpdateVoxelMap` from an empty map leave every node within the bound, frozen nodes
without points, and frozen nodes frozen in their places. -/
def MemoryBounded (cfg : VoxelMapConfig) : Prop :=
  ∀ scans : List ScanPoints, (afterUpdates cfg scans).WithinBound cfg ∧
    (afterUpdates cfg scans).FrozenEmpty ∧
    ∀ later : List ScanPoints,
      (afterUpdates cfg scans).FrozenStay (afterUpdates cfg (scans ++ later))

/-- **The memory of the octrees.**  It is bounded, whatever the points, the verdicts and what lies
behind the last threshold, exactly if every layer has a threshold and no limit that the map reads
is negative.  The state after each `UpdateOctoTree` is included: it is the one after a scan that
ends there. -/
theorem memory_bounded_iff (cfg : VoxelMapConfig) :
    (∀ behind, MemoryBounded (cfg.behind behind)) ↔ cfg.LimitsNonneg := by
  constructor
  · intro h
    by_contra hcfg
    obtain ⟨behind, pts, hbeyond⟩ := exists_beyond_bound hcfg
    exact hbeyond (h behind [pts]).1
  · intro hcfg behind scans
    have hmem := mapMemory_afterUpdates (hcfg.behind behind) scans
    refine ⟨fun position => ?_, fun position => ?_, frozenStay_afterUpdates _ scans⟩
    · exact (hmem position).mono fun d _ hd => hd.held
    · exact (hmem position).mono fun d _ hd => hd.frozen

lemma halfMetre_pos : (0 : ℚ) < 1 / 2 := by norm_num

/-- The default configuration with `max_points_num: -1`. -/
def noMaxPoints : VoxelMapConfig := { maxVoxelSize_pos := halfMetre_pos, maxPointsNum := -1 }

/-- The same point seven times, and each time the verdict that it lies on a plane. -/
def sevenOnPlane : ScanPoints := List.replicate 7 ({ pointW := ![1 / 8, 1 / 8, 1 / 8] }, planeFit)

/-- The points at the root of an octree. -/
def rootHolds : VoxelOctoTree → ℕ
  | .nullptr => 0
  | .node d _ => d.tempPoints.length

lemma WithinBound.rootHolds_le (h : m.WithinBound cfg) {position : VoxelLocation}
    (hpos : 0 < rootHolds (m.voxelMap position)) :
    (rootHolds (m.voxelMap position) : ℤ) ≤ cfg.memoryBound := by
  have hroot := h position
  cases hm : m.voxelMap position with
  | nullptr => simp [hm, rootHolds] at hpos
  | node d leaves =>
      rw [hm] at hroot
      exact hroot.1

/-- The root then holds seven points, and the bound is six. -/
theorem sevenOnPlane_beyond_bound :
    ¬(afterUpdates noMaxPoints [sevenOnPlane]).WithinBound noMaxPoints := by
  intro h
  have hholds : rootHolds ((afterUpdates noMaxPoints [sevenOnPlane]).voxelMap 0) = 7 := by
    decide +kernel
  have hle := (h.rootHolds_le (by rw [hholds]; decide) : (rootHolds _ : ℤ) ≤ _)
  have hbound : noMaxPoints.memoryBound = 6 := by decide +kernel
  rw [hholds, hbound] at hle
  exact absurd hle (by decide)

end VoxelMapManager

end FastLivo2
