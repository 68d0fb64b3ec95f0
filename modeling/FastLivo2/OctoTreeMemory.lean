import FastLivo2.OctoTreeLookup

/-!
# The memory of the octrees

How many points the nodes of the map hold when it grows by `UpdateVoxelMap` alone.  A node takes a
point at a time, and four comparisons stop it: `points_size_threshold_` turns a waiting node into
a plane or a cut, and `max_points_num_` freezes a plane or a node of the last layer (`>` where a
plane is made and in the last layer, `>=` where a plane is updated).  A cut copies points to the
leaves, which therefore hold no more than the node cut.

`OctoNode.Memory` is what holds of every node between calls; `settled_memory` and
`updateOctoTree_memory` are its steps.  The numbers of the configuration are signed and the sizes
are not: a negative limit is compared as a huge number and never reached.  A node with such a
limit hoards its points (`OctoNode.Hoards`), so the bound on the memory is equivalent to the
limits that the map reads being non-negative.
-/

namespace FastLivo2

variable {cfg : VoxelMapConfig}

namespace VoxelMapConfig

/-- The largest threshold of `layer_init_num`. -/
def largestInitNum (cfg : VoxelMapConfig) : ℤ := cfg.layerInitNum.nums.max?.getD 0

/-- The most points a node is to hold. -/
def memoryBound (cfg : VoxelMapConfig) : ℤ := max cfg.maxPointsNum (1 + cfg.largestInitNum)

/-- No limit that the map reads is missing or negative: `max_points_num` is not negative, and each
layer has a threshold that is not. -/
structure LimitsNonneg (cfg : VoxelMapConfig) : Prop where
  maxPointsNum : 0 ≤ cfg.maxPointsNum
  initNum : ∀ l ≤ cfg.maxLayer.toNat, ∃ n ∈ cfg.layerInitNum.nums[l]?, 0 ≤ n

/-- The same configuration, with something else behind the last threshold. -/
def behind (cfg : VoxelMapConfig) (behind : ℕ → ℤ) : VoxelMapConfig :=
  { cfg with layerInitNum := { cfg.layerInitNum with behind := behind } }

lemma LimitsNonneg.behind (h : cfg.LimitsNonneg) (behind : ℕ → ℤ) :
    (cfg.behind behind).LimitsNonneg := ⟨h.maxPointsNum, h.initNum⟩

lemma le_largestInitNum {n : ℤ} (h : n ∈ cfg.layerInitNum.nums) : n ≤ cfg.largestInitNum := by
  unfold largestInitNum
  cases hmax : cfg.layerInitNum.nums.max? with
  | none => simp [List.max?_eq_none_iff.mp hmax] at h
  | some m => exact (List.max?_eq_some_iff.mp hmax).2 n h

/-- The threshold of a layer is one of the list. -/
lemma LimitsNonneg.read (h : cfg.LimitsNonneg) {l : ℕ} (hl : l ≤ cfg.maxLayer.toNat) :
    0 ≤ cfg.layerInitNum.read l ∧ cfg.layerInitNum.read l ≤ cfg.largestInitNum := by
  obtain ⟨n, hn, hnonneg⟩ := h.initNum l hl
  have hread : cfg.layerInitNum.read l = n := by
    unfold InitNums.read
    rw [List.getD_eq_getElem?_getD, hn, Option.getD_some]
  rw [hread]
  exact ⟨hnonneg, le_largestInitNum (List.mem_of_getElem? hn)⟩

end VoxelMapConfig

/-! ## The invariant of a node -/

/-- The frame of a node allocated under the configuration, in one of the layers of the map. -/
structure OctoFrame.Of (cfg : VoxelMapConfig) (f : OctoFrame) : Prop where
  maxPointsNum : f.maxPointsNum = cfg.maxPointsNum
  maxLayer : f.maxLayer = cfg.maxLayer
  layerInitNum : f.layerInitNum = cfg.layerInitNum
  threshold : f.pointsSizeThreshold = cfg.layerInitNum.read f.layer.toNat
  layer_nonneg : 0 ≤ f.layer
  layer_le : f.layer.toNat ≤ cfg.maxLayer.toNat

namespace OctoFrame

variable {f : OctoFrame}

lemma Of.child (h : f.Of cfg) (hlt : f.layer < f.maxLayer) (i : Fin 8) : (f.child i).Of cfg := by
  have hpos := h.layer_nonneg
  have hmax := h.maxLayer
  refine ⟨h.maxPointsNum, hmax, h.layerInitNum, ?_, ?_, ?_⟩
  · show f.layerInitNum.read (f.layer + 1).toNat = _
    rw [h.layerInitNum]
    rfl
  · show 0 ≤ f.layer + 1
    omega
  · show (f.layer + 1).toNat ≤ _
    omega

lemma Of.threshold_nonneg (h : f.Of cfg) (hcfg : cfg.LimitsNonneg) :
    0 ≤ f.pointsSizeThreshold := by
  rw [h.threshold]
  exact (hcfg.read h.layer_le).1

lemma Of.threshold_lt (h : f.Of cfg) (hcfg : cfg.LimitsNonneg) :
    1 + f.pointsSizeThreshold ≤ cfg.memoryBound := by
  rw [h.threshold]
  have hle := (hcfg.read h.layer_le).2
  exact le_trans (by omega) (le_max_right _ _)

end OctoFrame

lemma not_sizeGt {size : ℕ} {n : ℤ} (hn : 0 ≤ n) (h : sizeGt size n = false) : (size : ℤ) ≤ n := by
  simp only [sizeGt, decide_eq_false_iff_not] at h
  omega

/-- What holds of every node between two calls: it holds no more than the bound, and nothing once
it is frozen; while it waits it is enabled and within its own threshold. -/
structure OctoNode.Memory (cfg : VoxelMapConfig) (d : OctoNode) : Prop where
  frame : d.frame.Of cfg
  held : (d.tempPoints.length : ℤ) ≤ cfg.memoryBound
  frozen : d.updateEnable = false → d.tempPoints = []
  waiting : d.initOcto = false →
    d.updateEnable = true ∧ (d.tempPoints.length : ℤ) ≤ d.pointsSizeThreshold

namespace OctoNode

variable {d d' : OctoNode}

/-- A node that is initialised and enabled has only its own points to answer for. -/
lemma Memory.of_init (hof : d.frame.Of cfg) (hinit : d.initOcto = true)
    (hheld : (d.tempPoints.length : ℤ) ≤ cfg.memoryBound)
    (hfrozen : d.updateEnable = false → d.tempPoints = []) : d.Memory cfg :=
  ⟨hof, hheld, hfrozen, fun h => absurd hinit (by simp [h])⟩

/-- A node that is initialised and has no points is within any bound. -/
lemma Memory.of_nil (hcfg : cfg.LimitsNonneg) (hof : d.frame.Of cfg) (hinit : d.initOcto = true)
    (hpts : d.tempPoints = []) : d.Memory cfg := by
  refine .of_init hof hinit ?_ fun _ => hpts
  rw [hpts]
  exact hcfg.maxPointsNum.trans (le_max_left _ _)

/-- A new node has room for points. -/
lemma IsNew.memory (h : d.IsNew) (hcfg : cfg.LimitsNonneg) (hof : d.frame.Of cfg) :
    d.Memory cfg := by
  have hthr : 0 ≤ d.pointsSizeThreshold := hof.threshold_nonneg hcfg
  refine ⟨hof, ?_, fun _ => h.tempPoints, fun _ => ⟨h.updateEnable, ?_⟩⟩
  · rw [h.tempPoints]
    exact hcfg.maxPointsNum.trans (le_max_left _ _)
  · rw [h.tempPoints]
    exact hthr

lemma length_pointsIn_le (d : OctoNode) (i : Fin 8) :
    (d.pointsIn i).length ≤ d.tempPoints.length :=
  List.length_filter_le _ _

lemma filled_frame (d : OctoNode) (i : Fin 8) : (d.filled i).frame = d.frame.child i := by
  have hnum : leafnum (leafXyz i) = i := by
    revert i
    decide
  have h := d.newLeaf_frame (leafXyz i)
  rw [hnum] at h
  exact h

lemma pushed_frame (d : OctoNode) (fit : PlaneFit) (pv : PointWithVar) :
    ((d.push pv).refit fit).frame = d.frame := by
  rw [refit_frame, push_frame]

lemma pushed_updateEnable (d : OctoNode) (fit : PlaneFit) (pv : PointWithVar) :
    ((d.push pv).refit fit).updateEnable = d.updateEnable := by
  unfold refit
  split_ifs <;> rfl

/-- Pushing a point keeps the invariant of an initialised node while its points fit in
`max_points_num_`. -/
lemma Memory.pushed (h : d.Memory cfg) (hinit : d.initOcto = true) (henable : d.updateEnable = true)
    (fit : PlaneFit) (pv : PointWithVar)
    (hsize : (((d.push pv).refit fit).tempPoints.length : ℤ) ≤ d.maxPointsNum) :
    ((d.push pv).refit fit).Memory cfg := by
  have hmax : d.maxPointsNum = cfg.maxPointsNum := h.frame.maxPointsNum
  refine .of_init ?_ ?_ ?_ fun hfrozen => ?_
  · rw [pushed_frame]
    exact h.frame
  · rw [refit_initOcto]
    exact hinit
  · exact (hsize.trans_eq hmax).trans (le_max_left _ _)
  · rw [pushed_updateEnable, henable] at hfrozen
    cases hfrozen

/-- Freezing after the push keeps the invariant of an initialised node. -/
lemma Memory.pushed_freeze (h : d.Memory cfg) (hcfg : cfg.LimitsNonneg) (hinit : d.initOcto = true)
    (fit : PlaneFit) (pv : PointWithVar) : ((d.push pv).refit fit).freeze.Memory cfg := by
  refine .of_nil hcfg ?_ ?_ (freeze_tempPoints _)
  · rw [freeze_frame, pushed_frame]
    exact h.frame
  · show ((d.push pv).refit fit).initOcto = true
    rw [refit_initOcto]
    exact hinit

/-- A plane that is updated stays below `max_points_num_`, or is frozen. -/
lemma Memory.updatePlane (h : d.Memory cfg) (hcfg : cfg.LimitsNonneg) (hinit : d.initOcto = true)
    (henable : d.updateEnable = true) (fit : PlaneFit) (pv : PointWithVar) :
    (d.updatePlane fit pv).Memory cfg := by
  have hmax : ((d.push pv).refit fit).maxPointsNum = d.maxPointsNum :=
    congrArg OctoFrame.maxPointsNum (d.pushed_frame fit pv)
  have hpos : 0 ≤ d.maxPointsNum := hcfg.maxPointsNum.trans_eq h.frame.maxPointsNum.symm
  simp only [OctoNode.updatePlane]
  split_ifs with hfull
  · exact h.pushed_freeze hcfg hinit fit pv
  · apply h.pushed hinit henable
    simp only [hmax, sizeGe, decide_eq_true_eq] at hfull
    omega

/-- A node of the last layer that is updated stays within `max_points_num_`, or is frozen. -/
lemma Memory.updateLast (h : d.Memory cfg) (hcfg : cfg.LimitsNonneg) (hinit : d.initOcto = true)
    (henable : d.updateEnable = true) (fit : PlaneFit) (pv : PointWithVar) :
    (d.updateLast fit pv).Memory cfg := by
  have hmax : ((d.push pv).refit fit).maxPointsNum = d.maxPointsNum :=
    congrArg OctoFrame.maxPointsNum (d.pushed_frame fit pv)
  have hpos : 0 ≤ d.maxPointsNum := hcfg.maxPointsNum.trans_eq h.frame.maxPointsNum.symm
  simp only [OctoNode.updateLast]
  split_ifs with hfull
  · exact h.pushed_freeze hcfg hinit fit pv
  · apply h.pushed hinit henable
    rw [hmax] at hfull
    exact not_sizeGt hpos (eq_false_of_ne_true hfull)

end OctoNode

/-! ## The invariant of a tree -/

namespace VoxelOctoTree

variable {fit : PlaneFit} {pv : PointWithVar} {d : OctoNode} {t : VoxelOctoTree}

/-- Every node of the tree keeps its memory within the bound. -/
def Memory (cfg : VoxelMapConfig) (t : VoxelOctoTree) : Prop :=
  t.Everywhere fun d _ => d.Memory cfg

lemma memory_noLeaves (h : d.Memory cfg) : Memory cfg (.node d noLeaves) := ⟨h, fun _ => trivial⟩

/-- An initialisation keeps within the bound when the node to be initialised does: each leaf of a
cut gets some of the points of the node cut. -/
lemma Settled.memory (h : Settled d t) (hcfg : cfg.LimitsNonneg) (hof : d.frame.Of cfg)
    (hheld : (d.tempPoints.length : ℤ) ≤ cfg.memoryBound) (henable : d.updateEnable = true) :
    t.Memory cfg := by
  induction h with
  | @few d few =>
      have hwait := not_sizeGt (hof.threshold_nonneg hcfg) few
      exact memory_noLeaves ⟨hof, hheld, by simp [henable], fun _ => ⟨henable, hwait⟩⟩
  | plane kind frame points enable _ =>
      refine memory_noLeaves (.of_init (frame ▸ hof) kind.1 (points ▸ hheld) ?_)
      simp [enable, henable]
  | frozen kind frame points _ =>
      exact memory_noLeaves (.of_nil hcfg (frame ▸ hof) kind.1 points)
  | last kind frame points enable =>
      refine memory_noLeaves (.of_init (frame ▸ hof) kind.1 (points ▸ hheld) ?_)
      simp [enable, henable]
  | @branch d d' leaves kind frame points enable none _ ih =>
      refine ⟨.of_init (frame ▸ hof) kind.1 (points ▸ hheld) (by simp [enable, henable]),
        fun i => ?_⟩
      by_cases hi : d.pointsIn i = []
      · rw [none i hi]
        trivial
      · have hlt : d.layer < d.maxLayer := by
          have hlayer := OctoNode.layer_congr frame
          have hmax := OctoNode.maxLayer_congr frame
          have hkind := kind.2.2
          omega
        have hle := d.length_pointsIn_le i
        refine ih i hi (d.filled_frame i ▸ hof.child hlt i) ?_ rfl
        show ((d.pointsIn i).length : ℤ) ≤ _
        omega

/-- One more point for a waiting node, and the initialisation it may set off. -/
lemma settled_memory (h : d.Memory cfg) (hcfg : cfg.LimitsNonneg) (hinit : d.initOcto = false)
    (hsettled : Settled (d.push pv) t) : t.Memory cfg := by
  obtain ⟨henable, hwait⟩ := h.waiting hinit
  have hthr : 1 + d.pointsSizeThreshold ≤ cfg.memoryBound := h.frame.threshold_lt hcfg
  refine hsettled.memory hcfg h.frame ?_ henable
  rw [OctoNode.push_tempPoints, List.length_append, List.length_singleton]
  push_cast
  omega

/-- **An update keeps every node within the bound**, whatever the verdict. -/
theorem Memory.updateOctoTree (h : t.Memory cfg) (hcfg : cfg.LimitsNonneg) (htidy : t.Tidy)
    (fit : PlaneFit) (pv : PointWithVar) : (updateOctoTree fit pv t).Memory cfg := by
  refine updateOctoTree_rule (P := fun t u => t.Memory cfg → u.Memory cfg)
    id ?waiting ?plane ?last ?frozen ?branch htidy h
  case waiting => exact fun d t hinit hsettled hmem => settled_memory hmem.1 hcfg hinit hsettled
  case plane =>
    exact fun d hplane henable hmem =>
      memory_noLeaves (hmem.1.updatePlane hcfg hplane.1 henable fit pv)
  case last =>
    exact fun d hlast henable hmem =>
      memory_noLeaves (hmem.1.updateLast hcfg hlast.1 henable fit pv)
  case frozen => exact fun d _ => id
  case branch =>
    intro d leaves t hbranch ih hmem
    refine ⟨hmem.1, PTree.everywhere_update hmem.2 _ (ih ?_)⟩
    cases hi : leaves (d.leafOf pv.pointW) with
    | nullptr =>
        have hof : (d.newLeaf (d.octant pv.pointW)).frame.Of cfg := by
          rw [OctoNode.newLeaf_octant_frame]
          exact hmem.1.frame.child hbranch.2.2 _
        have hnew : (d.newLeaf (d.octant pv.pointW)).IsNew := ⟨rfl, rfl, rfl, rfl, rfl⟩
        exact memory_noLeaves (hnew.memory hcfg hof)
    | node b kids =>
        have hb := hmem.2 (d.leafOf pv.pointW)
        rwa [hi] at hb

/-! ## Frozen nodes stay -/

/-- A node that is frozen is frozen later. -/
def StaysFrozen (d d' : OctoNode) : Prop := d.updateEnable = false → d'.updateEnable = false

lemma staysFrozen_of_eq {d d' : OctoNode} (h : d'.updateEnable = d.updateEnable) :
    StaysFrozen d d' :=
  h.trans

lemma staysFrozen_trans (a b c : OctoNode) (hab : StaysFrozen a b) (hbc : StaysFrozen b c) :
    StaysFrozen a c :=
  fun ha => hbc (hab ha)

/-- An initialisation freezes nodes and frees none. -/
lemma Settled.extends (h : Settled d t) : PTree.Extends StaysFrozen (.node d noLeaves) t := by
  have hleaves : ∀ leaves : Leaves, ∀ i, (noLeaves i).Extends StaysFrozen (leaves i) :=
    fun _ _ => PTree.nullptr_extends
  cases h with
  | few => exact PTree.Extends.refl (fun _ => id) _
  | plane _ _ _ enable _ => exact ⟨staysFrozen_of_eq enable, hleaves _⟩
  | frozen _ _ _ enable => exact ⟨fun _ => enable, hleaves _⟩
  | last _ _ _ enable => exact ⟨staysFrozen_of_eq enable, hleaves _⟩
  | branch _ _ _ enable _ _ => exact ⟨staysFrozen_of_eq enable, hleaves _⟩

/-- An update of an initialised node freezes it or leaves it as it is. -/
lemma extends_noLeaves {d d' : OctoNode}
    (h : d' = (d.push pv).refit fit ∨ d' = ((d.push pv).refit fit).freeze) :
    PTree.Extends StaysFrozen (.node d noLeaves) (.node d' noLeaves) := by
  refine ⟨?_, fun _ => PTree.nullptr_extends⟩
  rcases h with rfl | rfl
  · exact staysFrozen_of_eq (d.pushed_updateEnable fit pv)
  · exact fun _ => rfl

/-- **A frozen node stays frozen through an update**, and keeps its place in the tree. -/
theorem extends_updateOctoTree (htidy : t.Tidy) (fit : PlaneFit) (pv : PointWithVar) :
    t.Extends StaysFrozen (updateOctoTree fit pv t) := by
  refine updateOctoTree_rule (P := PTree.Extends StaysFrozen)
    PTree.nullptr_extends ?waiting ?plane ?last ?frozen ?branch htidy
  case waiting =>
    intro d t _ hsettled
    have hpush : PTree.Extends StaysFrozen (.node d noLeaves) (.node (d.push pv) noLeaves) :=
      ⟨id, fun _ => PTree.nullptr_extends⟩
    exact hpush.trans staysFrozen_trans hsettled.extends
  case plane => exact fun d _ _ => extends_noLeaves (d.updatePlane_cases fit pv)
  case last => exact fun d _ _ => extends_noLeaves (d.updateLast_cases fit pv)
  case frozen => exact fun d _ => PTree.Extends.refl (fun _ => id) _
  case branch =>
    intro d leaves t _ ih
    refine ⟨id, PTree.extends_update (fun _ => id) _ ?_⟩
    cases hi : leaves (d.leafOf pv.pointW) with
    | nullptr => exact PTree.nullptr_extends
    | node b kids => rwa [hi] at ih

end VoxelOctoTree

/-! ## Runs of the map -/

namespace VoxelMapManager

open VoxelOctoTree

variable {m : VoxelMapManager}

/-- The map after calls of `UpdateVoxelMap` alone, from an empty map. -/
def afterUpdates (cfg : VoxelMapConfig) (scans : List ScanPoints) : VoxelMapManager :=
  after cfg (scans.map .update)

/-- No node of the map holds more points than the bound. -/
def WithinBound (cfg : VoxelMapConfig) (m : VoxelMapManager) : Prop :=
  ∀ position, (m.voxelMap position).Everywhere fun d _ =>
    (d.tempPoints.length : ℤ) ≤ cfg.memoryBound

/-- A frozen node of the map holds no points. -/
def FrozenEmpty (m : VoxelMapManager) : Prop :=
  ∀ position, (m.voxelMap position).Everywhere fun d _ =>
    d.updateEnable = false → d.tempPoints = []

/-- The nodes of the map keep their places in a later map, and the frozen ones are frozen. -/
def FrozenStay (m m' : VoxelMapManager) : Prop :=
  ∀ position, (m.voxelMap position).Extends StaysFrozen (m'.voxelMap position)

lemma FrozenStay.trans {m' m'' : VoxelMapManager} (h : m.FrozenStay m') (h' : m'.FrozenStay m'') :
    m.FrozenStay m'' :=
  fun position => (h position).trans staysFrozen_trans (h' position)

/-- Every node of the map keeps its invariant. -/
def MapMemory (cfg : VoxelMapConfig) (m : VoxelMapManager) : Prop :=
  ∀ position, (m.voxelMap position).Memory cfg

lemma RootsRun.tidy (h : m.RootsRun) (position : VoxelLocation) :
    (m.voxelMap position).Tidy := by
  rcases h position with hnull | hrun
  · rw [hnull]
    trivial
  · exact tidy_of_run hrun

lemma tidy_rootOrNew (cfg : VoxelMapConfig) (position : VoxelLocation) {t : VoxelOctoTree}
    (h : t.Tidy) : (cfg.rootOrNew position t).Tidy := by
  cases t with
  | nullptr => exact tidy_noLeaves _
  | node d leaves => exact h

lemma of_newRoot (cfg : VoxelMapConfig) (position : VoxelLocation) :
    (cfg.newRoot position).frame.Of cfg :=
  ⟨rfl, rfl, rfl, rfl, le_rfl, Nat.zero_le _⟩

lemma memory_rootOrNew (hcfg : cfg.LimitsNonneg) (position : VoxelLocation) {t : VoxelOctoTree}
    (h : t.Memory cfg) : (cfg.rootOrNew position t).Memory cfg := by
  cases t with
  | nullptr =>
      exact memory_noLeaves ((newRoot_isNew cfg position).memory hcfg (of_newRoot cfg position))
  | node d leaves => exact h

/-- A point of `UpdateVoxelMap` keeps the invariant of the map. -/
lemma MapMemory.updateRoot (h : m.MapMemory cfg) (hcfg : cfg.LimitsNonneg) (hrun : m.RootsRun)
    (p : PointWithVar × PlaneFit) : (m.updateRoot cfg p).MapMemory cfg := by
  intro k
  simp only [VoxelMapManager.updateRoot, setRoot]
  split_ifs
  · exact (memory_rootOrNew hcfg _ (h _)).updateOctoTree hcfg (tidy_rootOrNew cfg _ (hrun.tidy _))
      p.2 p.1
  · exact h k

/-- Frozen nodes stay frozen through a point of `UpdateVoxelMap`. -/
lemma RootsRun.frozenStay_updateRoot (h : m.RootsRun) (cfg : VoxelMapConfig)
    (p : PointWithVar × PlaneFit) : m.FrozenStay (m.updateRoot cfg p) := by
  intro k
  simp only [updateRoot, setRoot]
  split_ifs with heq
  · subst heq
    have htidy := h.tidy (voxelLocation cfg.maxVoxelSize p.1.pointW)
    cases hroot : m.voxelMap (voxelLocation cfg.maxVoxelSize p.1.pointW) with
    | nullptr => exact PTree.nullptr_extends
    | node d leaves =>
        rw [hroot] at htidy
        exact extends_updateOctoTree htidy p.2 p.1
  · exact PTree.Extends.refl (fun _ => id) _

lemma RootsRun.updateRoot (h : m.RootsRun) (cfg : VoxelMapConfig) (p : PointWithVar × PlaneFit) :
    (m.updateRoot cfg p).RootsRun :=
  h.updateVoxelMap cfg [p]

/-- A call of `UpdateVoxelMap` keeps the invariant of the map. -/
lemma MapMemory.updateVoxelMap (h : m.MapMemory cfg) (hcfg : cfg.LimitsNonneg) (hrun : m.RootsRun)
    (pts : ScanPoints) : (m.updateVoxelMap cfg pts).MapMemory cfg := by
  unfold VoxelMapManager.updateVoxelMap
  induction pts generalizing m with
  | nil => exact h
  | cons p pts ih => exact ih (h.updateRoot hcfg hrun p) (hrun.updateRoot cfg p)

/-- Frozen nodes stay frozen through a call of `UpdateVoxelMap`. -/
lemma RootsRun.frozenStay_updateVoxelMap (h : m.RootsRun) (cfg : VoxelMapConfig)
    (pts : ScanPoints) : m.FrozenStay (m.updateVoxelMap cfg pts) := by
  unfold VoxelMapManager.updateVoxelMap
  induction pts generalizing m with
  | nil => exact fun _ => PTree.Extends.refl (fun _ => id) _
  | cons p pts ih => exact (h.frozenStay_updateRoot cfg p).trans (ih (h.updateRoot cfg p))

/-! From the empty map on. -/

lemma afterUpdates_snoc (cfg : VoxelMapConfig) (scans : List ScanPoints) (pts : ScanPoints) :
    afterUpdates cfg (scans ++ [pts]) = (afterUpdates cfg scans).updateVoxelMap cfg pts := by
  simp only [afterUpdates, after, List.map_append, List.foldl_append]
  rfl

lemma rootsRun_afterUpdates (cfg : VoxelMapConfig) (scans : List ScanPoints) :
    (afterUpdates cfg scans).RootsRun := by
  induction scans using List.reverseRecOn with
  | nil => exact fun _ => .inl rfl
  | append_singleton scans pts ih =>
      rw [afterUpdates_snoc]
      exact ih.updateVoxelMap cfg pts

lemma mapMemory_afterUpdates (hcfg : cfg.LimitsNonneg) (scans : List ScanPoints) :
    (afterUpdates cfg scans).MapMemory cfg := by
  induction scans using List.reverseRecOn with
  | nil => exact fun _ => trivial
  | append_singleton scans pts ih =>
      rw [afterUpdates_snoc]
      exact ih.updateVoxelMap hcfg (rootsRun_afterUpdates cfg scans) pts

/-- **A frozen node stays frozen in every later map.** -/
theorem frozenStay_afterUpdates (cfg : VoxelMapConfig) (scans later : List ScanPoints) :
    (afterUpdates cfg scans).FrozenStay (afterUpdates cfg (scans ++ later)) := by
  induction later using List.reverseRecOn with
  | nil =>
      rw [List.append_nil]
      exact fun _ => PTree.Extends.refl (fun _ => id) _
  | append_singleton later pts ih =>
      rw [← List.append_assoc, afterUpdates_snoc]
      exact ih.trans ((rootsRun_afterUpdates cfg _).frozenStay_updateVoxelMap cfg pts)

end VoxelMapManager

end FastLivo2
