import FastLivo2.OctoTreeRuns
import FastLivo2.VoxelMap

/-!
# Reads find what updates write

`find_correspond` walks down by the same octants as `UpdateOctoTree`, but stops by a condition of
its own.  A tree *answers* for a point when the node the lookup ends in stores the point or is
frozen.  A tree just settled answers for each of its points, by induction on the outcome, and an
update either settles a node or changes one that answers for itself.
-/

namespace FastLivo2

namespace VoxelOctoTree

/-- The node that the lookup of the point ends in stores the point, or is frozen. -/
def Answers (pv : PointWithVar) (t : VoxelOctoTree) : Prop :=
  ∃ d leaves, findCorrespond pv.pointW t = .node d leaves ∧
    (pv ∈ d.tempPoints ∨ d.updateEnable = false)

/-- A node that is no branch answers for what it stores. -/
lemma answers_self {pv : PointWithVar} {d : OctoNode} {leaves : Leaves} (hkind : ¬d.IsBranch)
    (h : pv ∈ d.tempPoints ∨ d.updateEnable = false) : Answers pv (.node d leaves) :=
  ⟨d, leaves, findCorrespond_self hkind, h⟩

/-- A branch answers when the leaf of the point's octant does. -/
lemma Answers.branch {pv : PointWithVar} {d : OctoNode} {leaves : Leaves} (hkind : d.IsBranch)
    (h : Answers pv (leaves (d.leafOf pv.pointW))) : Answers pv (.node d leaves) := by
  obtain ⟨b, kids, hfind, hb⟩ := h
  refine ⟨b, kids, ?_, hb⟩
  rw [findCorrespond_branch hkind]
  cases hleaf : leaves (d.leafOf pv.pointW) with
  | nullptr =>
      rw [hleaf] at hfind
      cases hfind
  | node c grandkids =>
      rw [hleaf] at hfind
      simpa using hfind

end VoxelOctoTree

namespace OctoNode

lemma not_isBranch_of_uninit {d : OctoNode} (h : d.initOcto = false) : ¬d.IsBranch :=
  fun hb => by simp [hb.1] at h

lemma IsPlaneNode.not_isBranch {d : OctoNode} (h : d.IsPlaneNode) : ¬d.IsBranch :=
  fun hb => absurd h.2 (by simp [hb.2.1])

lemma IsLast.not_isBranch {d : OctoNode} (h : d.IsLast) : ¬d.IsBranch :=
  fun hb => absurd hb.2.2 (not_lt.mpr h.2.2)

/-- The octant of a point depends on the cube only. -/
lemma leafOf_congr {d d' : OctoNode} (h : d'.frame = d.frame) (pw : V3D) :
    d'.leafOf pw = d.leafOf pw := by
  have hcentre : d'.voxelCenter = d.voxelCenter :=
    congrArg (fun f : OctoFrame => f.cell.centre) h
  have hoctant : d'.octant pw = d.octant pw := by
    unfold octant
    rw [hcentre]
  rw [leafOf, hoctant, leafOf]

/-- A node that has just taken a point and was perhaps re-fitted stores it, or is frozen. -/
lemma stores_of_refit {d d' : OctoNode} {fit : PlaneFit} {pv : PointWithVar}
    (h : d' = (d.push pv).refit fit ∨ d' = ((d.push pv).refit fit).freeze) :
    pv ∈ d'.tempPoints ∨ d'.updateEnable = false := by
  rcases h with rfl | rfl
  · exact .inl (by simp)
  · exact .inr rfl

end OctoNode

namespace VoxelOctoTree

/-- A tree just settled answers for each of its points, if the node was enabled. -/
lemma Settled.answers {d : OctoNode} {t : VoxelOctoTree} (h : Settled d t)
    (hinit : d.initOcto = false) {pv : PointWithVar} (hpv : pv ∈ d.tempPoints) : Answers pv t := by
  induction h with
  | few => exact answers_self (OctoNode.not_isBranch_of_uninit hinit) (.inl hpv)
  | plane kind _ points => exact answers_self kind.not_isBranch (.inl (points ▸ hpv))
  | frozen kind _ _ enable => exact answers_self kind.not_isBranch (.inr enable)
  | last kind _ points => exact answers_self kind.not_isBranch (.inl (points ▸ hpv))
  | @branch d d' leaves kind frame _ _ _ _ ih =>
      refine Answers.branch kind ?_
      rw [OctoNode.leafOf_congr frame]
      have hmem := OctoNode.mem_pointsIn hpv
      exact ih _ (List.ne_nil_of_mem hmem) rfl hmem

/-- The root of a tidy tree that is no branch answers after an update, whatever the re-fit. -/
lemma answers_refit {d d' : OctoNode} {fit : PlaneFit} {pv : PointWithVar}
    (h : d' = (d.push pv).refit fit ∨ d' = ((d.push pv).refit fit).freeze) :
    Answers pv (.node d' noLeaves) := by
  refine ⟨d', noLeaves, ?_, OctoNode.stores_of_refit h⟩
  by_cases hbranch : d'.IsBranch
  · rw [findCorrespond_branch hbranch]
    rfl
  · exact findCorrespond_self hbranch

/-- A frozen node without leaves answers for every point. -/
lemma answers_frozen {d : OctoNode} {pv : PointWithVar} (h : d.updateEnable = false) :
    Answers pv (.node d noLeaves) := by
  refine ⟨d, noLeaves, ?_, .inr h⟩
  by_cases hbranch : d.IsBranch
  · rw [findCorrespond_branch hbranch]
    rfl
  · exact findCorrespond_self hbranch

/-- **After an update of a tidy tree the lookup of the point finds it, or a frozen node.** -/
theorem answers_updateOctoTree {t : VoxelOctoTree} (h : t.Tidy) (hnull : t ≠ .nullptr)
    (fit : PlaneFit) (pv : PointWithVar) : Answers pv (updateOctoTree fit pv t) := by
  refine updateOctoTree_rule (P := fun t u => t ≠ .nullptr → Answers pv u)
    (absurd rfl) ?waiting ?plane ?last ?frozen ?branch h hnull
  case waiting => exact fun d t hinit hsettled _ => hsettled.answers hinit (by simp)
  case plane => exact fun d _ _ _ => answers_refit (d.updatePlane_cases fit pv)
  case last => exact fun d _ _ _ => answers_refit (d.updateLast_cases fit pv)
  case frozen => exact fun d hfrozen _ => answers_frozen hfrozen
  case branch =>
    intro d leaves t hbranch ih _
    refine Answers.branch hbranch ?_
    rw [Function.update_self]
    refine ih ?_
    cases leaves (d.leafOf pv.pointW) with
    | nullptr => exact PTree.node_ne_nullptr
    | node b kids => exact PTree.node_ne_nullptr

/-- **Updates and lookups agree.**  On every octree that calls can reach, whatever the plane
verdicts on the way, right after an update with a point the node `find_correspond` returns for it
stores the point or is frozen. -/
theorem findCorrespond_after_update {t : VoxelOctoTree} (h : OctoRun (fun _ _ => True) t)
    (fit : PlaneFit) (pv : PointWithVar) :
    ∃ d leaves, findCorrespond pv.pointW (updateOctoTree fit pv t) = .node d leaves ∧
      (pv ∈ d.tempPoints ∨ d.updateEnable = false) :=
  answers_updateOctoTree (tidy_of_run h) (ne_nullptr_of_run h) fit pv

/-- The node a point is found in: its layer, whether it takes points, and how many it stores. -/
def found (pw : V3D) (t : VoxelOctoTree) : Option (ℤ × Bool × ℕ) :=
  match findCorrespond pw t with
  | .nullptr => none
  | .node d _ => some (d.layer, d.updateEnable, d.tempPoints.length)

/-- Points crowding into one corner: the sixth cuts the root, the twelfth rejects the plane below
it, the thirteenth makes a leaf that was missing, and with the twenty-sixth that one freezes. -/
theorem findCorrespond_cornerTree :
    (Answers (cornerPoint 5) (updateOctoTree cornerFit (cornerPoint 5) (cornerTree 5)) ∧
      Answers (cornerPoint 11) (updateOctoTree cornerFit (cornerPoint 11) (cornerTree 11)) ∧
      Answers (cornerPoint 12) (updateOctoTree cornerFit (cornerPoint 12) (cornerTree 12)) ∧
      Answers (cornerPoint 25) (updateOctoTree cornerFit (cornerPoint 25) (cornerTree 25))) ∧
    [5, 6, 12, 13, 25, 26].map (fun n => found (cornerPoint 0).pointW (cornerTree n)) =
      [some (0, true, 5), some (1, true, 6), some (1, true, 12), some (2, true, 1),
        some (2, true, 13), some (2, false, 0)] := by
  have hrun : ∀ n, OctoRun (fun _ _ => True) (cornerTree n) := fun n =>
    octoRun_updates (.new twoLayerRoot_isNew) (updatesMeet_true _ _)
  refine ⟨⟨?_, ?_, ?_, ?_⟩, by decide +kernel⟩
  · exact findCorrespond_after_update (hrun 5) cornerFit (cornerPoint 5)
  · exact findCorrespond_after_update (hrun 11) cornerFit (cornerPoint 11)
  · exact findCorrespond_after_update (hrun 12) cornerFit (cornerPoint 12)
  · exact findCorrespond_after_update (hrun 25) cornerFit (cornerPoint 25)

end VoxelOctoTree

/-! ## The map makes such runs -/

namespace VoxelMapManager

open VoxelOctoTree

/-- Every root of the map is one that a run reaches. -/
def RootsRun (m : VoxelMapManager) : Prop :=
  ∀ position, m.voxelMap position = .nullptr ∨
    OctoRun (fun _ _ => True) (m.voxelMap position)

/-- Besides, none is initialised yet. -/
def RootsPushed (m : VoxelMapManager) : Prop :=
  ∀ position, m.voxelMap position = .nullptr ∨
    (OctoRun (fun _ _ => True) (m.voxelMap position) ∧ (m.voxelMap position).Uninit)

lemma newRoot_isNew (cfg : VoxelMapConfig) (position : VoxelLocation) :
    (cfg.newRoot position).IsNew :=
  ⟨rfl, rfl, rfl, rfl, rfl⟩

lemma octoRun_rootOrNew (cfg : VoxelMapConfig) (position : VoxelLocation) {t : VoxelOctoTree}
    (h : t = .nullptr ∨ OctoRun (fun _ _ => True) t) :
    OctoRun (fun _ _ => True) (cfg.rootOrNew position t) := by
  rcases h with rfl | h
  · exact .new (newRoot_isNew cfg position)
  · cases t with
    | nullptr => exact absurd rfl (ne_nullptr_of_run h)
    | node d leaves => exact h

lemma uninit_rootOrNew (cfg : VoxelMapConfig) (position : VoxelLocation) {t : VoxelOctoTree}
    (h : t = .nullptr ∨ t.Uninit) : (cfg.rootOrNew position t).Uninit := by
  rcases h with rfl | h
  · exact rfl
  · cases t with
    | nullptr => exact h.elim
    | node d leaves => exact h

lemma uninit_pushPoint {t : VoxelOctoTree} (h : t.Uninit) (pv : PointWithVar) :
    (t.pushPoint pv).Uninit := by
  cases t with
  | nullptr => exact h
  | node d leaves => exact h

lemma RootsPushed.pushRoot {m : VoxelMapManager} (h : m.RootsPushed) (cfg : VoxelMapConfig)
    (pv : PointWithVar) : (m.pushRoot cfg pv).RootsPushed := by
  intro k
  simp only [VoxelMapManager.pushRoot, setRoot]
  split_ifs with heq
  · have hold := h (voxelLocation cfg.maxVoxelSize pv.pointW)
    have huninit := uninit_rootOrNew cfg (voxelLocation cfg.maxVoxelSize pv.pointW)
      (hold.imp_right And.right)
    exact .inr ⟨(octoRun_rootOrNew cfg _ (hold.imp_right And.left)).push huninit pv trivial,
      uninit_pushPoint huninit pv⟩
  · exact h k

lemma RootsPushed.buildVoxelMap {m : VoxelMapManager} (h : m.RootsPushed) (cfg : VoxelMapConfig)
    (fit : PlaneFit) (inputPoints : List PointWithVar) :
    (m.buildVoxelMap cfg fit inputPoints).RootsRun := by
  have hpushed : (inputPoints.foldl (VoxelMapManager.pushRoot cfg) m).RootsPushed := by
    induction inputPoints generalizing m with
    | nil => exact h
    | cons pv pts ih => exact ih (h.pushRoot cfg pv)
  intro position
  rcases hpushed position with hnull | ⟨hrun, huninit⟩
  · refine .inl ?_
    simp only [VoxelMapManager.buildVoxelMap, hnull]
    rfl
  · exact .inr (hrun.init huninit fit trivial)

lemma RootsRun.updateVoxelMap {m : VoxelMapManager} (h : m.RootsRun) (cfg : VoxelMapConfig)
    (inputPoints : List (PointWithVar × PlaneFit)) :
    (m.updateVoxelMap cfg inputPoints).RootsRun := by
  unfold VoxelMapManager.updateVoxelMap
  induction inputPoints generalizing m with
  | nil => exact h
  | cons p pts ih =>
      refine ih fun k => ?_
      simp only [updateRoot, setRoot]
      split_ifs
      · exact .inr ((octoRun_rootOrNew cfg _ (h _)).update p.2 p.1 trivial)
      · exact h k

lemma RootsRun.mapSliding {m : VoxelMapManager} (h : m.RootsRun) (cfg : VoxelMapConfig)
    (positionLast : V3D) : (m.mapSliding cfg positionLast).RootsRun := by
  intro position
  obtain hnull | hkept := mapSliding_root cfg m positionLast position
  · exact .inl hnull
  · rw [hkept]
    exact h position

/-- **The roots of the map are reached by runs.**  The node builds the map once, on the first
scan, and from then on updates and slides it. -/
theorem rootsRun_after (cfg : VoxelMapConfig) (fit : PlaneFit) (inputPoints : List PointWithVar)
    {calls : List VoxelMapCall} (hcalls : ∀ fit pts, .build fit pts ∉ calls) :
    (after cfg (.build fit inputPoints :: calls)).RootsRun := by
  have hbuilt : (buildVoxelMap cfg fit inputPoints {}).RootsRun :=
    RootsPushed.buildVoxelMap (fun _ => .inl rfl) cfg fit inputPoints
  change (calls.foldl (call cfg) (buildVoxelMap cfg fit inputPoints {})).RootsRun
  generalize buildVoxelMap cfg fit inputPoints {} = m at hbuilt
  induction calls generalizing m with
  | nil => exact hbuilt
  | cons c calls ih =>
      refine ih (fun fit pts hmem => hcalls fit pts (List.mem_cons_of_mem _ hmem)) _ ?_
      cases c with
      | build fit pts => exact absurd (List.mem_cons_self ..) (hcalls fit pts)
      | update pts => exact hbuilt.updateVoxelMap cfg pts
      | slide positionLast => exact hbuilt.mapSliding cfg positionLast

end VoxelMapManager

end FastLivo2
