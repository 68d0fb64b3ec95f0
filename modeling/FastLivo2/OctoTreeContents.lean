import FastLivo2.VoxelMap
import FastLivo2.Lib.Fold

/-!
# What the nodes of the map hold

A node keeps points that callers gave it and a plane that was fitted to such points.  So when the
points given satisfy `Q`, and a fit of points that satisfy `Q` satisfies `P`, every point kept in
the map satisfies `Q` and every plane satisfies `P`, through every call on the map
(`VoxelMapManager.holds_after`).
-/

namespace FastLivo2

/-- The plane of a node satisfies `P` and its points satisfy `Q`. -/
structure OctoNode.Holds (P : VoxelPlane → Prop) (Q : PointWithVar → Prop) (d : OctoNode) :
    Prop where
  plane : P d.plane
  points : ∀ pv ∈ d.tempPoints, Q pv

namespace OctoNode

variable {P : VoxelPlane → Prop} {Q : PointWithVar → Prop} {fit : PlaneFit} {d : OctoNode}

/-- A fit of points that satisfy `Q` gives a plane that satisfies `P`. -/
def FitGives (P : VoxelPlane → Prop) (Q : PointWithVar → Prop) (fit : PlaneFit) : Prop :=
  ∀ d : OctoNode, (∀ pv ∈ d.tempPoints, Q pv) → P (fit d)

namespace Holds

lemma push (h : d.Holds P Q) {pv : PointWithVar} (hpv : Q pv) : (d.push pv).Holds P Q := by
  refine ⟨h.plane, fun q hq => ?_⟩
  rcases List.mem_append.mp hq with hq | hq
  · exact h.points q hq
  · rwa [List.mem_singleton.mp hq]

lemma initPlane (hfit : FitGives P Q fit) (h : d.Holds P Q) : (d.initPlane fit).Holds P Q :=
  ⟨hfit d h.points, h.points⟩

lemma freeze (h : d.Holds P Q) : d.freeze.Holds P Q := ⟨h.plane, fun _ hq => absurd hq (by
  simp [OctoNode.freeze])⟩

lemma refit (hfit : FitGives P Q fit) (h : d.Holds P Q) : (d.refit fit).Holds P Q := by
  unfold OctoNode.refit
  split_ifs
  · exact ⟨hfit d h.points, h.points⟩
  · exact h

lemma updatePlane (hfit : FitGives P Q fit) (h : d.Holds P Q) {pv : PointWithVar} (hpv : Q pv) :
    (d.updatePlane fit pv).Holds P Q := by
  have hrefit := (h.push hpv).refit hfit
  unfold OctoNode.updatePlane
  dsimp only
  split_ifs
  · exact hrefit.freeze
  · exact hrefit

lemma updateLast (hfit : FitGives P Q fit) (h : d.Holds P Q) {pv : PointWithVar} (hpv : Q pv) :
    (d.updateLast fit pv).Holds P Q := by
  have hrefit := (h.push hpv).refit hfit
  unfold OctoNode.updateLast
  dsimp only
  split_ifs
  · exact hrefit.freeze
  · exact hrefit

lemma afterCut (h : d.Holds P Q) (frozen : Bool) : (d.afterCut frozen).Holds P Q := by
  unfold OctoNode.afterCut
  split_ifs
  · exact ⟨h.plane, h.points⟩
  · exact h

end Holds

end OctoNode

namespace VoxelOctoTree

open OctoNode (FitGives)

variable {P : VoxelPlane → Prop} {Q : PointWithVar → Prop} {fit : PlaneFit} {d : OctoNode}
  {leaves : Leaves} {t : VoxelOctoTree} {pv : PointWithVar}

/-- Every node of the tree holds a plane that satisfies `P` and points that satisfy `Q`. -/
def Holds (P : VoxelPlane → Prop) (Q : PointWithVar → Prop) (t : VoxelOctoTree) : Prop :=
  t.Everywhere fun d _ => d.Holds P Q

lemma holds_new (hnew : P {}) (xyz : Fin 3 → Bool) :
    Holds P Q (.node (d.newLeaf xyz) fun _ => .nullptr) :=
  ⟨⟨hnew, fun _ hq => absurd hq List.not_mem_nil⟩, fun _ => trivial⟩

lemma Holds.pushPoint (h : t.Holds P Q) (hpv : Q pv) : (t.pushPoint pv).Holds P Q := by
  cases t with
  | nullptr => exact h
  | node d leaves => exact ⟨h.1.push hpv, h.2⟩

lemma Holds.orNew (hnew : P {}) (h : t.Holds P Q) (d : OctoNode) (xyz : Fin 3 → Bool) :
    (orNew d xyz t).Holds P Q := by
  cases t with
  | nullptr => exact holds_new hnew xyz
  | node b kids => exact h

lemma holds_pushLeaf (hnew : P {}) (h : ∀ i, (leaves i).Holds P Q) (hpv : Q pv) (i : Fin 8) :
    (pushLeaf d leaves pv i).Holds P Q :=
  PTree.everywhere_update h _ (((h _).orNew hnew d _).pushPoint hpv) i

lemma holds_distribute (hnew : P {}) (hpoints : ∀ pv ∈ d.tempPoints, Q pv)
    (h : ∀ i, (leaves i).Holds P Q) : ∀ i, (distribute d leaves i).Holds P Q := by
  refine (foldl_rule (P := fun (l : List PointWithVar) (leaves : Leaves) =>
    (∀ pv ∈ l, Q pv) ∧ ∀ i, (leaves i).Holds P Q) ?_ ⟨hpoints, h⟩).2
  rintro pv l leaves ⟨hl, hleaves⟩
  exact ⟨fun q hq => hl q (List.mem_cons_of_mem pv hq),
    holds_pushLeaf hnew hleaves (hl pv List.mem_cons_self)⟩

/-- Settling keeps the contents when the cut does. -/
lemma Holds.settle {cut : OctoNode → Leaves → VoxelOctoTree} (hfit : FitGives P Q fit)
    (hcut : ∀ d leaves, Holds P Q (.node d leaves) → (cut d leaves).Holds P Q)
    (h : t.Holds P Q) : (settle cut fit t).Holds P Q := by
  cases t with
  | nullptr => exact h
  | node d leaves =>
      have hplane := h.1.initPlane hfit
      simp only [VoxelOctoTree.settle]
      split_ifs
      · exact ⟨⟨hplane.plane, hplane.freeze.points⟩, h.2⟩
      · exact ⟨⟨hplane.plane, hplane.points⟩, h.2⟩
      · have hcut' := hcut { d.initPlane fit with octoState := 1 } leaves
          ⟨⟨hplane.plane, hplane.points⟩, h.2⟩
        split
        · trivial
        · rename_i heq
          rw [heq] at hcut'
          exact ⟨⟨hcut'.1.plane, hcut'.1.points⟩, hcut'.2⟩
      · exact h

lemma Holds.cutOctoTree (hnew : P {}) (hfit : FitGives P Q fit) (fuel : ℕ)
    (h : Holds P Q (.node d leaves)) : (cutOctoTree fit fuel d leaves).Holds P Q := by
  induction fuel generalizing d leaves with
  | zero =>
      unfold VoxelOctoTree.cutOctoTree
      split_ifs
      · exact ⟨⟨h.1.plane, h.1.points⟩, h.2⟩
      · exact h
  | succ fuel ih =>
      rcases le_or_gt d.maxLayer d.layer with hlast | hlt
      · rw [cutOctoTree_last hlast]
        exact ⟨⟨h.1.plane, h.1.points⟩, h.2⟩
      · obtain ⟨frozen, heq⟩ := cutOctoTree_succ fit fuel leaves hlt
        rw [heq]
        exact ⟨h.1.afterCut frozen, fun i =>
          Holds.settle hfit (fun _ _ => ih) (holds_distribute hnew h.1.points h.2 i)⟩

lemma Holds.initOctoTree (hnew : P {}) (hfit : FitGives P Q fit) (h : t.Holds P Q) :
    (initOctoTree fit t).Holds P Q :=
  h.settle hfit fun _ _ => Holds.cutOctoTree hnew hfit _

lemma Holds.updateUninit (hnew : P {}) (hfit : FitGives P Q fit) (hpv : Q pv)
    (h : Holds P Q (.node d leaves)) : (updateUninit fit pv d leaves).Holds P Q := by
  have hpush : Holds P Q (.node (d.push pv) leaves) := ⟨h.1.push hpv, h.2⟩
  simp only [VoxelOctoTree.updateUninit]
  split_ifs
  · exact hpush.initOctoTree hnew hfit
  · exact hpush

/-- **An update** keeps the contents when its point satisfies `Q`. -/
theorem Holds.updateOctoTree (hnew : P {}) (hfit : FitGives P Q fit) (hpv : Q pv)
    (h : t.Holds P Q) : (updateOctoTree fit pv t).Holds P Q := by
  induction t with
  | nullptr => exact h
  | node d leaves ih =>
      rcases d.kind_cases with hinit | hplane | hbranch | hlast
      · rw [updateOctoTree_uninit hinit]
        exact h.updateUninit hnew hfit hpv
      · rw [updateOctoTree_plane hplane]
        refine ⟨?_, h.2⟩
        split_ifs
        · exact h.1.updatePlane hfit hpv
        · exact h.1
      · rw [updateOctoTree_branch hbranch]
        refine ⟨h.1, PTree.everywhere_update h.2 _ ?_⟩
        cases hi : leaves (d.leafOf pv.pointW) with
        | nullptr =>
            rw [VoxelOctoTree.orNew, updateOctoTree_uninit rfl]
            exact Holds.updateUninit hnew hfit hpv (holds_new hnew _)
        | node b kids =>
            have hb := ih (d.leafOf pv.pointW) (h.2 _)
            rwa [hi] at hb
      · rw [updateOctoTree_last hlast]
        refine ⟨?_, h.2⟩
        split_ifs
        · exact h.1.updateLast hfit hpv
        · exact h.1

/-- A lookup answers with a node of the tree. -/
lemma Holds.findCorrespond {pw : V3D} {d' : OctoNode} {leaves' : Leaves} (h : t.Holds P Q)
    (hfind : findCorrespond pw t = .node d' leaves') : d'.Holds P Q := by
  induction t with
  | nullptr => cases hfind
  | node d leaves ih =>
      unfold VoxelOctoTree.findCorrespond at hfind
      split_ifs at hfind
      · obtain ⟨rfl, -⟩ := PTree.node.inj hfind
        exact h.1
      · obtain ⟨rfl, -⟩ := PTree.node.inj hfind
        exact h.1
      · exact ih _ (h.2 _) hfind

end VoxelOctoTree

/-- The points of a call satisfy `Q`, and its fits of such points give planes that satisfy `P`. -/
def VoxelMapCall.Gives (P : VoxelPlane → Prop) (Q : PointWithVar → Prop) : VoxelMapCall → Prop
  | .build fit inputPoints => OctoNode.FitGives P Q fit ∧ ∀ pv ∈ inputPoints, Q pv
  | .update inputPoints => ∀ p ∈ inputPoints, Q p.1 ∧ OctoNode.FitGives P Q p.2
  | .slide _ => True

namespace VoxelMapManager

open VoxelOctoTree

variable {P : VoxelPlane → Prop} {Q : PointWithVar → Prop} {m : VoxelMapManager}
  {cfg : VoxelMapConfig}

/-- Every node of the map holds a plane that satisfies `P` and points that satisfy `Q`. -/
def Holds (P : VoxelPlane → Prop) (Q : PointWithVar → Prop) (m : VoxelMapManager) : Prop :=
  ∀ position, (m.voxelMap position).Holds P Q

lemma holds_rootOrNew (hnew : P {}) {t : VoxelOctoTree} (h : t.Holds P Q)
    (position : VoxelLocation) : (cfg.rootOrNew position t).Holds P Q := by
  cases t with
  | nullptr => exact ⟨⟨hnew, fun _ hq => absurd hq List.not_mem_nil⟩, fun _ => trivial⟩
  | node d leaves => exact h

lemma Holds.setRoot (h : m.Holds P Q) (position : VoxelLocation) {t : VoxelOctoTree}
    (ht : t.Holds P Q) : (m.setRoot position t).Holds P Q := by
  intro k
  simp only [VoxelMapManager.setRoot]
  split_ifs
  · exact ht
  · exact h k

/-- `BuildVoxelMap` keeps the contents when its points satisfy `Q`. -/
lemma Holds.buildVoxelMap (hnew : P {}) {fit : PlaneFit} (hfit : OctoNode.FitGives P Q fit)
    {inputPoints : List PointWithVar} (hpoints : ∀ pv ∈ inputPoints, Q pv) (h : m.Holds P Q) :
    (m.buildVoxelMap cfg fit inputPoints).Holds P Q := by
  have hpushed : (inputPoints.foldl (pushRoot cfg) m).Holds P Q := by
    refine (foldl_rule (P := fun (l : List PointWithVar) (m : VoxelMapManager) =>
      (∀ pv ∈ l, Q pv) ∧ m.Holds P Q) ?_ ⟨hpoints, h⟩).2
    rintro pv l m ⟨hl, hm⟩
    exact ⟨fun q hq => hl q (List.mem_cons_of_mem pv hq), hm.setRoot _
      ((holds_rootOrNew hnew (hm _) _).pushPoint (hl pv List.mem_cons_self))⟩
  exact fun position => (hpushed position).initOctoTree hnew hfit

/-- `UpdateVoxelMap` keeps the contents when its points satisfy `Q`. -/
lemma Holds.updateVoxelMap (hnew : P {}) {inputPoints : List (PointWithVar × PlaneFit)}
    (hpoints : ∀ p ∈ inputPoints, Q p.1 ∧ OctoNode.FitGives P Q p.2) (h : m.Holds P Q) :
    (m.updateVoxelMap cfg inputPoints).Holds P Q := by
  refine (foldl_rule (P := fun (l : List (PointWithVar × PlaneFit)) (m : VoxelMapManager) =>
    (∀ p ∈ l, Q p.1 ∧ OctoNode.FitGives P Q p.2) ∧ m.Holds P Q) ?_ ⟨hpoints, h⟩).2
  rintro p l m ⟨hl, hm⟩
  have hp := hl p List.mem_cons_self
  exact ⟨fun q hq => hl q (List.mem_cons_of_mem p hq), hm.setRoot _
    (Holds.updateOctoTree hnew hp.2 hp.1 (holds_rootOrNew hnew (hm _) _))⟩

/-- `mapSliding` keeps the contents. -/
lemma Holds.mapSliding (h : m.Holds P Q) (positionLast : V3D) :
    (m.mapSliding cfg positionLast).Holds P Q := by
  intro position
  obtain hnull | hkept := mapSliding_root cfg m positionLast position
  · rw [hnull]
    trivial
  · rw [hkept]
    exact h position

lemma Holds.call (hnew : P {}) (h : m.Holds P Q) {c : VoxelMapCall} (hc : c.Gives P Q) :
    (m.call cfg c).Holds P Q := by
  cases c with
  | build fit inputPoints => exact h.buildVoxelMap hnew hc.1 hc.2
  | update inputPoints => exact h.updateVoxelMap hnew hc
  | slide positionLast => exact h.mapSliding positionLast

/-- **The contents of the map.**  After any calls that give such points and fits, every node holds
a plane that satisfies `P` and points that satisfy `Q`. -/
theorem holds_after (hnew : P {}) (cfg : VoxelMapConfig) {calls : List VoxelMapCall}
    (hcalls : ∀ c ∈ calls, c.Gives P Q) : (after cfg calls).Holds P Q := by
  have hempty : Holds P Q {} := fun _ => trivial
  refine (foldl_rule (P := fun (l : List VoxelMapCall) (m : VoxelMapManager) =>
    (∀ c ∈ l, c.Gives P Q) ∧ m.Holds P Q) ?_ ⟨hcalls, hempty⟩).2
  rintro c l m ⟨hl, hm⟩
  exact ⟨fun c' hc' => hl c' (List.mem_cons_of_mem c hc'),
    hm.call hnew (hl c List.mem_cons_self)⟩

end VoxelMapManager

end FastLivo2
