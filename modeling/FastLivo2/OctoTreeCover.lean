import FastLivo2.OctoTreeLookup

/-!
# Points of a rejected plane

`build_single_residual` only descends from a node that is no plane, so the points such a node
keeps count for matching only as far as they are represented below it (`Covered`).  The cut of a
first initialisation sees to that.  The re-fit of an update does not: it can reject a plane
without cutting it (`Demoted`), and the points of the node are then represented nowhere below.

`Serves` follows a point's own octants; along them an update that demotes no node loses a point
only at a node that freezes and from then on answers for it.
-/

namespace FastLivo2

/-- The re-fit of this update rejects the plane of a node above the last layer. -/
structure OctoNode.Demoted (fit : PlaneFit) (pv : PointWithVar) (d : OctoNode) : Prop where
  plane : d.IsPlaneNode
  layer : d.layer < d.maxLayer
  enable : d.updateEnable = true
  due : d.updateSizeThreshold < d.newPoints + 1
  verdict : (fit (d.push pv)).isPlane = false

namespace VoxelOctoTree

/-- The point is represented in the tree: some node stores it, or the node that a lookup of it ends
in is frozen. -/
def Represented (pv : PointWithVar) (t : VoxelOctoTree) : Prop :=
  t ≠ .nullptr ∧ ((t.Any fun d => pv ∈ d.tempPoints) ∨
    ∃ d leaves, findCorrespond pv.pointW t = .node d leaves ∧ d.updateEnable = false)

/-- Every point a branch keeps is represented in the leaf of its octant. -/
def Covered (t : VoxelOctoTree) : Prop :=
  t.Everywhere fun d leaves => d.IsBranch →
    ∀ pv ∈ d.tempPoints, Represented pv (leaves (d.leafOf pv.pointW))

/-- The update demotes the node it reaches. -/
def Demotes (fit : PlaneFit) (pv : PointWithVar) (t : VoxelOctoTree) : Prop :=
  ∃ d leaves, findCorrespond pv.pointW t = .node d leaves ∧ d.Demoted fit pv

/-- The call demotes no node. -/
def NoDemotion (t : VoxelOctoTree) : OctoCall → Prop
  | .update fit pv => ¬Demotes fit pv t
  | _ => True

/-- Along the octants of a point: a node stores it, or the node they end in is frozen. -/
def Serves (pv : PointWithVar) : VoxelOctoTree → Prop
  | .nullptr => False
  | .node d leaves => pv ∈ d.tempPoints ∨ (¬d.IsBranch ∧ d.updateEnable = false) ∨
      (d.IsBranch ∧ Serves pv (leaves (d.leafOf pv.pointW)))

lemma Serves.ne_nullptr {pv : PointWithVar} {t : VoxelOctoTree} (h : Serves pv t) :
    t ≠ .nullptr := by
  rintro rfl
  exact h

lemma Serves.represented {pv : PointWithVar} {t : VoxelOctoTree} (h : Serves pv t) :
    Represented pv t := by
  refine ⟨h.ne_nullptr, ?_⟩
  induction t with
  | nullptr => exact h.elim
  | node d leaves ih =>
      rcases h with hmem | ⟨hkind, hen⟩ | ⟨hkind, hleaf⟩
      · exact .inl (.inl hmem)
      · exact .inr ⟨d, leaves, findCorrespond_self hkind, hen⟩
      · rcases ih _ hleaf with hany | ⟨b, kids, hfind, hen⟩
        · exact .inl (.inr ⟨_, hany⟩)
        · refine .inr ⟨b, kids, ?_, hen⟩
          rw [findCorrespond_branch hkind, if_neg ?_, hfind]
          rw [PTree.isNull_iff]
          exact hleaf.ne_nullptr

/-! ## The invariant -/

/-- What holds of a node as long as no update demotes one: it has leaves only as a branch, then
they serve its points, and it is enabled until it is initialised. -/
structure NodeCover (d : OctoNode) (leaves : Leaves) : Prop where
  tidy : d.IsBranch ∨ leaves = noLeaves
  enabled : d.initOcto = false → d.updateEnable = true
  serves : d.IsBranch → ∀ pv ∈ d.tempPoints, Serves pv (leaves (d.leafOf pv.pointW))

/-- The invariant of the tree. -/
def Covers (t : VoxelOctoTree) : Prop := t.Everywhere NodeCover

lemma Covers.covered {t : VoxelOctoTree} (h : t.Covers) : t.Covered :=
  h.mono fun _ _ hnode hkind pv hpv => (hnode.serves hkind pv hpv).represented

/-- A node that is no branch has nothing to cover. -/
lemma covers_of_not_isBranch {d : OctoNode} (hkind : ¬d.IsBranch)
    (hen : d.initOcto = false → d.updateEnable = true) : Covers (.node d noLeaves) :=
  ⟨⟨.inr rfl, hen, fun hb => absurd hb hkind⟩, fun _ => trivial⟩

lemma Settled.serves {d : OctoNode} {t : VoxelOctoTree} (h : Settled d t) {pv : PointWithVar}
    (hpv : pv ∈ d.tempPoints) : Serves pv t := by
  cases h with
  | few => exact .inl hpv
  | plane _ _ points => exact .inl (points ▸ hpv)
  | frozen kind _ _ enable => exact .inr (.inl ⟨kind.not_isBranch, enable⟩)
  | last _ _ points => exact .inl (points ▸ hpv)
  | branch _ _ points => exact .inl (points ▸ hpv)

/-- An initialisation covers every point. -/
lemma Settled.covers {d : OctoNode} {t : VoxelOctoTree} (h : Settled d t)
    (hinit : d.initOcto = false) (hen : d.updateEnable = true) : t.Covers := by
  induction h with
  | few =>
      exact covers_of_not_isBranch (OctoNode.not_isBranch_of_uninit hinit) fun _ => hen
  | plane kind | frozen kind =>
      exact covers_of_not_isBranch kind.not_isBranch fun hi => by simp [kind.1] at hi
  | last kind =>
      exact covers_of_not_isBranch kind.not_isBranch fun hi => by simp [kind.1] at hi
  | @branch d d' leaves kind frame points _ none some ih =>
      refine ⟨⟨.inl kind, fun hi => by simp [kind.1] at hi, fun _ pv hpv => ?_⟩, fun i => ?_⟩
      · rw [OctoNode.leafOf_congr frame]
        rw [points] at hpv
        have hmem := OctoNode.mem_pointsIn hpv
        exact (some _ (List.ne_nil_of_mem hmem)).serves hmem
      · by_cases hi : d.pointsIn i = []
        · rw [none i hi]
          trivial
        · exact ih i hi rfl rfl

/-! ## What an update keeps -/

/-- The leaf that the update of a branch writes. -/
lemma demotes_leaf {fit : PlaneFit} {pv : PointWithVar} {d : OctoNode} {leaves : Leaves}
    (hkind : d.IsBranch) (h : ¬Demotes fit pv (.node d leaves)) :
    ¬Demotes fit pv (leaves (d.leafOf pv.pointW)) := by
  rintro ⟨b, kids, hfind, hdem⟩
  refine h ⟨b, kids, ?_, hdem⟩
  rw [findCorrespond_branch hkind, if_neg ?_, hfind]
  rw [PTree.isNull_iff]
  intro hnull
  rw [hnull] at hfind
  cases hfind

/-- A re-fitted plane that is not demoted does not become a branch. -/
lemma updatePlane_not_isBranch {fit : PlaneFit} {pv : PointWithVar} {d : OctoNode}
    {leaves : Leaves} (hkind : d.IsPlaneNode) (hen : d.updateEnable = true)
    (h : ¬Demotes fit pv (.node d leaves)) : ¬(d.updatePlane fit pv).IsBranch := by
  rintro ⟨-, hplane, hlt⟩
  have hl := OctoNode.layer_congr (d.updatePlane_frame fit pv)
  have hm := OctoNode.maxLayer_congr (d.updatePlane_frame fit pv)
  have hrejected : ((d.push pv).refit fit).plane.isPlane = false := by
    rcases d.updatePlane_cases fit pv with heq | heq <;> rwa [heq] at hplane
  unfold OctoNode.refit at hrejected
  split_ifs at hrejected with hdue
  · exact h ⟨d, leaves, findCorrespond_self hkind.not_isBranch, hkind, by omega, hen, hdue,
      hrejected⟩
  · have hold : d.plane.isPlane = false := hrejected
    simp [hkind.2] at hold

/-- A node of the last layer stays one. -/
lemma updateLast_not_isBranch {fit : PlaneFit} {pv : PointWithVar} {d : OctoNode}
    (hkind : d.IsLast) : ¬(d.updateLast fit pv).IsBranch := by
  rintro ⟨-, -, hlt⟩
  have hl := OctoNode.layer_congr (d.updateLast_frame fit pv)
  have hm := OctoNode.maxLayer_congr (d.updateLast_frame fit pv)
  have hlast := hkind.2.2
  omega

/-- A node that answers for itself goes on serving a point through a re-fit. -/
lemma serves_refit {fit : PlaneFit} {pv q : PointWithVar} {d d' : OctoNode} {leaves : Leaves}
    (hd' : d' = (d.push pv).refit fit ∨ d' = ((d.push pv).refit fit).freeze)
    (hkind' : ¬d'.IsBranch) (hq : q ∈ d.tempPoints) : Serves q (.node d' leaves) := by
  rcases hd' with rfl | rfl
  · exact .inl (by simp [hq])
  · exact .inr (.inl ⟨hkind', rfl⟩)

/-- A point served by a node that is no branch is stored there, or the node is frozen. -/
lemma Serves.of_not_isBranch {q : PointWithVar} {d : OctoNode} {leaves : Leaves}
    (h : Serves q (.node d leaves)) (hkind : ¬d.IsBranch) :
    q ∈ d.tempPoints ∨ d.updateEnable = false := by
  rcases h with hmem | ⟨-, hen⟩ | ⟨hb, -⟩
  · exact .inl hmem
  · exact .inr hen
  · exact absurd hb hkind

/-- **An update that demotes no node goes on serving every point.** -/
theorem serves_updateOctoTree {t : VoxelOctoTree} (h : t.Covers) {fit : PlaneFit}
    {pv q : PointWithVar} (hdem : ¬Demotes fit pv t) (hq : Serves q t) :
    Serves q (updateOctoTree fit pv t) := by
  induction t with
  | nullptr => exact hq
  | node d leaves ih =>
      rcases d.kind_cases with hinit | hplane | hbranch | hlast
      · have hkind := OctoNode.not_isBranch_of_uninit hinit
        obtain rfl := h.1.tidy.resolve_left hkind
        rw [updateOctoTree_uninit hinit]
        refine (settled_updateUninit fit pv d).serves ?_
        rcases hq.of_not_isBranch hkind with hmem | hfrozen
        · simp [hmem]
        · simp [h.1.enabled hinit] at hfrozen
      · rw [updateOctoTree_plane hplane]
        split_ifs with hen
        · rcases hq.of_not_isBranch hplane.not_isBranch with hmem | hfrozen
          · exact serves_refit (d.updatePlane_cases fit pv)
              (updatePlane_not_isBranch hplane hen hdem) hmem
          · simp [hen] at hfrozen
        · exact hq
      · rw [updateOctoTree_branch hbranch]
        rcases hq with hmem | ⟨hkind, -⟩ | ⟨-, hleaf⟩
        · exact .inl hmem
        · exact absurd hbranch hkind
        · refine .inr (.inr ⟨hbranch, ?_⟩)
          by_cases hsame : d.leafOf q.pointW = d.leafOf pv.pointW
          · rw [hsame] at hleaf ⊢
            rw [Function.update_self]
            have hnew := ih (d.leafOf pv.pointW) (h.2 _) (demotes_leaf hbranch hdem) hleaf
            cases hi : leaves (d.leafOf pv.pointW) with
            | nullptr => exact absurd hi hleaf.ne_nullptr
            | node b kids => rwa [hi] at hnew
          · rwa [Function.update_of_ne hsame]
      · rw [updateOctoTree_last hlast]
        split_ifs with hen
        · rcases hq.of_not_isBranch hlast.not_isBranch with hmem | hfrozen
          · exact serves_refit (d.updateLast_cases fit pv) (updateLast_not_isBranch hlast) hmem
          · simp [hen] at hfrozen
        · exact hq

/-- An update that demotes no node keeps the invariant. -/
theorem Covers.updateOctoTree {t : VoxelOctoTree} (h : t.Covers) {fit : PlaneFit}
    {pv : PointWithVar} (hdem : ¬Demotes fit pv t) : (updateOctoTree fit pv t).Covers := by
  have hfresh : ∀ d : OctoNode, d.initOcto = false → d.updateEnable = true →
      (updateUninit fit pv d noLeaves).Covers := fun d hinit hen =>
    (settled_updateUninit fit pv d).covers hinit hen
  induction t with
  | nullptr => exact h
  | node d leaves ih =>
      rcases d.kind_cases with hinit | hplane | hbranch | hlast
      · obtain rfl := h.1.tidy.resolve_left (OctoNode.not_isBranch_of_uninit hinit)
        rw [updateOctoTree_uninit hinit]
        exact hfresh d hinit (h.1.enabled hinit)
      · obtain rfl := h.1.tidy.resolve_left hplane.not_isBranch
        rw [updateOctoTree_plane hplane]
        split_ifs with hen
        · refine covers_of_not_isBranch (updatePlane_not_isBranch hplane hen hdem) fun hi => ?_
          rw [d.updatePlane_initOcto] at hi
          simp [hplane.1] at hi
        · exact h
      · rw [updateOctoTree_branch hbranch]
        refine ⟨⟨.inl hbranch, h.1.enabled, fun _ q hmem => ?_⟩,
          PTree.everywhere_update h.2 _ ?_⟩
        · have hq := h.1.serves hbranch q hmem
          by_cases hsame : d.leafOf q.pointW = d.leafOf pv.pointW
          · rw [hsame] at hq ⊢
            rw [Function.update_self]
            have hnew := serves_updateOctoTree (h.2 (d.leafOf pv.pointW))
              (demotes_leaf hbranch hdem) hq
            cases hi : leaves (d.leafOf pv.pointW) with
            | nullptr => exact absurd hi hq.ne_nullptr
            | node b kids => rwa [hi] at hnew
          · rwa [Function.update_of_ne hsame]
        · have hnew := ih (d.leafOf pv.pointW) (h.2 _) (demotes_leaf hbranch hdem)
          cases hi : leaves (d.leafOf pv.pointW) with
          | nullptr =>
              rw [orNew, updateOctoTree_uninit rfl]
              exact hfresh _ rfl rfl
          | node b kids => rwa [hi] at hnew
      · obtain rfl := h.1.tidy.resolve_left hlast.not_isBranch
        rw [updateOctoTree_last hlast]
        split_ifs with hen
        · refine covers_of_not_isBranch (updateLast_not_isBranch hlast) fun hi => ?_
          rw [d.updateLast_initOcto] at hi
          simp [hlast.1] at hi
        · exact h

/-- The root is enabled while it is not initialised. -/
lemma covers_of_run {t : VoxelOctoTree} (h : OctoRun NoDemotion t) : t.Covers := by
  induction h with
  | new new =>
      exact covers_of_not_isBranch (OctoNode.not_isBranch_of_uninit new.initOcto)
        fun _ => new.updateEnable
  | push run uninit pv _ ih =>
      obtain ⟨d, rfl, hinit⟩ := (tidy_of_run run).of_uninit uninit
      exact covers_of_not_isBranch (OctoNode.not_isBranch_of_uninit (d := d.push pv) hinit)
        ih.1.enabled
  | init run uninit fit _ ih =>
      obtain ⟨d, rfl, hinit⟩ := (tidy_of_run run).of_uninit uninit
      exact (settled_initOctoTree fit d).covers hinit (ih.1.enabled hinit)
  | update _ fit pv ok ih => exact ih.updateOctoTree ok

/-! ## A demotion loses the points it leaves -/

lemma Covered.leaf {d : OctoNode} {leaves : Leaves} (h : Covered (.node d leaves)) (i : Fin 8) :
    Covered (leaves i) :=
  h.2 i

/-- A demoted node that keeps its points has them represented nowhere below. -/
lemma not_covered_demoted {fit : PlaneFit} {pv : PointWithVar} {d : OctoNode}
    (h : d.Demoted fit pv) (hkeeps : sizeGe (d.tempPoints.length + 1) d.maxPointsNum = false) :
    ¬Covered (.node (d.updatePlane fit pv) noLeaves) := by
  have hrefit : (d.push pv).refit fit = { (d.push pv).initPlane fit with newPoints := 0 } :=
    if_pos h.due
  have hd : d.updatePlane fit pv = { (d.push pv).initPlane fit with newPoints := 0 } := by
    unfold OctoNode.updatePlane
    rw [hrefit]
    refine if_neg ?_
    simpa [OctoNode.initPlane, OctoNode.push] using hkeeps
  rw [hd]
  rintro ⟨hpoints, -⟩
  have hkind : ({ (d.push pv).initPlane fit with newPoints := 0 } : OctoNode).IsBranch :=
    ⟨h.plane.1, h.verdict, h.layer⟩
  exact (hpoints hkind pv (by simp [OctoNode.initPlane])).1 rfl

/-- **An update that demotes a node and leaves it its points breaks the cover.** -/
theorem not_covered_of_demotes {t : VoxelOctoTree} (htidy : t.Tidy) {fit : PlaneFit}
    {pv : PointWithVar} {d : OctoNode} {leaves : Leaves}
    (hfind : findCorrespond pv.pointW t = .node d leaves) (hdem : d.Demoted fit pv)
    (hkeeps : sizeGe (d.tempPoints.length + 1) d.maxPointsNum = false) :
    ¬Covered (updateOctoTree fit pv t) := by
  induction t with
  | nullptr => cases hfind
  | node c kids ih =>
      by_cases hbranch : c.IsBranch
      · rw [findCorrespond_branch hbranch] at hfind
        split_ifs at hfind with hnull
        · cases hfind
          exact absurd hbranch hdem.plane.not_isBranch
        · rw [updateOctoTree_branch hbranch]
          intro hcov
          have hleaf := hcov.leaf (c.leafOf pv.pointW)
          rw [Function.update_self] at hleaf
          cases hi : kids (c.leafOf pv.pointW) with
          | nullptr => simp [hi] at hnull
          | node b grandkids =>
              have hnot := ih (c.leafOf pv.pointW) (htidy.2 _) hfind
              rw [hi] at hnot hleaf
              exact hnot hleaf
      · rw [findCorrespond_self hbranch] at hfind
        cases hfind
        obtain rfl := htidy.leaves_eq hbranch
        rw [updateOctoTree_plane hdem.plane, if_pos hdem.enable]
        exact not_covered_demoted hdem hkeeps

/-- **Points of nodes that are no planes stay matchable as long as no re-fit rejects a plane.**  In
every run without a demotion every point a branch keeps is represented below it; the first
demotion that leaves the node its points breaks this. -/
theorem covered_without_demotion {t : VoxelOctoTree} (h : OctoRun NoDemotion t) :
    Covered t ∧ ∀ fit pv d leaves, findCorrespond pv.pointW t = .node d leaves →
      d.Demoted fit pv → sizeGe (d.tempPoints.length + 1) d.maxPointsNum = false →
      ¬Covered (updateOctoTree fit pv t) :=
  ⟨(covers_of_run h).covered, fun _ _ _ _ hfind hdem hkeeps =>
    not_covered_of_demotes (tidy_of_run h) hfind hdem hkeeps⟩

instance (fit : PlaneFit) (pv : PointWithVar) (d : OctoNode) : Decidable (d.Demoted fit pv) :=
  decidable_of_iff ((d.initOcto = true ∧ d.plane.isPlane = true) ∧ d.layer < d.maxLayer ∧
      d.updateEnable = true ∧ d.updateSizeThreshold < d.newPoints + 1 ∧
      (fit (d.push pv)).isPlane = false)
    ⟨fun h => ⟨h.1, h.2.1, h.2.2.1, h.2.2.2.1, h.2.2.2.2⟩,
      fun h => ⟨h.plane, h.layer, h.enable, h.due, h.verdict⟩⟩

/-- Whether each of the updates finds a node that it does not demote. -/
def noneDemoted : ScanPoints → VoxelOctoTree → Bool
  | [], _ => true
  | p :: pts, t =>
      (match findCorrespond p.1.pointW t with
      | .nullptr => true
      | .node d _ => decide ¬d.Demoted p.2 p.1) && noneDemoted pts (updateOctoTree p.2 p.1 t)

lemma updatesMeet_of_noneDemoted {pts : ScanPoints} {t : VoxelOctoTree}
    (h : noneDemoted pts t = true) : UpdatesMeet NoDemotion pts t := by
  induction pts generalizing t with
  | nil => trivial
  | cons p pts ih =>
      obtain ⟨hfirst, hrest⟩ := Bool.and_eq_true_iff.mp h
      refine ⟨?_, ih hrest⟩
      rintro ⟨d, leaves, hfind, hdem⟩
      rw [hfind] at hfirst
      exact of_decide_eq_true hfirst hdem

/-- The root has been fitted and is no plane, and how many points it stores. -/
def cutRoot : VoxelOctoTree → Option (Bool × ℕ)
  | .nullptr => none
  | .node d _ => some (d.initOcto && !d.plane.isPlane, d.tempPoints.length)

/-- Eleven points in one corner: the sixth cuts the root, which keeps its six while the plane
below it takes the rest. -/
theorem covered_cornerTree :
    (Covered (cornerTree 11) ∧ ∀ fit pv d leaves,
      findCorrespond pv.pointW (cornerTree 11) = .node d leaves →
      d.Demoted fit pv → sizeGe (d.tempPoints.length + 1) d.maxPointsNum = false →
      ¬Covered (updateOctoTree fit pv (cornerTree 11))) ∧
    cutRoot (cornerTree 11) = some (true, 6) ∧
      found (cornerPoint 0).pointW (cornerTree 11) = some (1, true, 11) :=
  ⟨covered_without_demotion (octoRun_updates (.new twoLayerRoot_isNew)
      (updatesMeet_of_noneDemoted (by decide +kernel))),
    by decide +kernel, by decide +kernel⟩

/-! ## A plane that is rejected -/

/-- Six points of a horizontal plane. -/
def slab (z : ℚ) : List PointWithVar :=
  [((1 / 50 : ℚ), (1 / 50 : ℚ)), (1 / 50, 12 / 25), (12 / 25, 1 / 50), (12 / 25, 12 / 25),
    (1 / 4, 1 / 50), (1 / 4, 12 / 25)].map fun xy => { pointW := ![xy.1, xy.2, z] }

/-- The verdicts for two slabs: the first alone is a plane, both together are none. -/
def slabFit : PlaneFit := fun d => { isPlane := decide (d.tempPoints.length ≤ 6) }

/-- The root is a branch that keeps a point whose octant has no leaf. -/
def rootLosesPoint : VoxelOctoTree → Bool
  | .nullptr => false
  | .node d leaves => d.initOcto && !d.plane.isPlane && decide (d.layer < d.maxLayer) &&
      d.tempPoints.any fun pv => (leaves (d.leafOf pv.pointW)).isNull

lemma not_covered_of_rootLosesPoint {t : VoxelOctoTree} (h : t.rootLosesPoint = true) :
    ¬Covered t := by
  cases t with
  | nullptr => simp [rootLosesPoint] at h
  | node d leaves =>
      simp only [rootLosesPoint, Bool.and_eq_true, Bool.not_eq_true', decide_eq_true_eq,
        List.any_eq_true, PTree.isNull_iff] at h
      obtain ⟨⟨⟨hinit, hplane⟩, hlayer⟩, pv, hpv, hnull⟩ := h
      intro hcov
      exact (hcov.1 ⟨hinit, hplane, hlayer⟩ pv hpv).1 hnull

/-- Twelve points on two slabs of one voxel: the re-fit at the twelfth rejects the plane of the
first six, and all twelve are lost to matching. -/
theorem twoSlabs_not_covered :
    let t := updates ((slab (1 / 50) ++ slab (12 / 25)).map fun pv => (pv, slabFit))
      (.node halfMetreRoot noLeaves)
    OctoRun (fun _ _ => True) t ∧ ¬Covered t :=
  ⟨octoRun_updates (.new halfMetreRoot_isNew) (updatesMeet_true _ _),
    not_covered_of_rootLosesPoint (by decide +kernel)⟩

end VoxelOctoTree

end FastLivo2
