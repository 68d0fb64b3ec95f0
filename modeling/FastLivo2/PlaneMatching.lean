import FastLivo2.StateEstimation
import FastLivo2.VoxelMap
import FastLivo2.Lib.Champion

/-!
# Matching points to planes

`BuildResidualListOMP` and `build_single_residual` of `voxel_map.cpp`: each point of a scan looks
for a plane in the octree of its own voxel and, failing that, in the octree of one neighbour.

The test a plane must pass and the probability it is ranked by are a parameter, `ResidualGate`;
`VoxelMapConfig.residualGate` is the one of the code.  The points are matched in parallel, but a
thread reads the map and writes its own point only, so the rounds of the loop are independent.
-/

namespace FastLivo2

/-! ## The gate -/

/-- What decides about a point and a plane: whether the plane is accepted, and how probable it
is.  Both read `point_w` and `var` of the point. -/
structure ResidualGate where
  accepts : V3D → M3D → VoxelPlane → Bool
  thisProb : V3D → M3D → VoxelPlane → ℚ
  thisProb_pos : ∀ pw var plane, accepts pw var plane = true → 0 < thisProb pw var plane

/-- The functions of the mathematical library the gate uses. -/
structure GateLibm where
  sqrt : ℚ → ℚ
  exp : ℚ → ℚ
  sqrt_nonneg : ∀ x, 0 ≤ sqrt x
  exp_pos : ∀ x, 0 < exp x

namespace VoxelPlane

/-- The signed distance of a point from the plane. -/
def signedDis (plane : VoxelPlane) (pw : V3D) : ℚ := plane.normal ⬝ᵥ pw + plane.d

/-- `dis_to_plane`. -/
def disToPlane (plane : VoxelPlane) (pw : V3D) : ℚ := |plane.signedDis pw|

/-- The square of `range_dis`. -/
def rangeSq (plane : VoxelPlane) (pw : V3D) : ℚ :=
  (plane.center - pw) ⬝ᵥ (plane.center - pw) - plane.disToPlane pw * plane.disToPlane pw

/-- `sigma_l`. -/
def sigmaL (plane : VoxelPlane) (pw : V3D) (var : M3D) : ℚ :=
  let a := pw - plane.center
  let n := plane.normal
  let jNq : Fin 6 → ℚ := ![a 0, a 1, a 2, -n 0, -n 1, -n 2]
  jNq ⬝ᵥ plane.planeVar.mulVec jNq + n ⬝ᵥ var.mulVec n

/-- The two tests of `build_single_residual`; the root of a negative number passes neither. -/
def accepted (m : GateLibm) (sigmaNum : ℚ) (pw : V3D) (var : M3D) (plane : VoxelPlane) : Bool :=
  decide ((0 ≤ plane.rangeSq pw ∧ m.sqrt (plane.rangeSq pw) ≤ 3 * plane.radius) ∧
    0 ≤ plane.sigmaL pw var ∧ plane.disToPlane pw < sigmaNum * m.sqrt (plane.sigmaL pw var))

/-- `this_prob`. -/
def thisProb (m : GateLibm) (pw : V3D) (var : M3D) (plane : VoxelPlane) : ℚ :=
  1 / m.sqrt (plane.sigmaL pw var) *
    m.exp (-1 / 2 * plane.disToPlane pw * plane.disToPlane pw / plane.sigmaL pw var)

/-- The distance of an accepted plane is below a multiple of the root, which is then positive. -/
lemma thisProb_pos (m : GateLibm) (sigmaNum : ℚ) (pw : V3D) (var : M3D) (plane : VoxelPlane)
    (h : accepted m sigmaNum pw var plane = true) : 0 < thisProb m pw var plane := by
  obtain ⟨-, -, hdis⟩ := of_decide_eq_true h
  have hne : m.sqrt (plane.sigmaL pw var) ≠ 0 := by
    intro hzero
    rw [hzero, mul_zero] at hdis
    exact absurd hdis (not_lt.mpr (abs_nonneg _))
  have hroot : 0 < m.sqrt (plane.sigmaL pw var) := lt_of_le_of_ne (m.sqrt_nonneg _) hne.symm
  exact mul_pos (one_div_pos.mpr hroot) (m.exp_pos _)

end VoxelPlane

/-- The gate of the code, for a `sigma_num`. -/
def residualGate (m : GateLibm) (sigmaNum : ℚ) : ResidualGate where
  accepts := VoxelPlane.accepted m sigmaNum
  thisProb := VoxelPlane.thisProb m
  thisProb_pos := VoxelPlane.thisProb_pos m sigmaNum

/-! ## One octree -/

/-- `single_ptpl`: a match, with the members the update does not read. -/
structure SinglePtpl extends PointToPlane where
  pointW : V3D
  d : ℚ
  layer : ℤ

/-- The match of a point and a plane. -/
def singlePtpl (pv : PointWithVar) (currentLayer : ℤ) (plane : VoxelPlane) : SinglePtpl where
  pointB := pv.pointB
  pointW := pv.pointW
  normal := plane.normal
  center := plane.center
  planeVar := plane.planeVar
  bodyCov := pv.bodyVar
  d := plane.d
  layer := currentLayer
  disToPlane := plane.signedDis pv.pointW

/-- What `build_single_residual` writes through its references: of the point, only the normal. -/
structure SingleResidual where
  isSucess : Bool := false
  prob : ℚ := 0
  single : SinglePtpl
  normal : V3D

section Residual

variable (g : ResidualGate) (maxLayer : ℤ) (pv : PointWithVar)

/-- The branch of `build_single_residual` for a plane. -/
def tryPlane (r : SingleResidual) (currentLayer : ℤ) (plane : VoxelPlane) : SingleResidual :=
  if g.accepts pv.pointW pv.var plane then
    let thisProb := g.thisProb pv.pointW pv.var plane
    if r.prob < thisProb then
      { isSucess := true, prob := thisProb, single := singlePtpl pv currentLayer plane
        normal := plane.normal }
    else { r with isSucess := true }
  else r

/-- `VoxelMapManager::build_single_residual`. -/
def buildSingleResidual : VoxelOctoTree → ℤ → SingleResidual → SingleResidual
  | .nullptr, _, r => r
  | .node d leaves, currentLayer, r =>
      if d.plane.isPlane then tryPlane g pv r currentLayer d.plane
      else if currentLayer < maxLayer then
        (List.finRange 8).foldl
          (fun r leafnum => buildSingleResidual (leaves leafnum) (currentLayer + 1) r) r
      else r

end Residual

/-! ## The planes within reach -/

/-- A plane the search of an octree comes to: the nodes above it are no planes and lie above the
last layer. -/
inductive PlaneWithin (maxLayer : ℤ) : VoxelOctoTree → ℤ → ℤ → VoxelPlane → Prop
  | here {d : OctoNode} {leaves : Leaves} {currentLayer : ℤ} (hplane : d.plane.isPlane = true) :
      PlaneWithin maxLayer (.node d leaves) currentLayer currentLayer d.plane
  | leaf {d : OctoNode} {leaves : Leaves} {currentLayer layer : ℤ} {plane : VoxelPlane}
      (hplane : d.plane.isPlane = false) (hlayer : currentLayer < maxLayer) (i : Fin 8)
      (hbelow : PlaneWithin maxLayer (leaves i) (currentLayer + 1) layer plane) :
      PlaneWithin maxLayer (.node d leaves) currentLayer layer plane

/-- What holds of the plane of every node that is one holds of a plane within reach. -/
lemma PlaneWithin.of_everywhere {P : VoxelPlane → Prop} {maxLayer : ℤ} {t : VoxelOctoTree}
    {currentLayer layer : ℤ} {plane : VoxelPlane}
    (h : PlaneWithin maxLayer t currentLayer layer plane)
    (hall : t.Everywhere fun d _ => d.plane.isPlane = true → P d.plane) : P plane := by
  induction h with
  | here hplane => exact hall.1 hplane
  | leaf _ _ i _ ih => exact ih (hall.2 i)

/-- The planes within reach, in the order of the search, with their layers. -/
def planesWithin (maxLayer : ℤ) : VoxelOctoTree → ℤ → List (ℤ × VoxelPlane)
  | .nullptr, _ => []
  | .node d leaves, currentLayer =>
      if d.plane.isPlane then [(currentLayer, d.plane)]
      else if currentLayer < maxLayer then
        (List.finRange 8).flatMap fun i => planesWithin maxLayer (leaves i) (currentLayer + 1)
      else []

theorem mem_planesWithin {maxLayer : ℤ} {t : VoxelOctoTree} {currentLayer layer : ℤ}
    {plane : VoxelPlane} :
    (layer, plane) ∈ planesWithin maxLayer t currentLayer ↔
      PlaneWithin maxLayer t currentLayer layer plane := by
  induction t generalizing currentLayer with
  | nullptr =>
      refine ⟨fun h => by simp [planesWithin] at h, fun h => by cases h⟩
  | node d leaves ih =>
      unfold planesWithin
      constructor
      · intro h
        split_ifs at h with hplane hlayer
        · obtain ⟨rfl, rfl⟩ := Prod.mk.inj (List.mem_singleton.mp h)
          exact .here hplane
        · obtain ⟨i, -, hi⟩ := List.mem_flatMap.mp h
          exact .leaf (by simpa using hplane) hlayer i ((ih i).mp hi)
        · cases h
      · rintro (hplane | ⟨hplane, hlayer, i, hbelow⟩)
        · rw [if_pos hplane]
          exact List.mem_singleton_self _
        · rw [if_neg (by simp [hplane]), if_pos hlayer]
          exact List.mem_flatMap.mpr ⟨i, List.mem_finRange i, (ih i).mpr hbelow⟩

section Search

variable (g : ResidualGate) (maxLayer : ℤ) (pv : PointWithVar)

/-- **The search is a loop over the planes within reach.** -/
theorem buildSingleResidual_eq (t : VoxelOctoTree) (currentLayer : ℤ) (r : SingleResidual) :
    buildSingleResidual g maxLayer pv t currentLayer r =
      (planesWithin maxLayer t currentLayer).foldl (fun r p => tryPlane g pv r p.1 p.2) r := by
  induction t generalizing currentLayer r with
  | nullptr => rfl
  | node d leaves ih =>
      unfold buildSingleResidual planesWithin
      split_ifs
      · rfl
      · rw [List.foldl_flatMap]
        exact List.foldl_ext _ _ _ fun r i _ => ih i (currentLayer + 1) r
      · rfl

/-- The planes the gate accepts. -/
def acceptedOf (l : List (ℤ × VoxelPlane)) : List (ℤ × VoxelPlane) :=
  l.filter fun p => g.accepts pv.pointW pv.var p.2

/-- What the variables are once a plane has been taken. -/
def taken (p : ℤ × VoxelPlane) : SingleResidual where
  isSucess := true
  prob := g.thisProb pv.pointW pv.var p.2
  single := singlePtpl pv p.1 p.2
  normal := p.2.normal

/-- The variables after a list of planes: as they were, or those of the best accepted plane. -/
def Searched (start : SingleResidual) (l : List (ℤ × VoxelPlane)) (r : SingleResidual) : Prop :=
  (acceptedOf g pv l = [] ∧ r = start) ∨
    ∃ p, Champion (fun p => g.thisProb pv.pointW pv.var p.2) (acceptedOf g pv l) p ∧
      r = taken g pv p

variable {g pv}

lemma tryPlane_accepted {p : ℤ × VoxelPlane} (h : g.accepts pv.pointW pv.var p.2 = true)
    (r : SingleResidual) :
    tryPlane g pv r p.1 p.2 =
      if r.prob < g.thisProb pv.pointW pv.var p.2 then taken g pv p
      else { r with isSucess := true } := by
  unfold tryPlane
  rw [if_pos h]
  rfl

lemma tryPlane_rejected {p : ℤ × VoxelPlane} (h : ¬g.accepts pv.pointW pv.var p.2 = true)
    (r : SingleResidual) : tryPlane g pv r p.1 p.2 = r := by
  unfold tryPlane
  rw [if_neg h]

lemma Searched.tryPlane {start r : SingleResidual} {l : List (ℤ × VoxelPlane)}
    (hstart : start.prob = 0) (h : Searched g pv start l r) (p : ℤ × VoxelPlane) :
    Searched g pv start (l ++ [p]) (tryPlane g pv r p.1 p.2) := by
  unfold Searched
  by_cases hp : g.accepts pv.pointW pv.var p.2 = true
  · have hlist : acceptedOf g pv (l ++ [p]) = acceptedOf g pv l ++ [p] := by
      simp [acceptedOf, hp]
    rw [tryPlane_accepted hp, hlist]
    rcases h with ⟨hnil, rfl⟩ | ⟨q, hq, rfl⟩
    · -- The first accepted plane: its probability is positive, so it is taken.
      rw [if_pos (by rw [hstart]; exact g.thisProb_pos _ _ _ hp), hnil]
      exact .inr ⟨p, champion_singleton, rfl⟩
    · by_cases hlt : (taken g pv q).prob < g.thisProb pv.pointW pv.var p.2
      · rw [if_pos hlt]
        exact .inr ⟨p, hq.replace hlt.le, rfl⟩
      · rw [if_neg hlt]
        exact .inr ⟨q, hq.keep (not_lt.mp hlt), rfl⟩
  · have hlist : acceptedOf g pv (l ++ [p]) = acceptedOf g pv l := by
      simp [acceptedOf, hp]
    rw [tryPlane_rejected hp, hlist]
    exact h

/-- What the loop over the planes leaves. -/
lemma searched_foldl {start : SingleResidual} (hstart : start.prob = 0)
    (l : List (ℤ × VoxelPlane)) :
    Searched g pv start l (l.foldl (fun r p => FastLivo2.tryPlane g pv r p.1 p.2) start) := by
  induction l using List.reverseRecOn with
  | nil => exact .inl ⟨rfl, rfl⟩
  | append_singleton l p ih =>
      rw [List.foldl_append]
      exact ih.tryPlane hstart p

lemma searched_buildSingleResidual {start : SingleResidual} (hstart : start.prob = 0)
    (maxLayer : ℤ) (t : VoxelOctoTree) (currentLayer : ℤ) :
    Searched g pv start (planesWithin maxLayer t currentLayer)
      (buildSingleResidual g maxLayer pv t currentLayer start) := by
  rw [buildSingleResidual_eq]
  exact searched_foldl hstart _

/-- An accepted plane within reach of the search. -/
def Candidate (g : ResidualGate) (maxLayer : ℤ) (pv : PointWithVar) (t : VoxelOctoTree)
    (layer : ℤ) (plane : VoxelPlane) : Prop :=
  PlaneWithin maxLayer t 0 layer plane ∧ g.accepts pv.pointW pv.var plane = true

lemma mem_acceptedOf {maxLayer : ℤ} {t : VoxelOctoTree} {layer : ℤ} {plane : VoxelPlane} :
    (layer, plane) ∈ acceptedOf g pv (planesWithin maxLayer t 0) ↔
      Candidate g maxLayer pv t layer plane := by
  rw [acceptedOf, List.mem_filter, mem_planesWithin]
  exact Iff.rfl

/-- **The search of an octree.**  From no match, it succeeds exactly when some plane within reach
is accepted, and then gives the match, the probability and the normal of an accepted plane of
maximal probability.  Otherwise it leaves the match and the normal. -/
theorem buildSingleResidual_spec (g : ResidualGate) (maxLayer : ℤ) (pv : PointWithVar)
    (t : VoxelOctoTree) (single : SinglePtpl) (normal : V3D) :
    let r := buildSingleResidual g maxLayer pv t 0 { single := single, normal := normal }
    (r.isSucess = true ↔ ∃ layer plane, Candidate g maxLayer pv t layer plane) ∧
    (r.isSucess = true → ∃ layer plane, Candidate g maxLayer pv t layer plane ∧
      (∀ layer' plane', Candidate g maxLayer pv t layer' plane' →
        g.thisProb pv.pointW pv.var plane' ≤ g.thisProb pv.pointW pv.var plane) ∧
      r.prob = g.thisProb pv.pointW pv.var plane ∧ r.normal = plane.normal ∧
      r.single = singlePtpl pv layer plane) ∧
    (r.isSucess = false → r.single = single ∧ r.normal = normal) := by
  intro r
  have hsearched : Searched g pv { single := single, normal := normal } (planesWithin maxLayer t 0)
      r := searched_buildSingleResidual rfl maxLayer t 0
  rcases hsearched with ⟨hnil, hr⟩ | ⟨⟨layer, plane⟩, hbest, hr⟩
  · have hnone : ¬∃ layer plane, Candidate g maxLayer pv t layer plane := by
      rintro ⟨layer, plane, hcandidate⟩
      have hmem := mem_acceptedOf.mpr hcandidate
      rw [hnil] at hmem
      cases hmem
    rw [hr]
    exact ⟨iff_of_false Bool.false_ne_true hnone, fun h => absurd h Bool.false_ne_true,
      fun _ => ⟨rfl, rfl⟩⟩
  · have hcandidate : Candidate g maxLayer pv t layer plane := mem_acceptedOf.mp hbest.mem
    rw [hr]
    exact ⟨iff_of_true rfl ⟨layer, plane, hcandidate⟩,
      fun _ => ⟨layer, plane, hcandidate,
        fun layer' plane' h => hbest.max _ (mem_acceptedOf.mpr h), rfl, rfl, rfl⟩,
      fun h => absurd h.symm Bool.false_ne_true⟩

end Search

/-! ## One point -/

/-- `loc_xyz[j]`: the coordinate in voxels, less one below zero. -/
def locXyz (voxelSize x : ℚ) : ℚ :=
  let loc := x / voxelSize
  if loc < 0 then loc - 1 else loc

/-- One axis of `near_position`: the key next to a key, on the side where a coordinate lies more
than a quarter from the centre. -/
def nearKey (loc center quater : ℚ) (key : ℤ) : ℤ :=
  if center + quater < loc then key + 1 else if loc < center - quater then key - 1 else key

/-- `near_position`: the code compares `loc_xyz`. -/
def nearPosition (voxelSize : ℚ) (pw : V3D) (currentOcto : OctoNode) : VoxelLocation := fun j =>
  nearKey (locXyz voxelSize (pw j)) (currentOcto.voxelCenter j) currentOcto.quaterLength
    (voxelLocation voxelSize pw j)

section Matching

variable (g : ResidualGate) (cfg : VoxelMapConfig) (voxelMap : VoxelLocation → VoxelOctoTree)
variable (pv : PointWithVar)

/-- A default-constructed `single_ptpl`. -/
def noPtpl : SinglePtpl where
  pointB := 0
  normal := 0
  center := 0
  planeVar := 0
  bodyCov := 0
  disToPlane := 0
  pointW := 0
  d := 0
  layer := 0

/-- The search of the point's own voxel; there is none where the map has no octree. -/
def ownResidual : SingleResidual :=
  buildSingleResidual g cfg.maxLayer pv (voxelMap (voxelLocation cfg.maxVoxelSize pv.pointW)) 0
    { single := noPtpl, normal := pv.normal }

/-- The neighbour searched when the own voxel has an octree and yields no match. -/
def neighbourTried : Option VoxelLocation :=
  match voxelMap (voxelLocation cfg.maxVoxelSize pv.pointW) with
  | .nullptr => none
  | .node currentOcto _ =>
      if (ownResidual g cfg voxelMap pv).isSucess then none
      else some (nearPosition cfg.maxVoxelSize pv.pointW currentOcto)

/-- The body of the loop of `BuildResidualListOMP`. -/
def pointResidual : SingleResidual :=
  match neighbourTried g cfg voxelMap pv with
  | none => ownResidual g cfg voxelMap pv
  | some near =>
      buildSingleResidual g cfg.maxLayer pv (voxelMap near) 0 (ownResidual g cfg voxelMap pv)

/-- The match of a point, if it has one. -/
def pointMatch : Option SinglePtpl :=
  let r := pointResidual g cfg voxelMap pv
  if r.isSucess then some r.single else none

/-- `VoxelMapManager::BuildResidualListOMP`: the points with their normals, and the matches. -/
def buildResidualListOMP (pvList : List PointWithVar) : List PointWithVar × List SinglePtpl :=
  (pvList.map fun pv => { pv with normal := (pointResidual g cfg voxelMap pv).normal },
    pvList.filterMap (pointMatch g cfg voxelMap))

end Matching

section Normals

variable {g : ResidualGate} {cfg : VoxelMapConfig} {voxelMap : VoxelLocation → VoxelOctoTree}
variable {pv : PointWithVar}

/-- A normal is one the map gives to a plane. -/
def PlaneNormal (voxelMap : VoxelLocation → VoxelOctoTree) (normal : V3D) : Prop :=
  ∃ position layer maxLayer plane,
    PlaneWithin maxLayer (voxelMap position) 0 layer plane ∧ normal = plane.normal

/-- The variables of a round: as they were at its start, or those of a match. -/
def Outcome (voxelMap : VoxelLocation → VoxelOctoTree) (pv : PointWithVar) (r : SingleResidual) :
    Prop :=
  r = { single := noPtpl, normal := pv.normal } ∨
    r.isSucess = true ∧ r.normal = r.single.normal ∧ PlaneNormal voxelMap r.normal

/-- The search of an octree of the map, from no match. -/
lemma outcome_buildSingleResidual (position : VoxelLocation) :
    Outcome voxelMap pv (buildSingleResidual g cfg.maxLayer pv (voxelMap position) 0
      { single := noPtpl, normal := pv.normal }) := by
  have hsearched : Searched g pv { single := noPtpl, normal := pv.normal }
      (planesWithin cfg.maxLayer (voxelMap position) 0)
      (buildSingleResidual g cfg.maxLayer pv (voxelMap position) 0
        { single := noPtpl, normal := pv.normal }) :=
    searched_buildSingleResidual rfl cfg.maxLayer (voxelMap position) 0
  rcases hsearched with ⟨-, hr⟩ | ⟨⟨layer, plane⟩, hbest, hr⟩
  · exact .inl hr
  · have hcandidate := mem_acceptedOf.mp hbest.mem
    rw [hr]
    exact .inr ⟨rfl, rfl, position, layer, cfg.maxLayer, plane, hcandidate.1, rfl⟩

/-- Where the map has no octree there is no match. -/
lemma pointMatch_of_absent
    (h : voxelMap (voxelLocation cfg.maxVoxelSize pv.pointW) = .nullptr) :
    pointMatch g cfg voxelMap pv = none := by
  have htried : neighbourTried g cfg voxelMap pv = none := by
    unfold neighbourTried
    rw [h]
  unfold pointMatch pointResidual ownResidual
  rw [htried, h]
  rfl

/-- A neighbour is tried only when the own voxel has yielded no match. -/
lemma ownResidual_of_neighbourTried {near : VoxelLocation}
    (h : neighbourTried g cfg voxelMap pv = some near) :
    (ownResidual g cfg voxelMap pv).isSucess = false := by
  unfold neighbourTried at h
  cases hroot : voxelMap (voxelLocation cfg.maxVoxelSize pv.pointW) with
  | nullptr => simp [hroot] at h
  | node d leaves =>
      rw [hroot] at h
      dsimp only at h
      split_ifs at h with hown
      exact eq_false_of_ne_true hown

variable (g cfg voxelMap pv)

lemma outcome_pointResidual : Outcome voxelMap pv (pointResidual g cfg voxelMap pv) := by
  have hown : Outcome voxelMap pv (ownResidual g cfg voxelMap pv) := outcome_buildSingleResidual _
  unfold pointResidual
  cases htried : neighbourTried g cfg voxelMap pv with
  | none => exact hown
  | some near =>
      have hfail := ownResidual_of_neighbourTried htried
      have hstart := hown.resolve_right fun h => absurd (hfail.symm.trans h.1) Bool.false_ne_true
      dsimp only
      rw [hstart]
      exact outcome_buildSingleResidual near

/-- **What a point is left with.**  Either it has no match and keeps its normal, or its normal is
that of its match, and of a plane of the map. -/
theorem pointResidual_cases :
    (pointMatch g cfg voxelMap pv = none ∧
      (pointResidual g cfg voxelMap pv).normal = pv.normal) ∨
    ∃ m, pointMatch g cfg voxelMap pv = some m ∧
      (pointResidual g cfg voxelMap pv).normal = m.normal ∧ PlaneNormal voxelMap m.normal := by
  rcases outcome_pointResidual g cfg voxelMap pv with hr | ⟨hsucess, hnormal, hplane⟩
  · refine .inl ⟨?_, by rw [hr]⟩
    unfold pointMatch
    rw [hr]
    rfl
  · refine .inr ⟨(pointResidual g cfg voxelMap pv).single, ?_, hnormal, hnormal ▸ hplane⟩
    unfold pointMatch
    exact if_pos hsucess

end Normals

/-! ## The neighbour -/

/-- The walls at a quarter from the centre, of the voxel under a key. -/
def quarterWall (voxelSize : ℚ) (key : ℤ) (upper : Bool) : ℚ :=
  (key + if upper then 3 / 4 else 1 / 4) * voxelSize

/-- A wall as the comparison with `loc_xyz` places it: the coordinate beyond which it answers. -/
def wallRead (voxelSize x : ℚ) (key : ℤ) (upper : Bool) : ℚ :=
  if 0 ≤ x then voxelSize * quarterWall voxelSize key upper
  else voxelSize * (quarterWall voxelSize key upper + 1)

/-- The coordinate lies between the upper wall, or the lower one, and where that wall is read. -/
def Misread (voxelSize x : ℚ) : Prop :=
  let key := voxelKey voxelSize x
  let up := quarterWall voxelSize key true
  let low := quarterWall voxelSize key false
  (min up (wallRead voxelSize x key true) < x ∧ x ≤ max up (wallRead voxelSize x key true)) ∨
    min low (wallRead voxelSize x key false) ≤ x ∧ x < max low (wallRead voxelSize x key false)

instance (voxelSize x : ℚ) : Decidable (Misread voxelSize x) :=
  inferInstanceAs (Decidable ((_ ∧ _) ∨ _ ∧ _))

/-- The neighbour on the side where the point itself lies more than `quater_length_` from the
centre of the octree. -/
def sideOf (voxelSize : ℚ) (pw : V3D) (currentOcto : OctoNode) : VoxelLocation := fun j =>
  nearKey (pw j) (currentOcto.voxelCenter j) currentOcto.quaterLength
    (voxelLocation voxelSize pw j)

/-- Two coordinates give one key exactly when no wall tells them apart. -/
lemma nearKey_eq_iff {loc x center quater : ℚ} {key : ℤ} (hquater : 0 < quater) :
    nearKey loc center quater key = nearKey x center quater key ↔
      (center + quater < loc ↔ center + quater < x) ∧
        (loc < center - quater ↔ x < center - quater) := by
  have hside : ∀ y : ℚ, center + quater < y → ¬y < center - quater := by
    intro y hup hlow
    linarith
  have hloc := hside loc
  have hx := hside x
  unfold nearKey
  by_cases h₁ : center + quater < loc <;> by_cases h₂ : center + quater < x <;>
    by_cases h₃ : loc < center - quater <;> by_cases h₄ : x < center - quater <;>
      simp [h₁, h₂, h₃, h₄] at hloc hx ⊢ <;> omega

/-- A comparison with `loc_xyz` is one of the coordinate with the wall as it is read. -/
lemma lt_locXyz_iff {voxelSize x : ℚ} (hpos : 0 < voxelSize) (key : ℤ) (upper : Bool) :
    (quarterWall voxelSize key upper < locXyz voxelSize x ↔ wallRead voxelSize x key upper < x) ∧
      (locXyz voxelSize x < quarterWall voxelSize key upper ↔
        x < wallRead voxelSize x key upper) := by
  unfold locXyz wallRead
  dsimp only
  rcases lt_or_ge x 0 with hneg | hnonneg
  · rw [if_pos (div_neg_of_neg_of_pos hneg hpos), if_neg (not_le.mpr hneg), lt_sub_iff_add_lt,
      sub_lt_iff_lt_add, lt_div_iff₀ hpos, div_lt_iff₀ hpos, mul_comm voxelSize]
    exact ⟨Iff.rfl, Iff.rfl⟩
  · rw [if_neg (not_lt.mpr (div_nonneg hnonneg hpos.le)), if_pos hnonneg, lt_div_iff₀ hpos,
      div_lt_iff₀ hpos, mul_comm voxelSize]
    exact ⟨Iff.rfl, Iff.rfl⟩

/-- Exactly one of two comparisons holds when the coordinate lies between the two bounds. -/
lemma lt_iff_lt_iff_not_between {a b x : ℚ} : (b < x ↔ a < x) ↔ ¬(min a b < x ∧ x ≤ max a b) := by
  rw [min_lt_iff, ← not_lt, max_lt_iff]
  tauto

lemma gt_iff_gt_iff_not_between {a b x : ℚ} : (x < b ↔ x < a) ↔ ¬(min a b ≤ x ∧ x < max a b) := by
  rw [lt_max_iff, ← not_lt, lt_min_iff]
  tauto

/-- On one axis the code takes the side of the coordinate exactly when no wall is misread. -/
lemma nearKey_locXyz_iff {voxelSize x : ℚ} (hpos : 0 < voxelSize) :
    let key := voxelKey voxelSize x
    nearKey (locXyz voxelSize x) ((1 / 2 + key) * voxelSize) (voxelSize / 4) key =
        nearKey x ((1 / 2 + key) * voxelSize) (voxelSize / 4) key ↔ ¬Misread voxelSize x := by
  intro key
  have hup : (1 / 2 + key) * voxelSize + voxelSize / 4 = quarterWall voxelSize key true := by
    simp only [quarterWall, if_true]
    ring
  have hlow : (1 / 2 + key) * voxelSize - voxelSize / 4 = quarterWall voxelSize key false := by
    simp only [quarterWall, Bool.false_eq_true, if_false]
    ring
  rw [nearKey_eq_iff (by linarith), hup, hlow, (lt_locXyz_iff hpos key true).1,
    (lt_locXyz_iff hpos key false).2, lt_iff_lt_iff_not_between, gt_iff_gt_iff_not_between,
    ← not_or]
  exact Iff.rfl

namespace VoxelMapManager

/-- **The neighbour searched.**  When the octree of the point's voxel yields no match, the
neighbour tried is the one on the side where the point lies exactly when no axis misreads a wall:
the comparison is made in voxels where the walls are in metres. -/
theorem neighbourTried_iff {g : ResidualGate} {cfg : VoxelMapConfig} {calls : List VoxelMapCall}
    {pv : PointWithVar} {near : VoxelLocation}
    (htried : neighbourTried g cfg (after cfg calls).voxelMap pv = some near) :
    ∃ currentOcto leaves,
      (after cfg calls).voxelMap (voxelLocation cfg.maxVoxelSize pv.pointW) =
        .node currentOcto leaves ∧
      (ownResidual g cfg (after cfg calls).voxelMap pv).isSucess = false ∧
      (near = sideOf cfg.maxVoxelSize pv.pointW currentOcto ↔
        ∀ j, ¬Misread cfg.maxVoxelSize (pv.pointW j)) := by
  have hfail := ownResidual_of_neighbourTried htried
  unfold neighbourTried at htried
  cases hroot : (after cfg calls).voxelMap (voxelLocation cfg.maxVoxelSize pv.pointW) with
  | nullptr =>
      rw [hroot] at htried
      cases htried
  | node currentOcto leaves =>
      rw [hroot] at htried
      dsimp only at htried
      split_ifs at htried
      refine ⟨currentOcto, leaves, rfl, hfail, ?_⟩
      obtain ⟨-, -, hquater, hcenter⟩ := root_geometry (geoAt_after hroot)
      rw [← Option.some.inj htried, funext_iff]
      refine forall_congr' fun j => ?_
      show nearKey _ (currentOcto.voxelCenter j) currentOcto.quaterLength _ =
        nearKey _ (currentOcto.voxelCenter j) currentOcto.quaterLength _ ↔ _
      rw [hquater, hcenter j]
      exact nearKey_locXyz_iff cfg.maxVoxelSize_pos

/-- A library whose root is zero everywhere, for a search that accepts nothing. -/
def blindLibm : GateLibm where
  sqrt := fun _ => 0
  exp := fun _ => 1
  sqrt_nonneg := fun _ => le_refl 0
  exp_pos := fun _ => zero_lt_one

/-- A point on the middle of its voxel's side, ten metres along the first axis. -/
def middlePoint : PointWithVar := { pointW := ![41 / 4, 0, 0] }

/-- The map that holds this point alone, in a root that is no plane. -/
def middleMap : VoxelMapManager :=
  after { maxVoxelSize_pos := VoxelMapConfig.half_pos } [.update [(middlePoint, fun _ => {})]]

/-- A point of the same voxel near its far corner. -/
def cornerPoint : PointWithVar := { pointW := ![209 / 20, 9 / 20, 9 / 20] }

/-- The neighbour is searched on exactly the side where the point lies. -/
theorem neighbourTried_iff_cornerPoint :
    ∃ currentOcto leaves, middleMap.voxelMap ![20, 0, 0] = .node currentOcto leaves ∧
      (![21, 1, 1] = sideOf (1 / 2) cornerPoint.pointW currentOcto) := by
  have htried : neighbourTried (residualGate blindLibm 3) {} middleMap.voxelMap cornerPoint =
      some ![21, 1, 1] := by decide +kernel
  obtain ⟨currentOcto, leaves, hroot, -, hside⟩ := neighbourTried_iff htried
  refine ⟨currentOcto, leaves, ?_, hside.mpr (by decide +kernel)⟩
  rw [← hroot]
  exact congrArg _ (by decide +kernel)

/-- The point is on the middle of the side, yet the next voxel is searched. -/
theorem neighbour_of_middlePoint :
    neighbourTried (residualGate blindLibm 3) {} middleMap.voxelMap middlePoint =
        some ![21, -1, -1] ∧
      (∃ currentOcto leaves, middleMap.voxelMap ![20, 0, 0] = .node currentOcto leaves ∧
        sideOf (1 / 2) middlePoint.pointW currentOcto = ![20, -1, -1]) := by
  refine ⟨by decide +kernel, ?_⟩
  cases hroot : middleMap.voxelMap ![20, 0, 0] with
  | nullptr =>
      have hnull : (middleMap.voxelMap ![20, 0, 0]).isNull = false := by decide +kernel
      rw [hroot] at hnull
      exact absurd hnull.symm Bool.false_ne_true
  | node currentOcto leaves =>
      refine ⟨currentOcto, leaves, rfl, ?_⟩
      obtain ⟨-, -, hquater, hcenter⟩ := root_geometry (geoAt_after hroot)
      unfold sideOf
      simp only [hquater, hcenter]
      decide +kernel

end VoxelMapManager

end FastLivo2
