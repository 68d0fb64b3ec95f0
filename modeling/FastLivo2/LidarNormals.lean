import FastLivo2.OctoTreeContents
import FastLivo2.PlaneMatching
import FastLivo2.PointCovariance

/-!
# The normals the LiDAR update leaves

`StateEstimation` keeps the points of a scan in `pv_list_` from one iteration to the next, while
`BuildResidualListOMP` rebuilds the list of matches each time.  The normal of a point is only
written when the point has a match, so it is that of the latest iteration in which it had one
(`loop_normal`).
-/

namespace FastLivo2

namespace LidarUpdate

/-- The update with the matching of the code, on a map. -/
def onMap (u : LidarUpdate) (g : ResidualGate) (cfg : VoxelMapConfig)
    (voxelMap : VoxelLocation → VoxelOctoTree) : LidarUpdate :=
  { u with buildResidualList := fun pvList =>
      let r := buildResidualListOMP g cfg voxelMap pvList
      (r.1, r.2.map SinglePtpl.toPointToPlane) }

section Run

variable (N : Numerics) (u : LidarUpdate)

/-- The variables at the start of each iteration executed. -/
def passes : ℕ → ℕ → Loop → List Loop
  | 0, _, _ => []
  | n + 1, iterCount, v =>
      let v' := u.iteration N iterCount v
      v :: if v'.ekfStop then [] else passes n (iterCount + 1) v'

/-- The variables `StateEstimation` starts its loop with. -/
def start (s : StatesGroup) : Loop where
  state := s
  linState := s
  pvList := List.replicate u.featsDownBody.length {}

/-- The iterations executed by `StateEstimation`. -/
def executed (s : StatesGroup) : List Loop := passes N u u.maxIterations 0 (u.start s)

end Run

/-- The normal of a point. -/
def Loop.normalOf (v : Loop) (i : ℕ) : V3D := v.pvList[i]?.elim 0 PointWithVar.normal

/-- There is a point for each one of the scan. -/
def Loop.Sized (u : LidarUpdate) (v : Loop) : Prop := v.pvList.length = u.featsDownBody.length

/-- The match of a point in the iteration that starts with these variables. -/
def matchIn (u : LidarUpdate) (g : ResidualGate) (cfg : VoxelMapConfig)
    (voxelMap : VoxelLocation → VoxelOctoTree) (i : ℕ) (v : Loop) : Option SinglePtpl :=
  (u.refreshed v)[i]?.bind (pointMatch g cfg voxelMap)

section Normals

variable {N : Numerics} {u : LidarUpdate} {g : ResidualGate} {cfg : VoxelMapConfig}
variable {voxelMap : VoxelLocation → VoxelOctoTree}

@[simp] lemma judge_pvList (m : Libm) (iterCount : ℕ) (solution : VState) (v : Loop) :
    (u.judge m iterCount solution v).pvList = v.pvList := by
  obtain ⟨rematchNum, hends | ⟨-, hgoes⟩⟩ := judge_cases (u := u) m iterCount solution v
  · rw [hends]
  · rw [hgoes]

/-- The points after an iteration are the refreshed ones with the normals of the matching. -/
lemma iteration_pvList (iterCount : ℕ) (v : Loop) :
    ((u.onMap g cfg voxelMap).iteration N iterCount v).pvList =
      (u.refreshed v).map fun pv =>
        { pv with normal := (pointResidual g cfg voxelMap pv).normal } := by
  unfold iteration
  rw [judge_pvList]
  rfl

lemma refreshed_length {v : Loop} (h : v.Sized u) :
    (u.refreshed v).length = u.featsDownBody.length := by
  unfold Loop.Sized at h
  rw [refreshed, List.length_zipWith, h, min_self]

lemma Loop.Sized.iteration {v : Loop} (h : v.Sized u) (iterCount : ℕ) :
    ((u.onMap g cfg voxelMap).iteration N iterCount v).Sized u := by
  unfold Loop.Sized
  rw [iteration_pvList, List.length_map, refreshed_length h]

/-- **One iteration.**  The normal of a point is that of its match, or the one it had. -/
lemma iteration_normal {v : Loop} (h : v.Sized u) (iterCount : ℕ) {i : ℕ}
    (hi : i < u.featsDownBody.length) :
    ((u.onMap g cfg voxelMap).iteration N iterCount v).normalOf i =
      ((matchIn u g cfg voxelMap i v).map fun m => m.normal).getD (v.normalOf i) := by
  have hlen : i < v.pvList.length := h.symm ▸ hi
  have hpoint : (u.refreshed v)[i]? =
      some (u.pointWithVar v.state v.pvList[i] u.featsDownBody[i]) := by
    rw [refreshed, List.getElem?_zipWith, List.getElem?_eq_getElem hlen,
      List.getElem?_eq_getElem hi]
  unfold Loop.normalOf matchIn
  rw [iteration_pvList, List.getElem?_map, hpoint, List.getElem?_eq_getElem hlen]
  dsimp only [Option.map_some, Option.elim_some, Option.bind_some]
  rcases pointResidual_cases g cfg voxelMap
      (u.pointWithVar v.state v.pvList[i] u.featsDownBody[i]) with
    ⟨hnone, hnormal⟩ | ⟨m, hm, hnormal, -⟩
  · rw [hnone, hnormal]
    rfl
  · rw [hm, hnormal]
    rfl

/-- The normal after a list of iterations. -/
def lastNormal (u : LidarUpdate) (g : ResidualGate) (cfg : VoxelMapConfig)
    (voxelMap : VoxelLocation → VoxelOctoTree) (i : ℕ) (vs : List Loop) (normal : V3D) : V3D :=
  ((vs.filterMap (matchIn u g cfg voxelMap i)).getLast?.map fun m => m.normal).getD normal

lemma lastNormal_cons (i : ℕ) (v : Loop) (vs : List Loop) (normal : V3D) :
    lastNormal u g cfg voxelMap i (v :: vs) normal =
      lastNormal u g cfg voxelMap i vs
        (((matchIn u g cfg voxelMap i v).map fun m => m.normal).getD normal) := by
  unfold lastNormal
  cases hm : matchIn u g cfg voxelMap i v with
  | none => rw [List.filterMap_cons_none hm, Option.map_none, Option.getD_none]
  | some m =>
      rw [List.filterMap_cons_some hm, List.getLast?_cons]
      cases (vs.filterMap (matchIn u g cfg voxelMap i)).getLast? with
      | none => rfl
      | some m' => rfl

/-- **The loop.**  The normal of a point is that of its latest match. -/
theorem loop_normal (n : ℕ) {i : ℕ} (hi : i < u.featsDownBody.length) :
    ∀ (iterCount : ℕ) (v : Loop), v.Sized u →
      (loop N (u.onMap g cfg voxelMap) n iterCount v).normalOf i =
        lastNormal u g cfg voxelMap i (passes N (u.onMap g cfg voxelMap) n iterCount v)
          (v.normalOf i) := by
  induction n with
  | zero => exact fun _ _ _ => rfl
  | succ n ih =>
      intro iterCount v h
      unfold loop passes
      rw [lastNormal_cons, ← iteration_normal h iterCount hi]
      dsimp only
      split_ifs with hstop
      · rfl
      · exact ih (iterCount + 1) _ (h.iteration iterCount)

/-- **The update.**  From no normals, a point ends with that of its latest match. -/
theorem stateEstimation_normal (N : Numerics) {i : ℕ} (hi : i < u.featsDownBody.length)
    (s : StatesGroup) :
    ((u.onMap g cfg voxelMap).stateEstimation N s).normalOf i =
      lastNormal u g cfg voxelMap i (executed N (u.onMap g cfg voxelMap) s) 0 := by
  have hsized : (u.start s).Sized u := List.length_replicate
  refine (loop_normal u.maxIterations hi 0 (u.start s) hsized).trans ?_
  congr 1
  show (List.replicate u.featsDownBody.length ({} : PointWithVar))[i]?.elim 0 _ = 0
  rw [List.getElem?_replicate_of_lt hi]
  rfl

/-! ## Normals of the last iteration -/

/-- Every plane of the map has a normal, as the eigenvector routine gives one of unit length. -/
def NormalsSet (voxelMap : VoxelLocation → VoxelOctoTree) : Prop :=
  ∀ position, (voxelMap position).Everywhere fun d _ =>
    d.plane.isPlane = true → d.plane.normal ≠ 0

/-- A map built with fits that give every plane a normal has one for every plane. -/
theorem normalsSet_after (cfg : VoxelMapConfig) {Q : PointWithVar → Prop}
    {calls : List VoxelMapCall}
    (hcalls : ∀ c ∈ calls, c.Gives (fun plane => plane.isPlane = true → plane.normal ≠ 0) Q) :
    NormalsSet (VoxelMapManager.after cfg calls).voxelMap := fun position =>
  PTree.Everywhere.mono (fun _ _ hd => OctoNode.Holds.plane hd)
    (VoxelMapManager.holds_after (fun h => absurd h Bool.false_ne_true) cfg hcalls position)

lemma ne_zero_of_planeNormal {normal : V3D} (h : PlaneNormal voxelMap normal)
    (hmap : NormalsSet voxelMap) : normal ≠ 0 := by
  obtain ⟨position, layer, maxLayer, plane, hwithin, rfl⟩ := h
  exact hwithin.of_everywhere (P := fun plane => plane.normal ≠ 0) (hmap position)

lemma matchIn_normal_ne_zero {i : ℕ} {v : Loop} {m : SinglePtpl} (hmap : NormalsSet voxelMap)
    (h : matchIn u g cfg voxelMap i v = some m) : m.normal ≠ 0 := by
  obtain ⟨pv, -, hpv⟩ := Option.bind_eq_some_iff.mp h
  rcases pointResidual_cases g cfg voxelMap pv with ⟨hnone, -⟩ | ⟨m', hm', -, hplane⟩
  · rw [hnone] at hpv
    cases hpv
  · rw [hm'] at hpv
    obtain rfl := Option.some.inj hpv
    exact ne_zero_of_planeNormal hplane hmap

/-- The match of a point in the last of a list of iterations. -/
def lastMatch (u : LidarUpdate) (g : ResidualGate) (cfg : VoxelMapConfig)
    (voxelMap : VoxelLocation → VoxelOctoTree) (i : ℕ) (vs : List Loop) : Option SinglePtpl :=
  vs.getLast?.bind (matchIn u g cfg voxelMap i)

/-- A match of the last iteration is the latest match. -/
lemma lastNormal_of_lastMatch {i : ℕ} {vs : List Loop} {m : SinglePtpl} {normal : V3D}
    (h : lastMatch u g cfg voxelMap i vs = some m) :
    lastNormal u g cfg voxelMap i vs normal = m.normal := by
  obtain ⟨v, hv, hm⟩ := Option.bind_eq_some_iff.mp h
  obtain ⟨vs', rfl⟩ := List.getLast?_eq_some_iff.mp hv
  unfold lastNormal
  rw [List.filterMap_append, List.filterMap_cons_some hm, List.getLast?_append]
  rfl

/-- A point keeps its first normal when no iteration matches it. -/
lemma lastNormal_of_unmatched {i : ℕ} {vs : List Loop} {normal : V3D}
    (h : ∀ v ∈ vs, matchIn u g cfg voxelMap i v = none) :
    lastNormal u g cfg voxelMap i vs normal = normal := by
  unfold lastNormal
  rw [List.filterMap_eq_nil_iff.mpr h]
  rfl

/-- A point some iteration matches has the normal of a plane. -/
lemma lastNormal_ne_zero {i : ℕ} {v : Loop} {vs : List Loop} {normal : V3D}
    (hmap : NormalsSet voxelMap) (hv : v ∈ vs) (h : matchIn u g cfg voxelMap i v ≠ none) :
    lastNormal u g cfg voxelMap i vs normal ≠ 0 := by
  obtain ⟨m, hm⟩ := Option.ne_none_iff_exists'.mp h
  have hne : vs.filterMap (matchIn u g cfg voxelMap i) ≠ [] :=
    List.ne_nil_of_mem (List.mem_filterMap.mpr ⟨v, hv, hm⟩)
  obtain ⟨w, -, hw⟩ := List.mem_filterMap.mp (List.getLast_mem hne)
  unfold lastNormal
  rw [List.getLast?_eq_getLast_of_ne_nil hne]
  exact matchIn_normal_ne_zero hmap hw

/-- The normals tell which points the last iteration matched, and give the planes. -/
def FreshNormals (u : LidarUpdate) (g : ResidualGate) (cfg : VoxelMapConfig)
    (voxelMap : VoxelLocation → VoxelOctoTree) (vs : List Loop) (v : Loop) : Prop :=
  ∀ i < u.featsDownBody.length,
    (v.normalOf i ≠ 0 ↔ lastMatch u g cfg voxelMap i vs ≠ none) ∧
      ∀ m, lastMatch u g cfg voxelMap i vs = some m → v.normalOf i = m.normal

/-- **The normals the update leaves.**  They are those of the last iteration executed exactly when
every point that some iteration matched is matched by the last one: nothing resets the normal of a
point that has lost its match. -/
theorem freshNormals_iff (N : Numerics) (u : LidarUpdate) (g : ResidualGate)
    (cfg : VoxelMapConfig) (hmap : NormalsSet voxelMap) (s : StatesGroup) :
    let vs := executed N (u.onMap g cfg voxelMap) s
    FreshNormals u g cfg voxelMap vs ((u.onMap g cfg voxelMap).stateEstimation N s) ↔
      ∀ i < u.featsDownBody.length, ∀ v ∈ vs, matchIn u g cfg voxelMap i v ≠ none →
        lastMatch u g cfg voxelMap i vs ≠ none := by
  intro vs
  have hnormal : ∀ i < u.featsDownBody.length,
      ((u.onMap g cfg voxelMap).stateEstimation N s).normalOf i =
        lastNormal u g cfg voxelMap i vs 0 :=
    fun i hi => stateEstimation_normal N hi s
  constructor
  · intro hfresh i hi v hv hmatch
    refine (hfresh i hi).1.mp ?_
    rw [hnormal i hi]
    exact lastNormal_ne_zero hmap hv hmatch
  · intro hkept i hi
    rw [hnormal i hi]
    refine ⟨⟨fun hne => ?_, fun hlast => ?_⟩, fun m hm => lastNormal_of_lastMatch hm⟩
    · by_contra hlast
      refine hne (lastNormal_of_unmatched fun v hv => ?_)
      by_contra hmatch
      exact hkept i hi v hv hmatch hlast
    · obtain ⟨v, hv, hm⟩ : ∃ v ∈ vs, matchIn u g cfg voxelMap i v ≠ none := by
        obtain ⟨m, hm⟩ := Option.ne_none_iff_exists'.mp hlast
        obtain ⟨v, hv, hm⟩ := Option.bind_eq_some_iff.mp hm
        exact ⟨v, List.mem_of_getLast? hv, by simp [hm]⟩
      exact lastNormal_ne_zero hmap hv hm

end Normals

/-! ## A point that loses its match -/

deriving instance DecidableEq for PointToPlane

/-- A library for a vehicle that does not turn. -/
noncomputable def wallLibs : Numerics where
  sin := fun x => x
  cos := fun _ => 1
  sqrt := squareRoot
  acos := fun _ => 0
  inverse := fun A => A⁻¹
  inverse_mul := inv_mul_of_isUnit

/-- The gate with `sigma_num` of the code. -/
def wallGate : ResidualGate :=
  residualGate
    { VoxelMapManager.blindLibm with sqrt := squareRoot, sqrt_nonneg := squareRoot_nonneg } 3

/-- The normal of a wall that faces the vehicle at an angle. -/
def wallNormal : V3D := ![2 / 3, -1 / 3, 2 / 3]

/-- The wall, with its centre near the corner of a voxel. -/
def wallPlane : VoxelPlane where
  center := ![2547 / 5000, -21 / 1250, 1293 / 2500]
  normal := wallNormal
  planeVar := Matrix.diagonal fun i => if i.val < 3 then 1 / 100 else 3110839 / 2500000000
  radius := 1 / 10
  d := -69 / 100
  isPlane := true

/-- The only octree of the map is a root with this wall. -/
def wallMap (position : VoxelLocation) : VoxelOctoTree :=
  if position = ![1, -1, 1] then
    let root := VoxelMapConfig.newRoot { maxVoxelSize_pos := VoxelMapConfig.half_pos } ![1, -1, 1]
    .node { root with initOcto := true, plane := wallPlane } fun _ => .nullptr
  else .nullptr

/-- A scan of one point behind the wall, `r` metres away along its normal, and two iterations.  The
errors are the defaults of `dept_err` and `beam_err`. -/
noncomputable def wallScan (r : ℚ) : LidarUpdate where
  maxIterations := 2
  calcBodyCov := FastLivo2.calcBodyCov wallLibs.toLibm (1 / 20) (1 / 50)
  buildResidualList := fun pvList => (pvList, [])
  featsDownBody := [r • wallNormal]
  statePropagat := {}

/-- The update of this scan on this map. -/
noncomputable abbrev wallUpdate (r : ℚ) : LidarUpdate :=
  (wallScan r).onMap wallGate { maxVoxelSize_pos := VoxelMapConfig.half_pos } wallMap

/-- The match of the point in the first iteration. -/
noncomputable def wallMatch (r : ℚ) : PointToPlane where
  pointB := r • wallNormal
  normal := wallNormal
  center := wallPlane.center
  planeVar := wallPlane.planeVar
  bodyCov := FastLivo2.calcBodyCov wallLibs.toLibm (1 / 20) (1 / 50) (r • wallNormal)
  disToPlane := r - 69 / 100

/-- The step of the first iteration, back along the ray. -/
def wallStep (length : ℚ) : VState := fun i =>
  if i.val = 3 then -2 / 3 * length else if i.val = 4 then 1 / 3 * length
  else if i.val = 5 then -2 / 3 * length else 0

/-- A point twelve centimetres behind the wall and one of twenty-one, with the lengths of their
steps. -/
def wallCases : List (ℚ × ℚ) := [(81 / 100, 6 / 77), (9 / 10, 2100 / 15697)]

lemma wall_matched : ∀ c ∈ wallCases, ((wallUpdate c.1).buildResidualList
    ((wallUpdate c.1).refreshed ((wallUpdate c.1).start {}))).2 = [wallMatch c.1] := by
  decide +kernel

/-- The inverse of the first covariance. -/
def startInformation : MState := Matrix.diagonal fun i =>
  if i.val = 6 ∨ 10 ≤ i.val then 100000 else 100

lemma start_posDef : (({} : StatesGroup).cov).PosDef := by
  refine Matrix.PosDef.diagonal fun i => ?_
  split_ifs <;> norm_num

lemma inverse_start : wallLibs.inverse ({} : StatesGroup).cov = startInformation := by
  refine Matrix.inv_eq_left_inv ?_
  unfold startInformation
  rw [Matrix.diagonal_mul_diagonal, ← Matrix.diagonal_one]
  congr 1
  ext i
  split_ifs <;> norm_num

/-- A state differs by nothing from itself. -/
lemma sub_start : ({} : StatesGroup).sub wallLibs {} = 0 := by
  have hrot : logRot wallLibs (({} : StatesGroup).rotEnd.transpose * ({} : StatesGroup).rotEnd) =
      0 := by
    show logRot wallLibs ((1 : M3D).transpose * 1) = 0
    rw [Matrix.transpose_one, one_mul, logRot_one]
  unfold StatesGroup.sub
  rw [hrot]
  decide +kernel

lemma leadCols_mulVec (M : MState) (x : Fin 6 → ℚ) :
    (leadCols M (d := 6) (by decide)).mulVec x =
      M.mulVec ((leadSel ℚ dimState 6).transpose.mulVec x) := by
  rw [leadCols_eq_mul, Matrix.mulVec_mulVec]

lemma wall_information : ∀ c ∈ wallCases,
    (setCorner (0 : MState) ((wallUpdate c.1).hSubTRInv {} [wallMatch c.1] *
        (wallUpdate c.1).hSub {} [wallMatch c.1]) + startInformation).mulVec (wallStep c.2) =
      (leadSel ℚ dimState 6).transpose.mulVec
        (((wallUpdate c.1).hSubTRInv {} [wallMatch c.1]).mulVec
          fun i => -([wallMatch c.1].get i).disToPlane) := by
  decide +kernel

lemma wall_weights : ∀ c ∈ wallCases, ∀ i, 0 ≤ (wallUpdate c.1).rInv [wallMatch c.1] i := by
  decide +kernel

lemma wall_solution {c : ℚ × ℚ} (hc : c ∈ wallCases) :
    ((wallUpdate c.1).kalmanStep wallLibs ((wallUpdate c.1).start {})).2 = wallStep c.2 := by
  have hunit := isUnit_add_inv (information_posSemidef (s := {}) (wall_weights c hc)) start_posDef
  rw [← setCorner_information, ← wallLibs.inverse_eq start_posDef.isUnit, inverse_start] at hunit
  have hinv := wallLibs.inverse_mul _ hunit
  unfold kalmanStep
  dsimp only
  rw [wall_matched c hc, show ((wallUpdate c.1).start {}).state = ({} : StatesGroup) from rfl]
  show (leadCols (wallLibs.inverse (setCorner 0 _ + wallLibs.inverse ({} : StatesGroup).cov))
    _).mulVec _ + ({} : StatesGroup).sub wallLibs {} -
      (leadCols _ _).mulVec ((({} : StatesGroup).sub wallLibs {}).lead _) = _
  rw [inverse_start, sub_start, leadCols_mulVec, ← wall_information c hc, Matrix.mulVec_mulVec,
    hinv, Matrix.one_mulVec]
  have hlead : VState.lead (0 : VState) pose_le_dimState = 0 := rfl
  rw [hlead, Matrix.mulVec_zero, add_zero, sub_zero]

/-- The first of several iterations does not end the loop: it counts one rematch at most. -/
lemma iteration_first (N : Numerics) (u : LidarUpdate) (v : Loop) (hcount : v.rematchNum = 0)
    (hmore : 1 < u.maxIterations) :
    (u.iteration N 0 v).ekfStop = false ∧
      (u.iteration N 0 v).state = v.state.add N.toLibm (u.kalmanStep N v).2 := by
  have hgoes : ∀ n ≤ 1, ¬(2 ≤ n ∨ 0 + 1 = u.maxIterations) := by
    intro n hn
    omega
  have hstart : (u.kalmanStep N v).1.rematchNum = 0 := hcount
  unfold iteration judge
  dsimp only
  rw [hstart, if_neg (hgoes _ (by split_ifs <;> omega))]
  exact ⟨rfl, rfl⟩

/-- Of two iterations both are executed. -/
lemma executed_two (N : Numerics) (u : LidarUpdate) (s : StatesGroup) (h : u.maxIterations = 2) :
    executed N u s = [u.start s, u.iteration N 0 (u.start s)] := by
  unfold executed
  rw [h]
  unfold passes
  dsimp only
  rw [(iteration_first N u (u.start s) rfl (by omega)).1, if_neg Bool.false_ne_true]
  unfold passes
  dsimp only
  split_ifs <;> rfl

/-- Where the map has no octree for a point as the state places it, the point has no match. -/
lemma matchIn_of_absent {u : LidarUpdate} {g : ResidualGate} {cfg : VoxelMapConfig}
    {voxelMap : VoxelLocation → VoxelOctoTree} {i : ℕ} {v : Loop} {p : V3D}
    (hp : u.featsDownBody[i]? = some p)
    (habsent : voxelMap (voxelLocation cfg.maxVoxelSize
      (v.state.rotEnd.mulVec (u.extR.mulVec p + u.extT) + v.state.posEnd)) = .nullptr) :
    matchIn u g cfg voxelMap i v = none := by
  unfold matchIn refreshed
  rw [List.getElem?_zipWith, hp]
  cases v.pvList[i]? with
  | none => rfl
  | some pv => exact pointMatch_of_absent habsent

lemma lastMatch_two (u : LidarUpdate) (g : ResidualGate) (cfg : VoxelMapConfig)
    (voxelMap : VoxelLocation → VoxelOctoTree) (i : ℕ) (v w : Loop) :
    lastMatch u g cfg voxelMap i [v, w] = matchIn u g cfg voxelMap i w := rfl

/-- A match of the first iteration outlasts a second one without. -/
lemma lastNormal_two {u : LidarUpdate} {g : ResidualGate} {cfg : VoxelMapConfig}
    {voxelMap : VoxelLocation → VoxelOctoTree} {i : ℕ} {v w : Loop} {m : SinglePtpl}
    (hv : matchIn u g cfg voxelMap i v = some m) (hw : matchIn u g cfg voxelMap i w = none)
    (normal : V3D) :
    lastMatch u g cfg voxelMap i [v, w] = none ∧
      lastNormal u g cfg voxelMap i [v, w] normal = m.normal := by
  rw [lastMatch_two, lastNormal_cons, lastNormal_cons, hv, hw]
  exact ⟨rfl, rfl⟩

/-- The state the second iteration starts with. -/
lemma wall_second {c : ℚ × ℚ} (hc : c ∈ wallCases) :
    ((wallUpdate c.1).iteration wallLibs 0 ((wallUpdate c.1).start {})).state =
      { ({} : StatesGroup) with posEnd := -c.2 • wallNormal } := by
  have hmore : 1 < (wallUpdate c.1).maxIterations := Nat.one_lt_two
  have hturn : ∀ c ∈ wallCases,
      ¬1 / 100000 < V3D.norm wallLibs.toLibm ((wallStep c.2).seg 0) := by
    decide +kernel
  have hrest : ∀ c ∈ wallCases, (wallStep c.2).seg 3 = -c.2 • wallNormal ∧ wallStep c.2 6 = 0 ∧
      ∀ r ∈ [7, 10, 13, 16], (wallStep c.2).seg r = 0 := by
    decide +kernel
  obtain ⟨hpos, hexpo, hzero⟩ := hrest c hc
  have hexp : expVec wallLibs.toLibm ((wallStep c.2).seg 0) = 1 := if_neg (hturn c hc)
  rw [(iteration_first wallLibs (wallUpdate c.1) _ rfl hmore).2, wall_solution hc]
  show ({} : StatesGroup).add wallLibs.toLibm (wallStep c.2) = _
  unfold StatesGroup.add
  rw [hexp, hpos, hexpo, hzero 7 (by simp), hzero 10 (by simp), hzero 13 (by simp),
    hzero 16 (by simp)]
  simp only [mul_one, add_zero, zero_add]

/-- Moved out of the voxel of the wall, the nearer point has no match any more. -/
lemma wall_lost : matchIn (wallScan (81 / 100)) wallGate {} wallMap 0
    ((wallUpdate (81 / 100)).iteration wallLibs 0 ((wallUpdate (81 / 100)).start {})) = none := by
  have hstate := wall_second (c := (81 / 100, 6 / 77)) List.mem_cons_self
  refine matchIn_of_absent (p := (81 / 100 : ℚ) • wallNormal) rfl ?_
  dsimp only at hstate
  rw [hstate]
  have hkey : ¬voxelLocation (1 / 2) ((1 : M3D).mulVec
      ((1 : M3D).mulVec ((81 / 100 : ℚ) • wallNormal) + 0) + -(6 / 77 : ℚ) • wallNormal) =
      ![1, -1, 1] := by
    decide +kernel
  exact if_neg hkey

/-- **The last iteration has no match for the point, and the point still has the wall's normal.** -/
theorem wall_normal_kept :
    lastMatch (wallScan (81 / 100)) wallGate {} wallMap 0
        (executed wallLibs (wallUpdate (81 / 100)) {}) = none ∧
      ((wallUpdate (81 / 100)).stateEstimation wallLibs {}).normalOf 0 = wallNormal := by
  have hmatch : (matchIn (wallScan (81 / 100)) wallGate {} wallMap 0
      ((wallUpdate (81 / 100)).start {})).map (fun m => m.normal) = some wallNormal := by
    decide +kernel
  obtain ⟨m, hm, hnormal⟩ := Option.map_eq_some_iff.mp hmatch
  have htwo := lastNormal_two hm wall_lost 0
  rw [← executed_two wallLibs (wallUpdate (81 / 100)) {} rfl] at htwo
  refine ⟨htwo.1, ?_⟩
  have hlast : ((wallUpdate (81 / 100)).stateEstimation wallLibs {}).normalOf 0 =
      lastNormal (wallScan (81 / 100)) wallGate {} wallMap 0
        (executed wallLibs (wallUpdate (81 / 100)) {}) 0 :=
    stateEstimation_normal wallLibs Nat.one_pos {}
  exact hlast.trans (htwo.2.trans hnormal)

/-- The map has a normal for its plane. -/
lemma wallMap_normalsSet : NormalsSet wallMap := by
  intro position
  unfold wallMap
  split_ifs
  · exact ⟨fun _ => by decide +kernel, fun _ => trivial⟩
  · trivial

/-- The farther point as the update has it with the vehicle at `posEnd`. -/
noncomputable def keptPoint (posEnd normal : V3D) : PointWithVar :=
  (wallScan (9 / 10)).pointWithVar { posEnd := posEnd } { normal := normal }
    ((9 / 10 : ℚ) • wallNormal)

/-- The farther point stays in the voxel of the wall, and is matched again. -/
lemma wall_kept : matchIn (wallScan (9 / 10)) wallGate {} wallMap 0
    ((wallUpdate (9 / 10)).iteration wallLibs 0 ((wallUpdate (9 / 10)).start {})) ≠ none := by
  have hstate := wall_second (c := (9 / 10, 2100 / 15697))
    (List.mem_cons_of_mem _ List.mem_cons_self)
  have hnormal : (pointResidual wallGate {} wallMap (keptPoint 0 0)).normal = wallNormal := by
    decide +kernel
  have hpoints : ((wallUpdate (9 / 10)).iteration wallLibs 0
      ((wallUpdate (9 / 10)).start {})).pvList =
      [{ keptPoint 0 0 with
          normal := (pointResidual wallGate {} wallMap (keptPoint 0 0)).normal }] :=
    iteration_pvList 0 _
  have hmatched : (pointMatch wallGate {} wallMap
      (keptPoint (-(2100 / 15697 : ℚ) • wallNormal) wallNormal)).isSome = true := by
    decide +kernel
  rw [hnormal] at hpoints
  dsimp only at hstate
  unfold matchIn
  rw [refreshed, hstate, hpoints]
  exact Option.isSome_iff_ne_none.mp hmatched

/-- The point farther behind the wall is matched by both iterations, and has the wall's normal. -/
theorem freshNormals_iff_kept :
    (wallUpdate (9 / 10)).maxIterations = 2 ∧
    FreshNormals (wallScan (9 / 10)) wallGate {} wallMap
      (executed wallLibs (wallUpdate (9 / 10)) {})
      ((wallUpdate (9 / 10)).stateEstimation wallLibs {}) := by
  refine ⟨rfl, ?_⟩
  refine (freshNormals_iff wallLibs (wallScan (9 / 10)) wallGate {} wallMap_normalsSet {}).mpr ?_
  intro i hi v _ _
  obtain rfl : i = 0 := Nat.lt_one_iff.mp hi
  rw [executed_two wallLibs (wallUpdate (9 / 10)) {} rfl, lastMatch_two]
  exact wall_kept

end LidarUpdate

end FastLivo2
