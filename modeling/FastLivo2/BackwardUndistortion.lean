import FastLivo2.Propagation
import FastLivo2.Lib.Backward

/-!
# Which pose undistorts a point

At the end of a LIO group `UndistortPcl` goes backwards through the poses it has pushed and through
the points, and moves each point by the pose before it.  The two loops are those of `Lib.Backward`:
they share the iterator of the points, and the first point ends the inner loop only.

A list of poses may begin with those of earlier calls: a VIO group pushes poses and clears none, and
a LIO group without points returns before it clears them.
-/

namespace FastLivo2

namespace ImuProcess

/-- A call of a run. -/
abbrev UndistortTurn := Turn ImuProcess (LidarMeasureGroup × StatesGroup) Processed

/-- The time of a point after the start of its group. -/
def timeOffset (pt : PointType) : ℚ := pt.curvature / 1000

/-- A point later than a pose of the list. -/
def Late (k : Pose6D × ℕ) (pt : PointType) : Prop := k.1.offsetTime < timeOffset pt

instance (k : Pose6D × ℕ) (pt : PointType) : Decidable (Late k pt) :=
  inferInstanceAs (Decidable (_ < _))

/-- `IMUpose` in front of the backward loop of a LIO group. -/
def lioPoses (m : Libm) (p : ImuProcess) (meas : LidarMeasureGroup) (stat : StatesGroup) :
    List Pose6D :=
  ((p.undistortSteps meas).foldl (propagate m p stat)
    { accImu := p.accSLast, velImu := stat.velEnd, posImu := stat.posEnd, rImu := stat.rotEnd
      cov := stat.cov, angvelLast := p.angvelLast, accSLast := p.accSLast
      imuPose := p.imuPose ++
        [⟨0, p.accSLast, p.angvelLast, stat.velEnd, stat.posEnd, stat.rotEnd⟩] }).imuPose

/-- The poses of a call, each with its place in the list. -/
def placedPoses (m : Libm) (x : UndistortTurn) : List (Pose6D × ℕ) :=
  (lioPoses m x.pre x.event.1 x.event.2).zipIdx

/-- The points of a call, each with the poses it is moved by, in order. -/
def pointUses (m : Libm) (x : UndistortTurn) : List (PointType × List (Pose6D × ℕ)) :=
  Backward.uses Late (placedPoses m x).dropLast.reverse x.event.1.pclProcCur

/-- The pose of the current group with the greatest offset strictly below the time of the point. -/
structure NearestBelow (m : Libm) (x : UndistortTurn) (pt : PointType) (k : Pose6D × ℕ) : Prop where
  mem : k ∈ placedPoses m x
  current : x.pre.imuPose.length ≤ k.2
  below : Late k pt
  greatest : ∀ k' ∈ placedPoses m x, x.pre.imuPose.length ≤ k'.2 → Late k' pt →
    k'.1.offsetTime ≤ k.1.offsetTime

/-- Every point with a positive offset is moved once, by the pose nearest below it, and the others
are not moved. -/
structure Undistorted (m : Libm) (x : UndistortTurn) : Prop where
  points : (pointUses m x).map Prod.fst = x.event.1.pclProcCur
  pcl : x.obs.pcl = (pointUses m x).map fun u =>
    u.2.foldl (fun pt k => compensate m x.pre x.obs.stat k.1 pt) u.1
  moved : ∀ u ∈ pointUses m x, 0 < timeOffset u.1 → ∃ k, u.2 = [k] ∧ NearestBelow m x u.1 k
  kept : ∀ u ∈ pointUses m x, ¬ 0 < timeOffset u.1 → u.2 = []

/-! ## What a group asks of its poses -/

/-- The offsets of the poses of a group: its start, and the end of each step. -/
def groupOffsets (p : ImuProcess) (meas : LidarMeasureGroup) : List ℚ :=
  0 :: (p.undistortSteps meas).map PropStep.offsT

/-- The offsets of a group increase, and no point is later than the last. -/
structure OffsetsOrdered (x : UndistortTurn) : Prop where
  sorted : (groupOffsets x.pre x.event.1).Pairwise (· ≤ ·)
  inside : ∀ pt ∈ x.event.1.pclProcCur,
    timeOffset pt ≤ (groupOffsets x.pre x.event.1).getLastD 0

/-- The first point is not later than the first step. -/
def FirstInFirstStep (x : UndistortTurn) : Prop :=
  ∀ pt ∈ x.event.1.pclProcCur.head?, ∀ o ∈ (groupOffsets x.pre x.event.1)[1]?, timeOffset pt ≤ o

/-- No pose of an earlier call is before the first point, or before one that is not to be moved. -/
def KeptPosesLater (x : UndistortTurn) : Prop :=
  ∀ pose ∈ x.pre.imuPose, ∀ pt ∈ x.event.1.pclProcCur,
    x.event.1.pclProcCur.head? = some pt ∨ timeOffset pt ≤ 0 → timeOffset pt ≤ pose.offsetTime

/-! ## The loops of the source -/

lemma backwardInner_eq (m : Libm) (p : ImuProcess) (stat : StatesGroup) (head : Pose6D) :
    ∀ ahead done : List PointType, backwardInner m p stat head ahead done =
      Backward.inner (fun head pt => head.offsetTime < pt.curvature / 1000) (compensate m p stat)
        head ahead done
  | [], _ => rfl
  | [_], _ => rfl
  | pt :: before :: rest, done => by
      rw [backwardInner, Backward.inner]
      split_ifs
      · exact backwardInner_eq m p stat head _ _
      · rfl

/-- The loops, on the poses with their places. -/
lemma backwardOuter_eq (m : Libm) (p : ImuProcess) (stat : StatesGroup) (poses : List Pose6D)
    (pcl : PointCloudXYZI) : backwardOuter m p stat poses pcl =
      Backward.outer Late (fun k => compensate m p stat k.1) poses.zipIdx.dropLast.reverse pcl := by
  have hheads : poses.dropLast.reverse = (poses.zipIdx.dropLast.reverse).map Prod.fst := by
    rw [List.map_reverse, List.map_dropLast, List.zipIdx_map_fst]
  calc backwardOuter m p stat poses pcl
      = Backward.outer (fun head pt => head.offsetTime < pt.curvature / 1000) (compensate m p stat)
          poses.dropLast.reverse pcl := by
        simp only [backwardOuter, Backward.outer, backwardInner_eq]
    _ = Backward.outer (fun head pt => head.offsetTime < pt.curvature / 1000) (compensate m p stat)
          (poses.zipIdx.dropLast.reverse.map Prod.fst) pcl := by rw [hheads]
    _ = _ := Backward.outer_map Prod.fst _ _

lemma propagate_imuPose (m : Libm) (p : ImuProcess) (stat : StatesGroup) (q : PropState)
    (k : PropStep) : ∃ pose : Pose6D, (propagate m p stat q k).imuPose = q.imuPose ++ [pose] ∧
      pose.offsetTime = k.offsT :=
  ⟨_, rfl, rfl⟩

/-- A pose is pushed for each step. -/
lemma foldl_propagate_imuPose (m : Libm) (p : ImuProcess) (stat : StatesGroup) :
    ∀ (steps : List PropStep) (q : PropState), ∃ pushed : List Pose6D,
      (steps.foldl (propagate m p stat) q).imuPose = q.imuPose ++ pushed ∧
        pushed.map Pose6D.offsetTime = steps.map PropStep.offsT
  | [], q => ⟨[], by simp, rfl⟩
  | k :: steps, q => by
      obtain ⟨pushed, hposes, hoffsets⟩ :=
        foldl_propagate_imuPose m p stat steps (propagate m p stat q k)
      obtain ⟨pose, hpose, hoffset⟩ := propagate_imuPose m p stat q k
      refine ⟨pose :: pushed, ?_, ?_⟩
      · rw [List.foldl_cons, hposes, hpose, List.append_assoc, List.singleton_append]
      · rw [List.map_cons, List.map_cons, hoffsets, hoffset]

/-- The poses of a call: those kept, the start of the group, and those pushed in it. -/
lemma lioPoses_eq (m : Libm) (p : ImuProcess) (meas : LidarMeasureGroup) (stat : StatesGroup) :
    ∃ group : List Pose6D, lioPoses m p meas stat = p.imuPose ++ group ∧
      group.map Pose6D.offsetTime = groupOffsets p meas := by
  obtain ⟨pushed, hposes, hoffsets⟩ := foldl_propagate_imuPose m p stat (p.undistortSteps meas)
    { accImu := p.accSLast, velImu := stat.velEnd, posImu := stat.posEnd, rImu := stat.rotEnd
      cov := stat.cov, angvelLast := p.angvelLast, accSLast := p.accSLast
      imuPose := p.imuPose ++
        [⟨0, p.accSLast, p.angvelLast, stat.velEnd, stat.posEnd, stat.rotEnd⟩] }
  refine ⟨⟨0, p.accSLast, p.angvelLast, stat.velEnd, stat.posEnd, stat.rotEnd⟩ :: pushed, ?_, ?_⟩
  · rw [lioPoses, hposes, List.append_assoc, List.singleton_append]
  · rw [List.map_cons, hoffsets, groupOffsets]

/-- The backward loops read the extrinsic parameters of the process only. -/
lemma backwardOuter_congr {m : Libm} {p p' : ImuProcess} {stat : StatesGroup}
    {poses : List Pose6D} {pcl : PointCloudXYZI} (hrot : p'.lidRotToImu = p.lidRotToImu)
    (hoffset : p'.lidOffsetToImu = p.lidOffsetToImu) :
    backwardOuter m p' stat poses pcl = backwardOuter m p stat poses pcl := by
  have hcompensate : compensate m p' stat = compensate m p stat := by
    funext head pt
    simp only [compensate, hrot, hoffset]
  rw [backwardOuter_eq, backwardOuter_eq, hcompensate]

/-- The points a LIO group hands out. -/
lemma undistortPcl_pcl {m : Libm} {p : ImuProcess} {meas : LidarMeasureGroup} {stat : StatesGroup}
    (hlio : meas.lioVioFlg = .lio) : (undistortPcl m p meas stat).pcl =
      backwardOuter m p (undistortPcl m p meas stat).stat (lioPoses m p meas stat)
        meas.pclProcCur := by
  cases hpts : meas.pclProcCur with
  | nil =>
      rw [backwardOuter_eq, Backward.outer_nil]
      simp [undistortPcl, hlio, hpts]
  | cons pt pcl =>
      simp only [undistortPcl, hlio, hpts, lioPoses, if_true, true_and, ne_eq, reduceCtorEq,
        not_false_eq_true]
      apply backwardOuter_congr <;> rfl

/-! ## The poses below a point -/

section Poses

variable {start : Pose6D × ℕ} {rest : List (Pose6D × ℕ)} {pt : PointType}

/-- No pose of the group is below a point without a positive offset. -/
lemma not_late_of_nonpos (hstart : start.1.offsetTime = 0)
    (hsorted : (start :: rest).Pairwise fun a b => a.1.offsetTime ≤ b.1.offsetTime)
    (hpt : ¬ 0 < timeOffset pt) : ∀ k ∈ start :: rest, ¬ Late k pt := by
  intro k hk hlate
  have hle : start.1.offsetTime ≤ k.1.offsetTime := by
    obtain rfl | hmem := List.mem_cons.mp hk
    · exact le_rfl
    · exact List.rel_of_pairwise_cons hsorted hmem
  have hlt : k.1.offsetTime < timeOffset pt := hlate
  exact hpt (by linarith)

/-- A group with a point later than its start has a second pose. -/
lemma rest_ne_nil (hstart : start.1.offsetTime = 0) (hpt : 0 < timeOffset pt)
    (hlast : timeOffset pt ≤ ((start :: rest).getLast (List.cons_ne_nil _ _)).1.offsetTime) :
    rest ≠ [] := by
  rintro rfl
  rw [List.getLast_singleton, hstart] at hlast
  exact absurd hpt (not_lt.mpr hlast)

/-- A pose of the group that is below the point is a head of the backward loop. -/
lemma mem_dropLast_of_late
    (hlast : timeOffset pt ≤ ((start :: rest).getLast (List.cons_ne_nil _ _)).1.offsetTime)
    {k : Pose6D × ℕ} (hk : k ∈ start :: rest) (hlate : Late k pt) :
    k ∈ (start :: rest).dropLast := by
  rw [← List.dropLast_append_getLast (List.cons_ne_nil start rest)] at hk
  obtain hk | hk := List.mem_append.mp hk
  · exact hk
  · rw [List.mem_singleton.mp hk] at hlate
    have hlt : ((start :: rest).getLast (List.cons_ne_nil _ _)).1.offsetTime < timeOffset pt :=
      hlate
    exact absurd hlast (not_le.mpr hlt)

/-- Going backwards, the first pose of the group below a point is the nearest. -/
lemma exists_nearest (hstart : start.1.offsetTime = 0)
    (hsorted : (start :: rest).Pairwise fun a b => a.1.offsetTime ≤ b.1.offsetTime)
    (hpt : 0 < timeOffset pt)
    (hlast : timeOffset pt ≤ ((start :: rest).getLast (List.cons_ne_nil _ _)).1.offsetTime) :
    ∃ k, ((start :: rest).dropLast.reverse.find? fun k => Late k pt) = some k ∧
      k ∈ start :: rest ∧ Late k pt ∧
      ∀ k' ∈ start :: rest, Late k' pt → k'.1.offsetTime ≤ k.1.offsetTime := by
  have hlate : Late start pt := by
    show start.1.offsetTime < timeOffset pt
    rwa [hstart]
  have hsome : ((start :: rest).dropLast.reverse.find? fun k => Late k pt).isSome = true := by
    rw [List.find?_isSome]
    exact ⟨start, List.mem_reverse.mpr (mem_dropLast_of_late hlast (List.mem_cons_self ..) hlate),
      by simpa using hlate⟩
  obtain ⟨k, hk⟩ := Option.isSome_iff_exists.mp hsome
  have hsorted' : (start :: rest).dropLast.Pairwise fun a b => a.1.offsetTime ≤ b.1.offsetTime :=
    hsorted.sublist (List.dropLast_sublist _)
  have hmem : k ∈ (start :: rest).dropLast := List.mem_reverse.mp (List.mem_of_find?_eq_some hk)
  refine ⟨k, hk, List.mem_of_mem_dropLast hmem, by simpa using List.find?_some hk, ?_⟩
  intro k' hk' hlate'
  exact Backward.le_of_find?_reverse hsorted' hk k' (mem_dropLast_of_late hlast hk' hlate')
    (by simpa using hlate')

/-- A point not later than the second pose has the start alone below it. -/
lemma filter_late_eq (hstart : start.1.offsetTime = 0)
    (hsorted : (start :: rest).Pairwise fun a b => a.1.offsetTime ≤ b.1.offsetTime)
    (hpt : 0 < timeOffset pt)
    (hlast : timeOffset pt ≤ ((start :: rest).getLast (List.cons_ne_nil _ _)).1.offsetTime)
    (hsecond : ∀ k ∈ rest.head?, timeOffset pt ≤ k.1.offsetTime) :
    ((start :: rest).dropLast.reverse.filter fun k => Late k pt) = [start] := by
  have hne := rest_ne_nil hstart hpt hlast
  have hlate : Late start pt := by
    show start.1.offsetTime < timeOffset pt
    rwa [hstart]
  have hnot : ∀ k ∈ rest, ¬ Late k pt := by
    intro k hk hlate'
    obtain ⟨second, rest, rfl⟩ := List.exists_cons_of_ne_nil hne
    have hle : second.1.offsetTime ≤ k.1.offsetTime := by
      obtain rfl | hmem := List.mem_cons.mp hk
      · exact le_rfl
      · exact List.rel_of_pairwise_cons (List.pairwise_cons.mp hsorted).2 hmem
    have hlt : k.1.offsetTime < timeOffset pt := hlate'
    have hfirst := hsecond second rfl
    linarith
  have hnil : (rest.dropLast.filter fun k => Late k pt) = [] :=
    List.filter_eq_nil_iff.mpr fun k hk => by
      simpa using hnot k (List.mem_of_mem_dropLast hk)
  rw [List.filter_reverse, List.dropLast_cons_of_ne_nil hne, List.filter_cons_of_pos
    (by simpa using hlate), hnil, List.reverse_singleton]

end Poses

/-! ## The poses of a call -/

/-- The poses kept from earlier calls come first, then those of the group. -/
structure PosesOf (m : Libm) (x : UndistortTurn) (start : Pose6D × ℕ) (rest : List (Pose6D × ℕ)) :
    Prop where
  placed : placedPoses m x = x.pre.imuPose.zipIdx ++ start :: rest
  offsets : (start :: rest).map (fun k => k.1.offsetTime) = groupOffsets x.pre x.event.1
  current : ∀ k ∈ start :: rest, x.pre.imuPose.length ≤ k.2

lemma exists_posesOf (m : Libm) (x : UndistortTurn) : ∃ start rest, PosesOf m x start rest := by
  obtain ⟨group, hposes, hoffsets⟩ := lioPoses_eq m x.pre x.event.1 x.event.2
  cases group with
  | nil => simp [groupOffsets] at hoffsets
  | cons pose group =>
      refine ⟨(pose, x.pre.imuPose.length), group.zipIdx (x.pre.imuPose.length + 1), ?_, ?_, ?_⟩
      · rw [placedPoses, hposes, List.zipIdx_append, List.zipIdx_cons, Nat.zero_add]
      · rw [← hoffsets, List.map_cons, List.map_cons]
        congr 1
        rw [← List.zipIdx_map_fst (x.pre.imuPose.length + 1) group, List.map_map,
          List.zipIdx_map_fst]
        rfl
      · intro k hk
        obtain rfl | hmem := List.mem_cons.mp hk
        · exact le_rfl
        · have hle := List.le_snd_of_mem_zipIdx hmem
          omega

namespace PosesOf

variable {m : Libm} {x : UndistortTurn} {start : Pose6D × ℕ} {rest : List (Pose6D × ℕ)}

lemma start_eq (h : PosesOf m x start rest) : start.1.offsetTime = 0 :=
  (List.cons.inj h.offsets).1

lemma sorted (h : PosesOf m x start rest) (hx : OffsetsOrdered x) :
    (start :: rest).Pairwise fun a b => a.1.offsetTime ≤ b.1.offsetTime := by
  have hsorted := hx.sorted
  rw [← h.offsets, List.pairwise_map] at hsorted
  exact hsorted

lemma le_last (h : PosesOf m x start rest) (hx : OffsetsOrdered x) {pt : PointType}
    (hpt : pt ∈ x.event.1.pclProcCur) :
    timeOffset pt ≤ ((start :: rest).getLast (List.cons_ne_nil _ _)).1.offsetTime := by
  have hinside := hx.inside pt hpt
  rw [← h.offsets, List.getLastD_eq_getLast?, List.getLast?_map,
    List.getLast?_eq_some_getLast (List.cons_ne_nil start rest)] at hinside
  exact hinside

lemma second (h : PosesOf m x start rest) {pt : PointType} :
    (∀ o ∈ (groupOffsets x.pre x.event.1)[1]?, timeOffset pt ≤ o) ↔
      ∀ k ∈ rest.head?, timeOffset pt ≤ k.1.offsetTime := by
  rw [← h.offsets]
  cases rest <;> simp

/-- The heads of the backward loop. -/
lemma heads (h : PosesOf m x start rest) : (placedPoses m x).dropLast.reverse =
    (start :: rest).dropLast.reverse ++ x.pre.imuPose.zipIdx.reverse := by
  rw [h.placed, List.dropLast_append_of_ne_nil (List.cons_ne_nil start rest), List.reverse_append]

lemma mem_group_iff (h : PosesOf m x start rest) {k : Pose6D × ℕ} :
    k ∈ start :: rest ↔ k ∈ placedPoses m x ∧ x.pre.imuPose.length ≤ k.2 := by
  rw [h.placed, List.mem_append]
  constructor
  · exact fun hk => ⟨.inr hk, h.current k hk⟩
  · rintro ⟨hk | hk, hle⟩
    · have hlt := List.snd_lt_of_mem_zipIdx hk
      omega
    · exact hk

/-- The start is not pushed again: its place is its own. -/
lemma start_notMem (h : PosesOf m x start rest) : start ∉ rest := by
  have hnodup : ((placedPoses m x).map Prod.snd).Nodup := by
    rw [placedPoses, List.zipIdx_map_snd]
    exact List.nodup_range' ..
  have hplaced := hnodup.of_map
  rw [h.placed] at hplaced
  exact (List.nodup_cons.mp (List.nodup_append.mp hplaced).2.1).1

lemma nearestBelow (h : PosesOf m x start rest) {pt : PointType} {k : Pose6D × ℕ}
    (hmem : k ∈ start :: rest) (hlate : Late k pt)
    (hgreatest : ∀ k' ∈ start :: rest, Late k' pt → k'.1.offsetTime ≤ k.1.offsetTime) :
    NearestBelow m x pt k where
  mem := (h.mem_group_iff.mp hmem).1
  current := h.current k hmem
  below := hlate
  greatest := fun k' hk' hcurrent => hgreatest k' (h.mem_group_iff.mpr ⟨hk', hcurrent⟩)

end PosesOf

/-! ## The points of a call -/

section Calls

variable {m : Libm} {x : UndistortTurn} {start : Pose6D × ℕ} {rest : List (Pose6D × ℕ)}
  {pt : PointType} {pcl : List PointType}

/-- On a sorted cloud the points later than a pose are at the end. -/
lemma late_mono (hsorted : x.event.1.pclProcCur.Pairwise fun a b => a.curvature ≤ b.curvature)
    (k : Pose6D × ℕ) : x.event.1.pclProcCur.Pairwise fun a b => Late k a → Late k b := by
  apply hsorted.imp
  intro a b hab hlate
  have hlt : k.1.offsetTime < a.curvature / 1000 := hlate
  show k.1.offsetTime < b.curvature / 1000
  linarith

lemma pointUses_cons (hpts : x.event.1.pclProcCur = pt :: pcl)
    (hsorted : x.event.1.pclProcCur.Pairwise fun a b => a.curvature ≤ b.curvature) :
    pointUses m x = (pt, (placedPoses m x).dropLast.reverse.filter fun k => Late k pt) ::
      pcl.map fun b =>
        (b, ((placedPoses m x).dropLast.reverse.find? fun k => Late k b).toList) := by
  have hmono := late_mono hsorted
  rw [hpts] at hmono
  rw [pointUses, hpts, Backward.uses_cons _ _ _ hmono]

/-- The points handed out are the points of the group, moved by the poses noted. -/
lemma pcl_eq (hx : x.Taken (undistortStep m)) (hlio : x.event.1.lioVioFlg = .lio)
    (hsorted : x.event.1.pclProcCur.Pairwise fun a b => a.curvature ≤ b.curvature) :
    x.obs.pcl = (pointUses m x).map fun u =>
      u.2.foldl (fun pt k => compensate m x.pre x.obs.stat k.1 pt) u.1 := by
  obtain ⟨-, hobs⟩ := Prod.mk.inj (Except.ok.inj hx)
  have htouch : ∀ (k k' : Pose6D × ℕ) (a : PointType),
      Late k (compensate m x.pre (undistortPcl m x.pre x.event.1 x.event.2).stat k'.1 a) ↔
        Late k a := fun _ _ _ => Iff.rfl
  rw [← hobs, undistortPcl_pcl hlio, backwardOuter_eq]
  exact Backward.outer_eq_uses htouch _ _ (late_mono hsorted)

/-- No pose kept from an earlier call is below the point. -/
lemma filter_kept_eq_nil (h : ∀ pose ∈ x.pre.imuPose, timeOffset pt ≤ pose.offsetTime) :
    (x.pre.imuPose.zipIdx.reverse.filter fun k => Late k pt) = [] := by
  apply List.filter_eq_nil_iff.mpr
  intro k hk hlate
  have hmem : k.1 ∈ x.pre.imuPose := List.fst_mem_of_mem_zipIdx (List.mem_reverse.mp hk)
  have hlate' : Late k pt := by simpa using hlate
  have hlt : k.1.offsetTime < timeOffset pt := hlate'
  exact absurd (h k.1 hmem) (not_le.mpr hlt)

/-- The first point of a call that meets the conditions. -/
lemma first_uses (hposes : PosesOf m x start rest) (hordered : OffsetsOrdered x)
    (hpts : x.event.1.pclProcCur = pt :: pcl) (hfirst : FirstInFirstStep x)
    (hkept : KeptPosesLater x) :
    ((placedPoses m x).dropLast.reverse.filter fun k => Late k pt) =
      if 0 < timeOffset pt then [start] else [] := by
  have hmem : pt ∈ x.event.1.pclProcCur := by
    rw [hpts]
    exact List.mem_cons_self ..
  have hhead : x.event.1.pclProcCur.head? = some pt := by rw [hpts, List.head?_cons]
  have hnil := filter_kept_eq_nil fun pose hpose => hkept pose hpose pt hmem (.inl hhead)
  rw [hposes.heads, List.filter_append, hnil, List.append_nil]
  split_ifs with hpos
  · exact filter_late_eq hposes.start_eq (hposes.sorted hordered) hpos
      (hposes.le_last hordered hmem) (hposes.second.mp (hfirst pt hhead))
  · apply List.filter_eq_nil_iff.mpr
    intro k hk
    have hnot := not_late_of_nonpos hposes.start_eq (hposes.sorted hordered) hpos k
      (List.mem_of_mem_dropLast (List.mem_reverse.mp hk))
    simpa using hnot

/-- The start of the group is the pose nearest below a point that has no other below it. -/
lemma nearestBelow_start (hposes : PosesOf m x start rest) (hordered : OffsetsOrdered x)
    (hmem : pt ∈ x.event.1.pclProcCur) (hpos : 0 < timeOffset pt)
    (halone : ((placedPoses m x).dropLast.reverse.filter fun k => Late k pt) = [start]) :
    NearestBelow m x pt start := by
  have hlate : Late start pt := by
    show start.1.offsetTime < timeOffset pt
    rwa [hposes.start_eq]
  apply hposes.nearestBelow (List.mem_cons_self ..) hlate
  intro k hk hlate'
  have hdrop := mem_dropLast_of_late (hposes.le_last hordered hmem) hk hlate'
  have hfilter : k ∈ (placedPoses m x).dropLast.reverse.filter fun k => Late k pt := by
    rw [List.mem_filter, hposes.heads]
    exact ⟨List.mem_append_left _ (List.mem_reverse.mpr hdrop), by simpa using hlate'⟩
  rw [halone, List.mem_singleton] at hfilter
  rw [hfilter]

/-- A later point with a positive offset is moved by the pose nearest below it. -/
lemma later_uses (hposes : PosesOf m x start rest) (hordered : OffsetsOrdered x)
    (hmem : pt ∈ x.event.1.pclProcCur) (hpos : 0 < timeOffset pt) :
    ∃ k, ((placedPoses m x).dropLast.reverse.find? fun k => Late k pt) = some k ∧
      NearestBelow m x pt k := by
  obtain ⟨k, hk, hgroup, hlate, hgreatest⟩ := exists_nearest hposes.start_eq
    (hposes.sorted hordered) hpos (hposes.le_last hordered hmem)
  refine ⟨k, ?_, hposes.nearestBelow hgroup hlate hgreatest⟩
  rw [hposes.heads, List.find?_append, hk, Option.some_or]

/-- A point without a positive offset is left alone where no kept pose is below it. -/
lemma early_uses (hposes : PosesOf m x start rest) (hordered : OffsetsOrdered x)
    (hmem : pt ∈ x.event.1.pclProcCur) (hpos : ¬ 0 < timeOffset pt) (hkept : KeptPosesLater x) :
    ((placedPoses m x).dropLast.reverse.find? fun k => Late k pt) = none := by
  rw [List.find?_eq_none]
  intro k hk hlate
  have hlate' : Late k pt := by simpa using hlate
  rw [hposes.heads, List.mem_append] at hk
  obtain hk | hk := hk
  · exact not_late_of_nonpos hposes.start_eq (hposes.sorted hordered) hpos k
      (List.mem_of_mem_dropLast (List.mem_reverse.mp hk)) hlate'
  · have hpose : k.1 ∈ x.pre.imuPose := List.fst_mem_of_mem_zipIdx (List.mem_reverse.mp hk)
    have hle := hkept k.1 hpose pt hmem (.inr (not_lt.mp hpos))
    have hlt : k.1.offsetTime < timeOffset pt := hlate'
    exact absurd hle (not_le.mpr hlt)

/-- A kept pose that is below a point is a head of the backward loop. -/
lemma mem_heads_of_kept (hposes : PosesOf m x start rest) {pose : Pose6D}
    (hpose : pose ∈ x.pre.imuPose) : ∃ i < x.pre.imuPose.length,
      (pose, i) ∈ (placedPoses m x).dropLast.reverse := by
  obtain ⟨i, hi, rfl⟩ := List.getElem_of_mem hpose
  refine ⟨i, hi, ?_⟩
  rw [hposes.heads]
  exact List.mem_append_right _
    (List.mem_reverse.mpr (List.mk_mem_zipIdx_iff_getElem?.mpr (List.getElem?_eq_getElem hi)))

/-- The first point of a call that is undistorted as it should be. -/
lemma firstInFirstStep_of_undistorted (hposes : PosesOf m x start rest)
    (hordered : OffsetsOrdered x) (hpts : x.event.1.pclProcCur = pt :: pcl)
    (huse : (pt, (placedPoses m x).dropLast.reverse.filter fun k => Late k pt) ∈ pointUses m x)
    (hund : Undistorted m x) : FirstInFirstStep x := by
  intro pt' hpt'
  obtain rfl : pt = pt' := by simpa [hpts] using hpt'
  have hmem : pt ∈ x.event.1.pclProcCur := List.mem_of_head? hpt'
  refine hposes.second.mpr fun k hk => ?_
  by_contra hlt
  have hrest : k ∈ rest := List.mem_of_head? hk
  have hnonneg : start.1.offsetTime ≤ k.1.offsetTime :=
    List.rel_of_pairwise_cons (hposes.sorted hordered) hrest
  rw [hposes.start_eq] at hnonneg
  have hpos : 0 < timeOffset pt := by linarith
  have hlates : ∀ k' ∈ start :: rest, Late k' pt →
      k' ∈ (placedPoses m x).dropLast.reverse.filter fun k => Late k pt := by
    intro k' hk' hlate
    have hdrop := mem_dropLast_of_late (hposes.le_last hordered hmem) hk' hlate
    rw [List.mem_filter, hposes.heads]
    exact ⟨List.mem_append_left _ (List.mem_reverse.mpr hdrop), by simpa using hlate⟩
  have hstart : Late start pt := by
    show start.1.offsetTime < timeOffset pt
    rwa [hposes.start_eq]
  obtain ⟨k', hk', -⟩ := hund.moved _ huse hpos
  have hk'' : ((placedPoses m x).dropLast.reverse.filter fun k => Late k pt) = [k'] := hk'
  rw [hk''] at hlates
  have hfirst := List.mem_singleton.mp (hlates start (List.mem_cons_self ..) hstart)
  have hsecond := List.mem_singleton.mp
    (hlates k (List.mem_cons_of_mem _ hrest) (not_le.mp hlt))
  exact hposes.start_notMem (hfirst.trans hsecond.symm ▸ hrest)

/-- No kept pose is used by a call that undistorts its points as it should. -/
lemma kept_unused (hund : Undistorted m x) {u : PointType × List (Pose6D × ℕ)}
    (hu : u ∈ pointUses m x) {k : Pose6D × ℕ} (hk : k ∈ u.2) : x.pre.imuPose.length ≤ k.2 := by
  by_cases hpos : 0 < timeOffset u.1
  · obtain ⟨k', hk', hnearest⟩ := hund.moved u hu hpos
    rw [hk', List.mem_singleton] at hk
    rw [hk]
    exact hnearest.current
  · rw [hund.kept u hu hpos] at hk
    cases hk

lemma keptPosesLater_of_undistorted (hposes : PosesOf m x start rest)
    (hpts : x.event.1.pclProcCur = pt :: pcl)
    (hsorted : x.event.1.pclProcCur.Pairwise fun a b => a.curvature ≤ b.curvature)
    (hund : Undistorted m x) : KeptPosesLater x := by
  have huses := pointUses_cons (m := m) hpts hsorted
  intro pose hpose b hb hor
  by_contra hlt
  obtain ⟨i, hi, hmem⟩ := mem_heads_of_kept hposes hpose
  have hlate : Late (pose, i) b := not_le.mp hlt
  by_cases hhead : b = pt
  · subst hhead
    have huse :
        (b, (placedPoses m x).dropLast.reverse.filter fun k => Late k b) ∈ pointUses m x := by
      rw [huses]
      exact List.mem_cons_self ..
    have hle := kept_unused hund huse
      (List.mem_filter.mpr ⟨hmem, by simpa using hlate⟩ : (pose, i) ∈ _)
    exact absurd hle (not_le.mpr hi)
  · have hpcl : b ∈ pcl := by
      rw [hpts] at hb
      exact (List.mem_cons.mp hb).resolve_left hhead
    have hpos : ¬ 0 < timeOffset b := by
      obtain hfirst | hneg := hor
      · rw [hpts, List.head?_cons] at hfirst
        exact absurd (Option.some.inj hfirst).symm hhead
      · exact not_lt.mpr hneg
    have huse : (b, ((placedPoses m x).dropLast.reverse.find? fun k => Late k b).toList) ∈
        pointUses m x := by
      rw [huses]
      exact List.mem_cons_of_mem _ (List.mem_map_of_mem hpcl)
    have hnone := Option.toList_eq_nil_iff.mp (hund.kept _ huse hpos)
    exact List.find?_eq_none.mp hnone (pose, i) hmem (by simpa using hlate)

end Calls

/-- **Backward undistortion.**  In a run of calls, a LIO group whose points are sorted, and whose
poses are in order and reach past its points, is undistorted as it should be if and only if its
first point lies in the first step and no kept pose is below that point or one not to be moved. -/
theorem undistorted_iff {m : Libm} {p q : ImuProcess} {tr : List UndistortTurn} {x : UndistortTurn}
    (h : Exec (undistortStep m) p tr q) (hmem : x ∈ tr) (hlio : x.event.1.lioVioFlg = .lio)
    (hsorted : x.event.1.pclProcCur.Pairwise fun a b => a.curvature ≤ b.curvature)
    (hordered : OffsetsOrdered x) :
    Undistorted m x ↔ FirstInFirstStep x ∧ KeptPosesLater x := by
  have hpcl := pcl_eq (h.taken x hmem) hlio hsorted
  obtain ⟨start, rest, hposes⟩ := exists_posesOf m x
  cases hpts : x.event.1.pclProcCur with
  | nil =>
      have huses : pointUses m x = [] := by rw [pointUses, hpts, Backward.uses_nil]
      refine iff_of_true ⟨?_, hpcl, ?_, ?_⟩ ⟨?_, ?_⟩
      · rw [huses, hpts, List.map_nil]
      · simp [huses]
      · simp [huses]
      · simp [FirstInFirstStep, hpts]
      · simp [KeptPosesLater, hpts]
  | cons pt pcl =>
      have huses := pointUses_cons (m := m) hpts hsorted
      have hpt : pt ∈ x.event.1.pclProcCur := by
        rw [hpts]
        exact List.mem_cons_self ..
      have hlater : ∀ b ∈ pcl, b ∈ x.event.1.pclProcCur := by
        intro b hb
        rw [hpts]
        exact List.mem_cons_of_mem _ hb
      constructor
      · intro hund
        refine ⟨firstInFirstStep_of_undistorted hposes hordered hpts ?_ hund,
          keptPosesLater_of_undistorted hposes hpts hsorted hund⟩
        rw [huses]
        exact List.mem_cons_self ..
      · rintro ⟨hfirst, hkept⟩
        have hfirstUses := first_uses hposes hordered hpts hfirst hkept
        refine ⟨?_, hpcl, ?_, ?_⟩
        · rw [huses, hpts, List.map_cons, List.map_map]
          congr 1
          exact List.map_id pcl
        · intro u hu hpos
          rw [huses] at hu
          obtain rfl | hu := List.mem_cons.mp hu
          · rw [if_pos hpos] at hfirstUses
            exact ⟨start, hfirstUses, nearestBelow_start hposes hordered hpt hpos hfirstUses⟩
          · obtain ⟨b, hb, rfl⟩ := List.mem_map.mp hu
            obtain ⟨k, hk, hnearest⟩ := later_uses hposes hordered (hlater b hb) hpos
            exact ⟨k, by rw [hk, Option.toList_some], hnearest⟩
        · intro u hu hpos
          rw [huses] at hu
          obtain rfl | hu := List.mem_cons.mp hu
          · rw [if_neg hpos] at hfirstUses
            exact hfirstUses
          · obtain ⟨b, hb, rfl⟩ := List.mem_map.mp hu
            rw [early_uses hposes hordered (hlater b hb) hpos hkept, Option.toList_none]

/-- A LIO group of 100 ms with two samples, and points at the given milliseconds. -/
def scannedGroup (ms : List ℚ) : LidarMeasureGroup :=
  { lioVioFlg := .lio
    pclProcCur := ms.map fun t => { curvature := t }
    measures := [{ lioTime := 1 / 10, imu := [{ stamp := 50000000 }, { stamp := 100000000 }] }] }

/-- The first call of a process, on such a group. -/
def scanned (ms : List ℚ) : UndistortTurn :=
  callTurn ⟨fun _ => 0, fun _ => 1, fun _ => 1⟩
    { lastPropEndTime := 0, timeLastScan := 0, lidarType := 0 } (scannedGroup ms, {})

lemma groupOffsets_scanned (ms : List ℚ) :
    groupOffsets (scanned ms).pre (scanned ms).event.1 = [0, 1 / 20, 1 / 10] := by
  have hsteps : (undistortSteps (scanned []).pre (scannedGroup [])).map PropStep.offsT =
      [1 / 20, 1 / 10] := by decide +kernel
  rw [← hsteps]
  rfl

/-- Points at 10 and 70 ms. -/
theorem scanned_undistorted :
    Undistorted ⟨fun _ => 0, fun _ => 1, fun _ => 1⟩ (scanned [10, 70]) := by
  have hordered : OffsetsOrdered (scanned [10, 70]) := by
    constructor
    · rw [groupOffsets_scanned]
      norm_num
    · rw [groupOffsets_scanned]
      decide +kernel
  have hfirst : FirstInFirstStep (scanned [10, 70]) := by
    rw [FirstInFirstStep, groupOffsets_scanned]
    decide +kernel
  exact (undistorted_iff (exec_callTurn _ _ _) (List.mem_singleton_self _) rfl (by decide +kernel)
    hordered).mpr ⟨hfirst, fun pose hpose => by cases hpose⟩

/-- One point at 70 ms, after the first sample. -/
theorem scanned_moved_twice :
    Exec (undistortStep ⟨fun _ => 0, fun _ => 1, fun _ => 1⟩) (scanned [70]).pre [scanned [70]]
      (scanned [70]).post ∧
    (scanned [70]).event.1.pclProcCur.Pairwise (fun a b => a.curvature ≤ b.curvature) ∧
    (pointUses ⟨fun _ => 0, fun _ => 1, fun _ => 1⟩ (scanned [70])).map
      (fun u => u.2.map fun k => k.1.offsetTime) = [[1 / 20, 0]] ∧
    ¬ Undistorted ⟨fun _ => 0, fun _ => 1, fun _ => 1⟩ (scanned [70]) := by
  have huses : (pointUses ⟨fun _ => 0, fun _ => 1, fun _ => 1⟩ (scanned [70])).map
      (fun u => u.2.map fun k => k.1.offsetTime) = [[1 / 20, 0]] := by decide +kernel
  refine ⟨exec_callTurn _ _ _, List.pairwise_singleton _ _, huses, fun h => ?_⟩
  obtain ⟨u, rest, hu⟩ : ∃ u rest, pointUses ⟨fun _ => 0, fun _ => 1, fun _ => 1⟩ (scanned [70]) =
      u :: rest := List.exists_cons_of_ne_nil fun hnil => by simp [hnil] at huses
  have hpoints := h.points
  rw [hu, List.map_cons] at hpoints huses
  have hlen : u.2.length = 2 := by
    rw [← List.length_map (f := fun k : Pose6D × ℕ => k.1.offsetTime), (List.cons.inj huses).1]
    rfl
  obtain ⟨k, hk, -⟩ := h.moved u (by rw [hu]; exact List.mem_cons_self ..) (by
    rw [(List.cons.inj hpoints).1]
    decide +kernel)
  rw [hk] at hlen
  cases hlen

end ImuProcess

end FastLivo2
