import FastLivo2.ImuProcess
import FastLivo2.Lib.Backward

/-!
# Undistortion at constant velocity

Without an IMU the node takes the sensor to move at constant velocity.  `Forward_without_imu` sorts
the points by their time, moves the state on to the start of the scan, and goes backwards through
the points to move each into the frame at the end of the scan, by the time it is ahead of it.

The loop of `UndistortPcl` handles the point at `begin()` and leaves by a `break`.  This one is
written `it_pcl != begin()` and does not get there (`forwardSorted_sweep`).  So the earliest
point, the one with the most time to make up for, stays where it was measured, and the cloud is
undistorted exactly if that point has nothing to make up for (`endCompensated_iff`): it is taken at
the end of the scan, like all others, or the motion until then brings it back to its place.
-/

namespace FastLivo2

open Backward (sweep sweep_reverse sweep_perm_iff)

namespace ImuProcess

variable {m : Libm} {p : ImuProcess} {meas : LidarMeasureGroup} {stat : StatesGroup} {r : Processed}

/-! ## What the undistortion is for -/

/-- The output is the cloud, sorted by time, with each point moved into the frame at the end: that
of its last point. -/
def EndCompensated (m : Libm) (stat : StatesGroup) (input output : PointCloudXYZI) : Prop :=
  ∃ (sorted : PointCloudXYZI) (lastPt : PointType), SortedByTime input sorted ∧
    sorted.getLast? = some lastPt ∧
    output = sorted.map (compensateConstVel m stat (lastPt.curvature / 1000))

/-- The time the state is moved on by. -/
def scanDt (p : ImuProcess) (meas : LidarMeasureGroup) : ℚ :=
  if p.bFirstFrame then 1 / 10 else meas.lidarFrameBegTime - p.timeLastScan

/-- What the sensor turns and what it travels, from the time of the earliest point to that of the
last, cancel out at the earliest point. -/
def EarliestRests (m : Libm) (p : ImuProcess) (meas : LidarMeasureGroup) (stat : StatesGroup)
    (sorted : PointCloudXYZI) : Prop :=
  ∀ first ∈ sorted.head?, ∀ last ∈ sorted.getLast?,
    let dtJ := last.curvature / 1000 - first.curvature / 1000
    (Exp m stat.biasG (-dtJ)).mulVec first.position = first.position +
      dtJ • (stat.rotEnd * Exp m stat.biasG (scanDt p meas)).transpose.mulVec stat.velEnd

/-! ## The order of the points -/

/-- The order that `forwardWithoutImu` takes is one of those. -/
theorem sortedByTime_sortByTime (pcl : PointCloudXYZI) : SortedByTime pcl (sortByTime pcl) := by
  have htotal : Std.Total fun x y : PointType => ¬timeList y x :=
    ⟨fun x y => (le_total x.curvature y.curvature).imp not_lt.mpr not_lt.mpr⟩
  have htrans : IsTrans PointType fun x y => ¬timeList y x :=
    ⟨fun _ _ _ h h' => not_lt.mpr (le_trans (not_lt.mp h) (not_lt.mp h'))⟩
  exact ⟨List.perm_insertionSort _ pcl, List.pairwise_insertionSort _ pcl⟩

lemma le_last {pcl : PointCloudXYZI} {pt lastPt : PointType}
    (h : pcl.Pairwise fun x y => ¬timeList y x) (hlast : pcl.getLast? = some lastPt)
    (hpt : pt ∈ pcl) : pt.curvature ≤ lastPt.curvature := by
  rw [← List.dropLast_append_getLast? lastPt hlast] at h hpt
  rcases List.mem_append.mp hpt with hpt | hpt
  · exact not_lt.mp ((List.pairwise_append.mp h).2.2 pt hpt lastPt (List.mem_singleton_self _))
  · rw [List.mem_singleton.mp hpt]

/-- However points of one time are ordered, the last ones of two sorted clouds agree in their
time. -/
lemma last_curvature {pcl a b : PointCloudXYZI} {ptA ptB : PointType} (ha : SortedByTime pcl a)
    (hb : SortedByTime pcl b) (hlastA : a.getLast? = some ptA) (hlastB : b.getLast? = some ptB) :
    ptA.curvature = ptB.curvature := by
  have hperm := ha.1.trans hb.1.symm
  apply le_antisymm
  · exact le_last hb.2 hlastB (hperm.mem_iff.mp (List.mem_of_getLast? hlastA))
  · exact le_last ha.2 hlastA (hperm.mem_iff.mpr (List.mem_of_getLast? hlastB))

/-! ## What the call does -/

/-- **The loop of `Forward_without_imu`**, from `end() - 1` down to `begin()`, on the sorted cloud
and the state moved on to the start of the scan. -/
theorem forwardSorted_sweep (m : Libm) (meas : LidarMeasureGroup) (stat : StatesGroup)
    {sorted : PointCloudXYZI} (hne : sorted ≠ []) (hlidar : p.lidarType ≠ lidTypeL515) :
    ∃ r first rest lastPt,
      forwardSorted m p meas stat sorted = .ok r ∧ sorted = first :: rest ∧
      (first :: rest).getLast? = some lastPt ∧
      r.pcl = sweep (compensateConstVel m r.stat (lastPt.curvature / 1000))
        (first :: rest).reverse [] ∧
      r.stat.rotEnd = stat.rotEnd * Exp m stat.biasG (scanDt p meas) ∧
      r.stat.velEnd = stat.velEnd ∧ r.stat.biasG = stat.biasG := by
  obtain ⟨first, rest, rfl⟩ := List.exists_cons_of_ne_nil hne
  have hlast := List.getLast?_eq_some_getLast (List.cons_ne_nil first rest)
  unfold forwardSorted
  simp only [hlast, if_neg hlidar]
  refine ⟨_, first, rest, _, rfl, rfl, rfl, ?_, rfl, rfl, rfl⟩
  rw [sweep_reverse]

lemma moveTo_eq_self_iff (pt : PointType) (v : V3D) : pt.moveTo v = pt ↔ v = pt.position := by
  constructor
  · intro h
    have hx : v 0 = pt.x := congrArg PointType.x h
    have hy : v 1 = pt.y := congrArg PointType.y h
    have hz : v 2 = pt.z := congrArg PointType.z h
    ext i
    fin_cases i
    · exact hx
    · exact hy
    · exact hz
  · rintro rfl
    rfl

/-- A point stays where it is if turning it back makes up for what the sensor travels. -/
lemma compensateConstVel_eq_self_iff (stat : StatesGroup) (endOffset : ℚ) (pt : PointType) :
    compensateConstVel m stat endOffset pt = pt ↔
      (Exp m stat.biasG (-(endOffset - pt.curvature / 1000))).mulVec pt.position = pt.position +
        (endOffset - pt.curvature / 1000) • stat.rotEnd.transpose.mulVec stat.velEnd := by
  rw [compensateConstVel, moveTo_eq_self_iff, ← sub_eq_add_neg, sub_eq_iff_eq_add]

/-- The loop compensates the whole cloud exactly if there is nothing to compensate at the earliest
point. -/
lemma endCompensated_sweep_iff {input rest : PointCloudXYZI} {first lastPt : PointType}
    (hsorted : SortedByTime input (first :: rest))
    (hlast : (first :: rest).getLast? = some lastPt) :
    EndCompensated m stat input
        (sweep (compensateConstVel m stat (lastPt.curvature / 1000)) (first :: rest).reverse []) ↔
      compensateConstVel m stat (lastPt.curvature / 1000) first = first := by
  constructor
  · rintro ⟨sorted, lastPt', hsorted', hlast', hout⟩
    rw [last_curvature hsorted' hsorted hlast' hlast] at hout
    apply (sweep_perm_iff (hsorted'.1.trans hsorted.1.symm)).mp
    rw [hout]
  · intro hfirst
    refine ⟨first :: rest, lastPt, hsorted, hlast, ?_⟩
    rw [sweep_reverse, List.map_cons, hfirst]

/-- **When the cloud is undistorted at constant velocity.**  For every lidar but the L515, every
cloud with a point and every order in which it may have been sorted, exactly if the motion leaves
the earliest point in its place. -/
theorem endCompensated_iff {sorted : PointCloudXYZI}
    (hsorted : SortedByTime meas.lidar.points sorted) (hne : meas.lidar.points ≠ [])
    (hlidar : p.lidarType ≠ lidTypeL515) :
    ∃ r, forwardSorted m p meas stat sorted = .ok r ∧
      (EndCompensated m r.stat meas.lidar.points r.pcl ↔ EarliestRests m p meas stat sorted) := by
  have hne' : sorted ≠ [] := fun hnil => hne (hnil ▸ hsorted.1).symm.eq_nil
  obtain ⟨r, first, rest, lastPt, hr, rfl, hlast, hpcl, hrot, hvel, hbias⟩ :=
    forwardSorted_sweep m meas stat hne' hlidar
  have hrests : EarliestRests m p meas stat (first :: rest) ↔
      compensateConstVel m r.stat (lastPt.curvature / 1000) first = first := by
    rw [compensateConstVel_eq_self_iff, hrot, hvel, hbias, EarliestRests, hlast]
    simp
  refine ⟨r, hr, ?_⟩
  rw [hrests, hpcl]
  exact endCompensated_sweep_iff hsorted hlast

/-! ## Clouds whose earliest point rests -/

lemma Exp_zero (hsin : m.sin 0 = 0) (hcos : m.cos 0 = 1) (angVel : V3D) : Exp m angVel 0 = 1 := by
  unfold Exp
  dsimp only
  split_ifs
  · rw [mul_zero, hsin, hcos, zero_smul, sub_self, zero_smul, add_zero, add_zero]
  · rfl

variable {sorted : PointCloudXYZI}

/-- In a cloud of one time, a cloud of one point among them, there is nothing to make up for. -/
theorem earliestRests_of_one_time (hsin : m.sin 0 = 0) (hcos : m.cos 0 = 1)
    (htime : ∀ a ∈ sorted, ∀ b ∈ sorted, a.curvature = b.curvature) :
    EarliestRests m p meas stat sorted := by
  intro first hfirst last hlast
  have hsame := htime first (List.mem_of_head? hfirst) last (List.mem_of_getLast? hlast)
  simp only [hsame, sub_self, neg_zero, Exp_zero hsin hcos, Matrix.one_mulVec, zero_smul, add_zero]

/-- A sensor that neither turns nor travels. -/
theorem earliestRests_of_still (hsqrt : m.sqrt 0 = 0) (hturn : stat.biasG = 0)
    (htravel : stat.velEnd = 0) : EarliestRests m p meas stat sorted := by
  intro first _ last _
  have hone : ∀ dt, Exp m stat.biasG dt = 1 := by
    intro dt
    rw [Exp, hturn, V3D.norm, dotProduct_zero, hsqrt, if_neg (by norm_num)]
  simp only [hone, htravel, Matrix.one_mulVec, Matrix.mulVec_zero, smul_zero, add_zero]

/-! ## A sensor on the move -/

/-- A node without an IMU, before its first scan. -/
def withoutImu : ImuProcess :=
  { lastPropEndTime := 0, timeLastScan := 0, lidarType := 1, imuEn := false, imuNeedInit := false }

/-- A scan of the points. -/
def scanOf (points : PointCloudXYZI) : LidarMeasureGroup where
  lidar := { addr := 0, points := points }

/-- The square root of zero and of one, and the angle functions up to the fifth power. -/
def turningLibm : Libm where
  sin x := x - x ^ 3 / 6 + x ^ 5 / 120
  cos x := 1 - x ^ 2 / 2 + x ^ 4 / 24
  sqrt x := x

/-- One radian a second about the vertical. -/
def turning : StatesGroup := { biasG := ![0, 0, 1] }

/-- A point above the sensor, and two about it, which come in the other order. -/
def aboveAndAbout : PointCloudXYZI :=
  [{ x := 0, y := 10, curvature := 100 }, { x := 10, curvature := 50 }, { z := 5, curvature := 0 }]

/-- The sensor turns under the earliest point, which rests, and the point taken halfway is moved. -/
theorem endCompensated_turning :
    ∃ r, forwardSorted turningLibm withoutImu (scanOf aboveAndAbout) turning
        aboveAndAbout.reverse = .ok r ∧
      EndCompensated turningLibm r.stat aboveAndAbout r.pcl ∧
      ¬r.pcl.Perm aboveAndAbout := by
  have hsorted : SortedByTime aboveAndAbout aboveAndAbout.reverse :=
    ⟨List.reverse_perm _, by decide +kernel⟩
  have hrests : EarliestRests turningLibm withoutImu (scanOf aboveAndAbout) turning
      aboveAndAbout.reverse := by
    intro first hfirst last hlast
    obtain rfl := Option.some.inj hfirst
    obtain rfl := Option.some.inj hlast
    decide +kernel
  obtain ⟨r, hr, hiff⟩ : ∃ r, forwardSorted turningLibm withoutImu (scanOf aboveAndAbout) turning
      aboveAndAbout.reverse = .ok r ∧ (EndCompensated turningLibm r.stat aboveAndAbout r.pcl ↔
        EarliestRests turningLibm withoutImu (scanOf aboveAndAbout) turning
          aboveAndAbout.reverse) :=
    endCompensated_iff hsorted (List.cons_ne_nil _ _) (by decide)
  refine ⟨r, hr, hiff.mpr hrests, ?_⟩
  have hmoved : (forwardSorted turningLibm withoutImu (scanOf aboveAndAbout) turning
      aboveAndAbout.reverse).map (fun r => decide (r.pcl.Perm aboveAndAbout)) = .ok false := by
    decide +kernel
  rw [hr] at hmoved
  exact of_decide_eq_false (Except.ok.inj hmoved)

/-- The library functions near zero. -/
def smallLibm : Libm := ⟨fun _ => 0, fun _ => 1, fun _ => 0⟩

/-- One metre a second ahead. -/
def ahead : StatesGroup := { velEnd := ![1, 0, 0] }

/-- Two points ten metres ahead, taken a tenth of a second apart. -/
def twoAhead : PointCloudXYZI := [{ x := 10, curvature := 0 }, { x := 10, curvature := 100 }]

/-- The earlier one stays where it was measured. -/
theorem twoPoints_not_compensated :
    SortedByTime twoAhead twoAhead ∧
      ∃ r, forwardSorted smallLibm withoutImu (scanOf twoAhead) ahead twoAhead = .ok r ∧
        ¬EndCompensated smallLibm r.stat twoAhead r.pcl := by
  have hsorted : SortedByTime twoAhead twoAhead := ⟨List.Perm.refl _, by decide +kernel⟩
  have hlidar : withoutImu.lidarType ≠ lidTypeL515 := by decide
  obtain ⟨r, first, rest, lastPt, hr, hcons, hlast, hpcl, hrot, hvel, hbias⟩ :=
    forwardSorted_sweep smallLibm (scanOf twoAhead) ahead
      (List.cons_ne_nil _ _ : twoAhead ≠ []) hlidar
  refine ⟨hsorted, r, hr, fun hcompensated => ?_⟩
  obtain ⟨rfl, rfl⟩ := List.cons.inj hcons.symm
  rw [hpcl, endCompensated_sweep_iff hsorted hlast, compensateConstVel_eq_self_iff, hrot, hvel,
    hbias] at hcompensated
  obtain rfl := Option.some.inj hlast
  revert hcompensated
  decide +kernel

end ImuProcess

end FastLivo2
