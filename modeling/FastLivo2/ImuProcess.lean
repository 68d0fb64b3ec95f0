import FastLivo2.Common

/-!
# IMU processing and undistortion

`IMU_Processing.cpp`: initialisation from a still IMU (`imuInit`), constant-velocity propagation
without an IMU (`forwardWithoutImu`), forward propagation with backward undistortion
(`undistortPcl`) and their dispatch (`process2`).

The forward loop is split along its two concerns.  `propSteps` is its control flow: which
pairs of consecutive samples are skipped, and which `dt` and `offs_t` the three branches give
the others.  `propagate` is the numeric body run on each of these steps.  The backward
loop walks two iterators down; here the points not yet passed are a list with the iterator's
point in front, and the points already passed are the accumulator.

`last_prop_end_time`, `time_last_scan` and `lidar_type` are members no constructor or setter
assigns.  Their first values are whatever the memory held, so they are parameters of the
initial object.
-/

namespace FastLivo2

/-- Gravity, `G_m_s2`. -/
def gMS2 : ℚ := 981 / 100

/-- The state of `ImuProcess`, with the values its constructor gives. -/
structure ImuProcess where
  lastPropEndTime : ℚ
  timeLastScan : ℚ
  lidarType : ℤ
  pclWaitProc : PointCloudXYZI := []
  lastImu : Imu := ⟨0, 0, 0⟩
  imuPose : List Pose6D := []
  lidRotToImu : M3D := 1
  lidOffsetToImu : V3D := 0
  meanAcc : V3D := ![0, 0, -1]
  meanGyr : V3D := 0
  imuMeanAccNorm : ℚ := 0
  angvelLast : V3D := 0
  accSLast : V3D := 0
  covAcc : V3D := ![1 / 10, 1 / 10, 1 / 10]
  covGyr : V3D := ![1 / 10, 1 / 10, 1 / 10]
  covBiasGyr : V3D := ![1 / 10, 1 / 10, 1 / 10]
  covBiasAcc : V3D := ![1 / 10, 1 / 10, 1 / 10]
  covInvExpo : ℚ := 1 / 5
  firstLidarTime : ℚ := 0
  initIterNum : ℤ := 1
  maxIniCount : ℤ := 20
  bFirstFrame : Bool := true
  imuTimeInit : Bool := false
  imuNeedInit : Bool := true
  imuEn : Bool := true
  gravityEstEn : Bool := true
  baBgEstEn : Bool := true
  exposureEstimateEn : Bool := true

namespace ImuProcess

/-! ## Initialisation -/

/-- `ImuProcess::Reset`. -/
def reset (p : ImuProcess) : ImuProcess :=
  { p with
    meanAcc := ![0, 0, -1], meanGyr := 0, angvelLast := 0, imuNeedInit := true,
    initIterNum := 1, imuPose := [], lastImu := ⟨0, 0, 0⟩ }

/-- One sample's share of the running means. -/
def imuInitSample (p : ImuProcess) (imu : Imu) : ImuProcess :=
  { p with
    meanAcc := p.meanAcc + (1 / (p.initIterNum : ℚ)) • (imu.linearAcceleration - p.meanAcc)
    meanGyr := p.meanGyr + (1 / (p.initIterNum : ℚ)) • (imu.angularVelocity - p.meanGyr)
    initIterNum := p.initIterNum + 1 }

/-- The first frame restarts the process from its first sample. -/
def imuInitFirstFrame (p : ImuProcess) (meas : MeasureGroup) : Except Fault ImuProcess :=
  if p.bFirstFrame then
    match front meas.imu with
    | .error f => .error f
    | .ok imu => .ok { p.reset with
        initIterNum := 1, bFirstFrame := false
        meanAcc := imu.linearAcceleration, meanGyr := imu.angularVelocity }
  else .ok p

/-- `ImuProcess::IMU_init`. -/
def imuInit (m : Libm) (p : ImuProcess) (meas : MeasureGroup) (stat : StatesGroup) :
    Except Fault (ImuProcess × StatesGroup) := do
  let p ← imuInitFirstFrame p meas
  let p := meas.imu.foldl imuInitSample p
  let norm := V3D.norm m p.meanAcc
  let lastImu ← back meas.imu
  pure ({ p with imuMeanAccNorm := norm, lastImu := lastImu },
    { stat with gravity := (gMS2 / norm) • -p.meanAcc, rotEnd := 1, biasG := 0 })

/-! ## Propagation without an IMU -/

/-- `time_list`. -/
def timeList (x y : PointType) : Prop := x.curvature < y.curvature

instance : DecidableRel timeList := fun x y =>
  inferInstanceAs (Decidable (x.curvature < y.curvature))

/-- A cloud as `std::sort` by `time_list` may leave it: it leaves open how points of one time are
ordered. -/
def SortedByTime (pcl sorted : PointCloudXYZI) : Prop :=
  sorted.Perm pcl ∧ sorted.Pairwise fun x y => ¬timeList y x

/-- One such cloud, with the points of one time in the order in which they came. -/
def sortByTime (pcl : PointCloudXYZI) : PointCloudXYZI :=
  pcl.insertionSort fun x y => ¬timeList y x

/-- `L515` of `enum LID_TYPE`. -/
def lidTypeL515 : ℤ := 4

/-- The compensation of one point in `Forward_without_imu`. -/
def compensateConstVel (m : Libm) (stat : StatesGroup) (pclEndOffsetTime : ℚ) (pt : PointType) :
    PointType :=
  let dtJ := pclEndOffsetTime - pt.curvature / 1000
  let RJk := Exp m stat.biasG (-dtJ)
  let pJk := -(dtJ • stat.rotEnd.transpose.mulVec stat.velEnd)
  pt.moveTo (RJk.mulVec pt.position + pJk)

/-- What `Process2` leaves behind: the two objects it changes, the filter state and the cloud. -/
structure Processed where
  imu : ImuProcess
  meas : LidarMeasureGroup
  stat : StatesGroup
  pcl : PointCloudXYZI

/-- `ImuProcess::Forward_without_imu` on the cloud as it has been sorted. -/
def forwardSorted (m : Libm) (p : ImuProcess) (meas : LidarMeasureGroup) (stat : StatesGroup)
    (pcl : PointCloudXYZI) : Except Fault Processed :=
  match pcl.getLast? with
  | none => .error .emptyCloud
  | some lastPt =>
      let pclBegTime := meas.lidarFrameBegTime
      let pclEndOffsetTime := lastPt.curvature / 1000
      let dt := if p.bFirstFrame then 1 / 10 else pclBegTime - p.timeLastScan
      let Fx := setBlock (setBlock (setBlock 1 0 0 (Exp m stat.biasG (-dt)))
        0 10 (dt • (1 : M3D))) 3 7 (dt • (1 : M3D))
      let covW := setBlock (setBlock 0 10 10 (Matrix.diagonal ((dt * dt) • p.covGyr)))
        7 7 (Matrix.diagonal ((dt * dt) • p.covAcc))
      let stat := { stat with
        cov := Fx * stat.cov * Fx.transpose + covW
        rotEnd := stat.rotEnd * Exp m stat.biasG dt
        posEnd := stat.posEnd + dt • stat.velEnd }
      -- the loop stops when the iterator reaches `begin()`, before handling that point
      let pcl := if p.lidarType = lidTypeL515 then pcl else
        match pcl with
        | [] => []
        | pt :: rest => pt :: rest.map (compensateConstVel m stat pclEndOffsetTime)
      .ok {
        imu := { p with bFirstFrame := false, timeLastScan := pclBegTime }
        meas := { meas with lastLioUpdateTime := pclBegTime + lastPt.curvature / 1000 }
        stat := stat
        pcl := pcl }

/-- `ImuProcess::Forward_without_imu`, with one of the orders that `std::sort` may choose. -/
def forwardWithoutImu (m : Libm) (p : ImuProcess) (meas : LidarMeasureGroup)
    (stat : StatesGroup) : Except Fault Processed :=
  forwardSorted m p meas stat (sortByTime meas.lidar.points)

/-! ## Forward propagation -/

/-- One executed iteration of the forward loop: the pair of samples and the step length and
pose offset chosen for it. -/
structure PropStep where
  head : Imu
  tail : Imu
  dt : ℚ
  offsT : ℚ

/-- The iterations the forward loop executes on `v_imu`. -/
def propSteps (propBegTime lastPropEndTime propEndTime : ℚ) : List Imu → List PropStep
  | head :: tail :: rest =>
      if stamp2Sec tail.stamp < propBegTime then
        propSteps propBegTime lastPropEndTime propEndTime (tail :: rest)
      else
        (if stamp2Sec head.stamp < propBegTime then
          ⟨head, tail, stamp2Sec tail.stamp - lastPropEndTime, stamp2Sec tail.stamp - propBegTime⟩
        else if rest ≠ [] then
          ⟨head, tail, stamp2Sec tail.stamp - stamp2Sec head.stamp,
            stamp2Sec tail.stamp - propBegTime⟩
        else
          ⟨head, tail, propEndTime - stamp2Sec head.stamp, propEndTime - propBegTime⟩) ::
        propSteps propBegTime lastPropEndTime propEndTime (tail :: rest)
  | _ => []

/-- The variables of the forward loop. -/
structure PropState where
  accImu : V3D
  velImu : V3D
  posImu : V3D
  rImu : M3D
  cov : MState
  angvelLast : V3D
  accSLast : V3D
  imuPose : List Pose6D

/-- The numeric body of the forward loop. -/
def propagate (m : Libm) (p : ImuProcess) (stat : StatesGroup) (q : PropState) (k : PropStep) :
    PropState :=
  let dt := k.dt
  let angvelAvr := (1 / 2 : ℚ) • (k.head.angularVelocity + k.tail.angularVelocity) - stat.biasG
  let accAvr := (gMS2 / V3D.norm m p.meanAcc) •
    ((1 / 2 : ℚ) • (k.head.linearAcceleration + k.tail.linearAcceleration)) - stat.biasA
  let ExpF := Exp m angvelAvr dt
  let accAvrSkew := skewSymMatrx accAvr
  let F₀ := setBlock 1 0 0 (Exp m angvelAvr (-dt))
  let F₁ := if p.baBgEstEn then setBlock F₀ 0 10 (-(dt • (1 : M3D))) else F₀
  let F₂ := setBlock F₁ 3 7 (dt • (1 : M3D))
  let F₃ := setBlock F₂ 7 0 (-(dt • (q.rImu * accAvrSkew)))
  let F₄ := if p.baBgEstEn then setBlock F₃ 7 13 (-(dt • q.rImu)) else F₃
  let Fx := if p.gravityEstEn then setBlock F₄ 7 16 (dt • (1 : M3D)) else F₄
  let W₀ : MState :=
    if p.exposureEstimateEn then
      Matrix.diagonal fun i => if i.val = 6 then p.covInvExpo * dt * dt else 0
    else 0
  let W₁ := setBlock W₀ 0 0 (Matrix.diagonal ((dt * dt) • p.covGyr))
  let W₂ := setBlock W₁ 7 7
    ((dt * dt) • (q.rImu * Matrix.diagonal p.covAcc * q.rImu.transpose))
  let W₃ := setBlock W₂ 10 10 (Matrix.diagonal ((dt * dt) • p.covBiasGyr))
  let covW := setBlock W₃ 13 13 (Matrix.diagonal ((dt * dt) • p.covBiasAcc))
  let rImu := q.rImu * ExpF
  let accImu := rImu.mulVec accAvr + stat.gravity
  let posImu := q.posImu + dt • q.velImu + (1 / 2 * dt * dt) • accImu
  let velImu := q.velImu + dt • accImu
  { accImu := accImu
    velImu := velImu
    posImu := posImu
    rImu := rImu
    cov := Fx * q.cov * Fx.transpose + covW
    angvelLast := angvelAvr
    accSLast := accImu
    imuPose := q.imuPose ++ [⟨k.offsT, accImu, angvelAvr, velImu, posImu, rImu⟩] }

/-! ## Backward undistortion -/

/-- Transform a point taken `dt` after the pose `head` into the frame at the end of the scan. -/
def compensate (m : Libm) (p : ImuProcess) (stat : StatesGroup) (head : Pose6D) (pt : PointType) :
    PointType :=
  let dt := pt.curvature / 1000 - head.offsetTime
  let Ri := head.rot * Exp m head.gyr dt
  let Tei := head.pos + dt • head.vel + (1 / 2 * dt * dt) • head.acc - stat.posEnd
  let extRRi := p.lidRotToImu.transpose * stat.rotEnd.transpose
  let exrRExtT := p.lidRotToImu.transpose.mulVec p.lidOffsetToImu
  pt.moveTo (extRRi.mulVec
    (Ri.mulVec (p.lidRotToImu.mulVec pt.position + p.lidOffsetToImu) + Tei) - exrRExtT)

/-- The inner loop: from the point under the iterator down, transform the points later than
`head`.  At the first point of the cloud the iterator stays where it is. -/
def backwardInner (m : Libm) (p : ImuProcess) (stat : StatesGroup) (head : Pose6D) :
    List PointType → List PointType → List PointType × List PointType
  | [], done => ([], done)
  | [pt], done =>
      if head.offsetTime < pt.curvature / 1000 then ([compensate m p stat head pt], done)
      else ([pt], done)
  | pt :: before :: rest, done =>
      if head.offsetTime < pt.curvature / 1000 then
        backwardInner m p stat head (before :: rest) (compensate m p stat head pt :: done)
      else (pt :: before :: rest, done)

/-- The outer loop, from the last pose down to the second; `head` is the pose before. -/
def backwardOuter (m : Libm) (p : ImuProcess) (stat : StatesGroup) (imuPose : List Pose6D)
    (pcl : PointCloudXYZI) : PointCloudXYZI :=
  let (ahead, done) := imuPose.dropLast.reverse.foldl
    (fun it head => backwardInner m p stat head it.1 it.2) (pcl.reverse, [])
  ahead.reverse ++ done

/-! ## One call of `UndistortPcl` -/

/-- `prop_end_time`. -/
def propEndTime (lidarMeas : LidarMeasureGroup) : ℚ :=
  if lidarMeas.lioVioFlg = .lio then lidarMeas.lastMeasure.lioTime
  else lidarMeas.lastMeasure.vioTime

/-- `prop_beg_time`. -/
def propBegTime (p : ImuProcess) : ℚ := p.lastPropEndTime

/-- `v_imu`: the samples of the group after the last sample of the group before. -/
def vImu (p : ImuProcess) (lidarMeas : LidarMeasureGroup) : List Imu :=
  p.lastImu :: lidarMeas.lastMeasure.imu

/-- The integration steps of a call. -/
def undistortSteps (p : ImuProcess) (lidarMeas : LidarMeasureGroup) : List PropStep :=
  if lidarMeas.lioVioFlg = .lio ∨ lidarMeas.lioVioFlg = .vio then
    propSteps p.propBegTime p.lastPropEndTime (propEndTime lidarMeas) (p.vImu lidarMeas)
  else []

/-- `ImuProcess::UndistortPcl`. -/
def undistortPcl (m : Libm) (p : ImuProcess) (lidarMeas : LidarMeasureGroup)
    (stat : StatesGroup) : Processed :=
  let isLio := lidarMeas.lioVioFlg = .lio
  let integrates := lidarMeas.lioVioFlg = .lio ∨ lidarMeas.lioVioFlg = .vio
  let pclWaitProc := if isLio then lidarMeas.pclProcCur else p.pclWaitProc
  let imuPose :=
    if isLio then
      p.imuPose ++ [⟨0, p.accSLast, p.angvelLast, stat.velEnd, stat.posEnd, stat.rotEnd⟩]
    else p.imuPose
  let tau := if p.imuTimeInit then stat.invExpoTime else 1
  let q := (p.undistortSteps lidarMeas).foldl (propagate m p stat)
    { accImu := p.accSLast, velImu := stat.velEnd, posImu := stat.posEnd, rImu := stat.rotEnd
      cov := stat.cov, angvelLast := p.angvelLast, accSLast := p.accSLast, imuPose := imuPose }
  let stat := { stat with
    velEnd := q.velImu, rotEnd := q.rImu, posEnd := q.posImu, invExpoTime := tau, cov := q.cov }
  let meas := { lidarMeas with
    lidarScanIndexNow := if isLio then 0 else lidarMeas.lidarScanIndexNow
    lastLioUpdateTime :=
      if integrates then propEndTime lidarMeas else lidarMeas.lastLioUpdateTime }
  let p := { p with
    imuTimeInit := true, angvelLast := q.angvelLast, accSLast := q.accSLast
    lastImu := (p.vImu lidarMeas).getLast (by simp [vImu])
    lastPropEndTime := propEndTime lidarMeas }
  -- without a point to undistort, and in a visual group, the poses are kept
  let undistorts := isLio ∧ pclWaitProc ≠ []
  { imu := { p with
      pclWaitProc := if undistorts then [] else pclWaitProc
      imuPose := if undistorts then [] else q.imuPose }
    meas := meas
    stat := stat
    pcl := if undistorts then backwardOuter m p stat q.imuPose pclWaitProc else [] }

/-- `ImuProcess::Process2`. -/
def process2 (m : Libm) (p : ImuProcess) (lidarMeas : LidarMeasureGroup) (stat : StatesGroup)
    (curPclUn : PointCloudXYZI) : Except Fault Processed :=
  if !p.imuEn then forwardWithoutImu m p lidarMeas stat
  else if p.imuNeedInit then
    if lidarMeas.lastMeasure.imu = [] then .ok ⟨p, lidarMeas, stat, curPclUn⟩
    else
      match imuInit m p lidarMeas.lastMeasure stat with
      | .error f => .error f
      | .ok (p, stat) =>
          .ok ⟨{ p with imuNeedInit := decide (p.initIterNum ≤ p.maxIniCount) }, lidarMeas, stat,
            curPclUn⟩
  else .ok (undistortPcl m p lidarMeas stat)

/-! ## What a call changes

The fields `sync_packages` reads back: the update time of the bundle, the end of the last
propagation, and whether the IMU still needs its initialisation. -/

/-- The two bundles differ at most in the update time and the scan index. -/
structure SameGroup (a b : LidarMeasureGroup) : Prop where
  begTime : b.lidarFrameBegTime = a.lidarFrameBegTime
  endTime : b.lidarFrameEndTime = a.lidarFrameEndTime
  lidar : b.lidar = a.lidar
  cur : b.pclProcCur = a.pclProcCur
  next : b.pclProcNext = a.pclProcNext
  measures : b.measures = a.measures
  flg : b.lioVioFlg = a.lioVioFlg

lemma SameGroup.refl (a : LidarMeasureGroup) : SameGroup a a := ⟨rfl, rfl, rfl, rfl, rfl, rfl, rfl⟩

lemma SameGroup.lastMeasure {a b : LidarMeasureGroup} (h : SameGroup a b) :
    b.lastMeasure = a.lastMeasure := by
  rw [LidarMeasureGroup.lastMeasure, LidarMeasureGroup.lastMeasure, h.measures]

lemma SameGroup.propEndTime {a b : LidarMeasureGroup} (h : SameGroup a b) :
    propEndTime b = propEndTime a := by
  rw [ImuProcess.propEndTime, ImuProcess.propEndTime, h.flg, h.lastMeasure]

section Undistort

variable (m : Libm) (p : ImuProcess) (meas : LidarMeasureGroup) (stat : StatesGroup)

lemma undistortPcl_lastLioUpdateTime (h : meas.lioVioFlg = .lio ∨ meas.lioVioFlg = .vio) :
    (undistortPcl m p meas stat).meas.lastLioUpdateTime = propEndTime meas :=
  if_pos h

lemma undistortPcl_sameGroup : SameGroup meas (undistortPcl m p meas stat).meas :=
  ⟨rfl, rfl, rfl, rfl, rfl, rfl, rfl⟩

end Undistort

lemma foldl_imuInitSample (p : ImuProcess) (imu : List Imu) :
    (imu.foldl imuInitSample p).imuEn = p.imuEn ∧
      (imu.foldl imuInitSample p).lastPropEndTime = p.lastPropEndTime := by
  induction imu generalizing p with
  | nil => exact ⟨rfl, rfl⟩
  | cons a imu ih => exact ih (imuInitSample p a)

lemma imuInit_frame {m : Libm} {p p' : ImuProcess} {meas : MeasureGroup}
    {stat stat' : StatesGroup} (h : imuInit m p meas stat = .ok (p', stat')) :
    p'.imuEn = p.imuEn ∧ p'.lastPropEndTime = p.lastPropEndTime := by
  rw [imuInit] at h
  obtain ⟨p₁, hp₁, h⟩ := bind_eq_ok.mp h
  obtain ⟨lastImu, -, h⟩ := bind_eq_ok.mp h
  have hframe : p₁.imuEn = p.imuEn ∧ p₁.lastPropEndTime = p.lastPropEndTime := by
    unfold imuInitFirstFrame at hp₁
    split_ifs at hp₁
    · split at hp₁
      · cases hp₁
      · obtain rfl := Except.ok.inj hp₁
        exact ⟨rfl, rfl⟩
    · obtain rfl := Except.ok.inj hp₁
      exact ⟨rfl, rfl⟩
  have hfold := foldl_imuInitSample p₁ meas.imu
  obtain ⟨rfl, -⟩ := Prod.mk.inj (Except.ok.inj h)
  exact ⟨hfold.1.trans hframe.1, hfold.2.trans hframe.2⟩

/-- What `Process2` makes of the IMU process `p` and the bundle `a`, as far as later groups
depend on it: a constant-velocity step without an IMU, a step of the initialisation (or a wait
for samples), or an undistortion. -/
inductive Propagates (p : ImuProcess) (a : LidarMeasureGroup) (q : ImuProcess)
    (b : LidarMeasureGroup) : Prop
  | noImu (en : p.imuEn = false) (en' : q.imuEn = false) (group : SameGroup a b)
  | init (en : p.imuEn = true) (en' : q.imuEn = true) (needs : p.imuNeedInit = true)
      (group : b = a) (last : q.lastPropEndTime = p.lastPropEndTime)
      (done : q.imuNeedInit = false → a.lastMeasure.imu ≠ [])
  | undistort (en : p.imuEn = true) (en' : q.imuEn = true) (needs : p.imuNeedInit = false)
      (needs' : q.imuNeedInit = false) (group : SameGroup a b)
      (update : a.lioVioFlg = .lio ∨ a.lioVioFlg = .vio → b.lastLioUpdateTime = propEndTime a)
      (last : q.lastPropEndTime = propEndTime a)

/-- **What a call of `Process2` changes.** -/
theorem process2_propagates {m : Libm} {p : ImuProcess} {meas : LidarMeasureGroup}
    {stat : StatesGroup} {cur : PointCloudXYZI} {r : Processed}
    (h : process2 m p meas stat cur = .ok r) : Propagates p meas r.imu r.meas := by
  unfold process2 at h
  cases himu : p.imuEn with
  | false =>
      simp only [himu, Bool.not_false, if_true, forwardWithoutImu, forwardSorted] at h
      split at h
      · cases h
      · obtain rfl := Except.ok.inj h
        exact .noImu himu rfl ⟨rfl, rfl, rfl, rfl, rfl, rfl, rfl⟩
  | true =>
      simp only [himu, Bool.not_true, Bool.false_eq_true, if_false] at h
      cases hinit : p.imuNeedInit with
      | true =>
          simp only [hinit, if_true] at h
          split_ifs at h with hempty
          · obtain rfl := Except.ok.inj h
            exact .init himu himu hinit rfl rfl fun hf => by simp [hinit] at hf
          · split at h
            · cases h
            · rename_i p' stat' heq
              obtain rfl := Except.ok.inj h
              have hframe := imuInit_frame heq
              exact .init himu (hframe.1.trans himu) hinit rfl hframe.2 fun _ => hempty
      | false =>
          simp only [hinit, Bool.false_eq_true, if_false] at h
          obtain rfl := Except.ok.inj h
          exact .undistort himu himu hinit hinit (undistortPcl_sameGroup m p meas stat)
            (undistortPcl_lastLioUpdateTime m p meas stat) rfl

end ImuProcess

end FastLivo2
