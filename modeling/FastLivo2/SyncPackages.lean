import FastLivo2.Mapper
import FastLivo2.Lib.Window

/-!
# `sync_packages`

One call of `LIVMapper::sync_packages`, mode by mode.  A call returns whether a measurement
group is ready, together with the node as it leaves it; a `front()`, `back()` or `pop_front()`
of an empty deque, or `points.back()` of an empty cloud, is a fault.

The `while` loops over the IMU deque are `popUpTo`, the loop over the buffered scans is
`splitScans` with the point loop `splitScan` inside.
-/

namespace FastLivo2

/-- `points.back()`. -/
def backPoint (pcl : PointCloudXYZI) : Except Fault PointType :=
  match pcl.getLast? with
  | none => .error .emptyCloud
  | some pt => .ok pt

lemma backPoint_ok {pcl : PointCloudXYZI} (h : pcl ≠ []) : ∃ pt, backPoint pcl = .ok pt := by
  refine ⟨pcl.getLast h, ?_⟩
  rw [backPoint, List.getLast?_eq_getLast_of_ne_nil h]

lemma backPoint_eq_ok {pcl : PointCloudXYZI} {pt : PointType} :
    backPoint pcl = .ok pt ↔ pcl.getLast? = some pt := by
  unfold backPoint
  split <;> simp_all

namespace LIVMapper

/-! ## `ONLY_LIO` -/

/-- `if (meas.last_lio_update_time < 0.0)`: the first update time is the first header time. -/
def initUpdateTime (s : LIVMapper) : Except Fault LIVMapper :=
  if s.lidarMeasures.lastLioUpdateTime < 0 then
    match front s.lidHeaderTimeBuffer with
    | .error f => .error f
    | .ok t => .ok { s with lidarMeasures := { s.lidarMeasures with lastLioUpdateTime := t } }
  else .ok s

/-- `if (!lidar_pushed)`: take the first scan into the bundle.  `false` when it has at most one
point, and the call returns. -/
def latchScan (s : LIVMapper) : Except Fault (Bool × LIVMapper) :=
  if s.lidarPushed then .ok (true, s)
  else do
    let lidar ← front s.lidRawDataBuffer
    if lidar.points.length ≤ 1 then
      .ok (false, { s with lidarMeasures := { s.lidarMeasures with lidar := lidar } })
    else do
      let begTime ← front s.lidHeaderTimeBuffer
      let lastPt ← backPoint lidar.points
      .ok (true, { s with
        lidarPushed := true
        lidarMeasures := { s.lidarMeasures with
          lidar := lidar
          lidarFrameBegTime := begTime
          lidarFrameEndTime := begTime + lastPt.curvature / 1000
          pclProcCur := lidar.points } })

/-- The rest of the branch: wait for the IMU to pass the end of the scan, then hand out the
samples up to it and pop the scan. -/
def takeScan (cfg : Config) (s : LIVMapper) : Except Fault (Bool × LIVMapper) :=
  if cfg.imuEn = true ∧ s.lastTimestampImu < s.lidarMeasures.lidarFrameEndTime then .ok (false, s)
  else do
    let popped := popUpTo Imu.time s.lidarMeasures.lidarFrameEndTime s.imuBuffer
    let m : MeasureGroup := { lioTime := s.lidarMeasures.lidarFrameEndTime, imu := popped.1 }
    let raw ← popFront s.lidRawDataBuffer
    let header ← popFront s.lidHeaderTimeBuffer
    .ok (true, { s with
      imuBuffer := popped.2
      lidRawDataBuffer := raw
      lidHeaderTimeBuffer := header
      lidarPushed := false
      lidarMeasures := { s.lidarMeasures with
        lioVioFlg := .lio, measures := s.lidarMeasures.measures ++ [m] } })

/-- `case ONLY_LIO`. -/
def syncOnlyLio (cfg : Config) (s : LIVMapper) : Except Fault (Bool × LIVMapper) := do
  let s ← s.initUpdateTime
  let (latched, s) ← s.latchScan
  if latched then s.takeScan cfg else .ok (false, s)

/-! ## `LIVO` -/

/-- The point loop: points before the cut go to `pcl_proc_cur` with their offset counted from
the last update, the others to `pcl_proc_next` with their offset counted from the cut. -/
def splitScan (lastLioUpdateTime lioTime frameHeaderTime : ℚ) :
    PointCloudXYZI → PointCloudXYZI × PointCloudXYZI
  | [] => ([], [])
  | pt :: pcl =>
      let maxOffsTimeMs := (lioTime - frameHeaderTime) * 1000
      let (cur, next) := splitScan lastLioUpdateTime lioTime frameHeaderTime pcl
      if pt.curvature < maxOffsTimeMs then
        ({ pt with
            curvature := pt.curvature + (frameHeaderTime - lastLioUpdateTime) * 1000 } :: cur,
          next)
      else
        (cur, { pt with curvature := pt.curvature + (frameHeaderTime - lioTime) * 1000 } :: next)

lemma splitScan_cons (lastLioUpdateTime lioTime frameHeaderTime : ℚ) (pt : PointType)
    (pcl : PointCloudXYZI) :
    splitScan lastLioUpdateTime lioTime frameHeaderTime (pt :: pcl) =
      if pt.curvature < (lioTime - frameHeaderTime) * 1000 then
        ({ pt with curvature := pt.curvature + (frameHeaderTime - lastLioUpdateTime) * 1000 } ::
            (splitScan lastLioUpdateTime lioTime frameHeaderTime pcl).1,
          (splitScan lastLioUpdateTime lioTime frameHeaderTime pcl).2)
      else
        ((splitScan lastLioUpdateTime lioTime frameHeaderTime pcl).1,
          { pt with curvature := pt.curvature + (frameHeaderTime - lioTime) * 1000 } ::
            (splitScan lastLioUpdateTime lioTime frameHeaderTime pcl).2) := rfl

/-- The clouds the scan loop fills and the deques it leaves. -/
structure Split where
  cur : PointCloudXYZI
  next : PointCloudXYZI
  raw : List CloudPtr
  header : List ℚ

/-- The scan loop: split and pop the scans that start at or before the cut. -/
def splitScans (lastLioUpdateTime lioTime : ℚ) :
    List CloudPtr → List ℚ → PointCloudXYZI → PointCloudXYZI → Except Fault Split
  | [], header, cur, next => .ok ⟨cur, next, [], header⟩
  | _ :: _, [], _, _ => .error .emptyDeque
  | scan :: raw, frameHeaderTime :: header, cur, next =>
      if lioTime < frameHeaderTime then
        .ok ⟨cur, next, scan :: raw, frameHeaderTime :: header⟩
      else
        let halves := splitScan lastLioUpdateTime lioTime frameHeaderTime scan.points
        splitScans lastLioUpdateTime lioTime raw header (cur ++ halves.1) (next ++ halves.2)

/-- The node after a LIO group has been cut at `lioTime`. -/
def emitLio (s : LIVMapper) (lioTime : ℚ) (split : Split) : LIVMapper :=
  let popped := popUpTo Imu.time lioTime s.imuBuffer
  let m : MeasureGroup := {
    lioTime := lioTime
    imu := popped.1.filter fun imu => s.lidarMeasures.lastLioUpdateTime < imu.time }
  { s with
    imuBuffer := popped.2
    lidRawDataBuffer := split.raw
    lidHeaderTimeBuffer := split.header
    lidarMeasures := { s.lidarMeasures with
      pclProcCur := split.cur
      pclProcNext := split.next
      measures := s.lidarMeasures.measures ++ [m]
      lioVioFlg := .lio } }

/-- `case WAIT` and `case VIO`: cut a LIO group at the capture time of the buffered image. -/
def syncLivoLio (cfg : Config) (s : LIVMapper) : Except Fault (Bool × LIVMapper) := do
  let imgTime ← front s.imgTimeBuffer
  let imgCaptureTime := imgTime + cfg.exposureTimeInit
  let s ← s.initUpdateTime
  let lastHeader ← back s.lidHeaderTimeBuffer
  let lastScan ← back s.lidRawDataBuffer
  let lastPt ← backPoint lastScan.points
  let lidNewestTime := lastHeader + lastPt.curvature / 1000
  let lastImu ← back s.imuBuffer
  let imuNewestTime := lastImu.time
  if imgCaptureTime < s.lidarMeasures.lastLioUpdateTime + 1 / 100000 then do
    let imgBuffer ← popFront s.imgBuffer
    let imgTimeBuffer ← popFront s.imgTimeBuffer
    .ok (false, { s with imgBuffer := imgBuffer, imgTimeBuffer := imgTimeBuffer })
  else if lidNewestTime < imgCaptureTime ∨ imuNewestTime < imgCaptureTime then .ok (false, s)
  else do
    let split ← splitScans s.lidarMeasures.lastLioUpdateTime imgCaptureTime s.lidRawDataBuffer
      s.lidHeaderTimeBuffer s.lidarMeasures.pclProcNext []
    .ok (true, s.emitLio imgCaptureTime split)

/-- The node after a VIO group has taken the image `img`. -/
def emitVio (s : LIVMapper) (imgCaptureTime : ℚ) (img : Mat) (imgBuffer : List Mat)
    (imgTimeBuffer : List ℚ) : LIVMapper :=
  let m : MeasureGroup := {
    vioTime := imgCaptureTime
    lioTime := s.lidarMeasures.lastLioUpdateTime
    img := img }
  { s with
    imgBuffer := imgBuffer
    imgTimeBuffer := imgTimeBuffer
    lidarPushed := false
    lidarMeasures := { s.lidarMeasures with lioVioFlg := .vio, measures := [m] } }

/-- `case LIO`: hand out the buffered image. -/
def syncLivoVio (cfg : Config) (s : LIVMapper) : Except Fault (Bool × LIVMapper) := do
  let imgTime ← front s.imgTimeBuffer
  let _imuTime ← front s.imuBuffer
  let img ← front s.imgBuffer
  let imgBuffer ← popFront s.imgBuffer
  let imgTimeBuffer ← popFront s.imgTimeBuffer
  .ok (true, s.emitVio (imgTime + cfg.exposureTimeInit) img imgBuffer imgTimeBuffer)

/-- `case LIVO`. -/
def syncLivo (cfg : Config) (s : LIVMapper) : Except Fault (Bool × LIVMapper) :=
  match s.lidarMeasures.lioVioFlg with
  | .wait => s.syncLivoLio cfg
  | .vio => s.syncLivoLio cfg
  | .lio => s.syncLivoVio cfg
  | .lo => .ok (false, s)

/-! ## `ONLY_LO` -/

/-- `if (!lidar_pushed)` of `case ONLY_LO`; `none` when the call returns `false`. -/
def latchScanLo (s : LIVMapper) : Except Fault (Option LIVMapper) :=
  if s.lidarPushed then .ok (some s)
  else if s.lidRawDataBuffer.isEmpty then .ok none
  else do
    let lidar ← front s.lidRawDataBuffer
    let begTime ← front s.lidHeaderTimeBuffer
    let lastPt ← backPoint lidar.points
    .ok (some { s with
      lidarPushed := true
      lidarMeasures := { s.lidarMeasures with
        lidar := lidar
        lidarFrameBegTime := begTime
        lidarFrameEndTime := begTime + lastPt.curvature / 1000 } })

/-- `case ONLY_LO`. -/
def syncOnlyLo (s : LIVMapper) : Except Fault (Bool × LIVMapper) := do
  let latched ← s.latchScanLo
  match latched with
  | none => .ok (false, s)
  | some s => do
      let m : MeasureGroup := { lioTime := s.lidarMeasures.lidarFrameEndTime }
      let raw ← popFront s.lidRawDataBuffer
      let header ← popFront s.lidHeaderTimeBuffer
      .ok (true, { s with
        lidRawDataBuffer := raw
        lidHeaderTimeBuffer := header
        lidarPushed := false
        lidarMeasures := { s.lidarMeasures with
          lioVioFlg := .lo, measures := s.lidarMeasures.measures ++ [m] } })

/-! ## The call -/

/-- `LIVMapper::sync_packages`. -/
def syncPackages (cfg : Config) (s : LIVMapper) : Except Fault (Bool × LIVMapper) :=
  if s.lidRawDataBuffer.isEmpty && cfg.lidarEn then .ok (false, s)
  else if s.imgBuffer.isEmpty && cfg.imgEn then .ok (false, s)
  else if s.imuBuffer.isEmpty && cfg.imuEn then .ok (false, s)
  else
    match cfg.slamMode with
    | .onlyLio => s.syncOnlyLio cfg
    | .livo => s.syncLivo cfg
    | .onlyLo => s.syncOnlyLo

/-- A call that returns has been turned away by a guard, or is the branch of its mode. -/
lemma syncPackages_cases {cfg : Config} {s t : LIVMapper} {b : Bool}
    (h : s.syncPackages cfg = .ok (b, t)) : (b = false ∧ t = s) ∨
      (cfg.slamMode = .livo → s.syncLivo cfg = .ok (b, t)) ∧
      (cfg.slamMode = .onlyLio → s.syncOnlyLio cfg = .ok (b, t)) ∧
      (cfg.slamMode = .onlyLo → s.syncOnlyLo = .ok (b, t)) := by
  have hturned : (.ok (false, s) : Except Fault (Bool × LIVMapper)) = .ok (b, t) →
      b = false ∧ t = s := by
    intro heq
    obtain ⟨rfl, rfl⟩ := Prod.mk.inj (Except.ok.inj heq)
    exact ⟨rfl, rfl⟩
  unfold syncPackages at h
  split_ifs at h
  · exact .inl (hturned h)
  · exact .inl (hturned h)
  · exact .inl (hturned h)
  · refine .inr ⟨fun hmode => ?_, fun hmode => ?_, fun hmode => ?_⟩ <;>
    · rw [hmode] at h
      exact h

/-! ## The update time and the scan loop -/

/-- The bundle with another update time. -/
def setUpdateTime (s : LIVMapper) (t : ℚ) : LIVMapper :=
  { s with lidarMeasures := { s.lidarMeasures with lastLioUpdateTime := t } }

/-- The update time a call works with: the stored one, or the first header time while the
stored one is negative. -/
def UpdateTime (s : LIVMapper) (t : ℚ) : Prop :=
  (0 ≤ s.lidarMeasures.lastLioUpdateTime ∧ t = s.lidarMeasures.lastLioUpdateTime) ∨
    (s.lidarMeasures.lastLioUpdateTime < 0 ∧ s.lidHeaderTimeBuffer.head? = some t)

lemma initUpdateTime_eq_ok {s t : LIVMapper} (h : s.initUpdateTime = .ok t) :
    ∃ updateTime, s.UpdateTime updateTime ∧ t = s.setUpdateTime updateTime := by
  unfold initUpdateTime at h
  split_ifs at h with hneg
  · cases hfront : front s.lidHeaderTimeBuffer with
    | error f => simp [hfront] at h
    | ok u =>
        obtain rfl : _ = t := by simpa [hfront] using h
        exact ⟨u, .inr ⟨hneg, front_eq_ok.mp hfront⟩, rfl⟩
  · obtain rfl := Except.ok.inj h
    exact ⟨_, .inl ⟨not_lt.mp hneg, rfl⟩, rfl⟩

/-- What the scan loop leaves when it has taken the scans `taken`, with their header times, off
the two deques. -/
structure Splits (lastLioUpdateTime lioTime : ℚ) (raw : List CloudPtr) (header : List ℚ)
    (cur next : PointCloudXYZI) (taken : List (CloudPtr × ℚ)) (split : Split) : Prop where
  raw : raw = taken.map Prod.fst ++ split.raw
  header : header = taken.map Prod.snd ++ split.header
  due : ∀ x ∈ taken, x.2 ≤ lioTime
  rest : split.raw = [] ∨ ∀ t ∈ split.header.head?, lioTime < t
  cur : split.cur =
    cur ++ taken.flatMap fun x => (splitScan lastLioUpdateTime lioTime x.2 x.1.points).1
  next : split.next =
    next ++ taken.flatMap fun x => (splitScan lastLioUpdateTime lioTime x.2 x.1.points).2

lemma splitScans_eq_ok {lastLioUpdateTime lioTime : ℚ} {raw : List CloudPtr} {header : List ℚ}
    {cur next : PointCloudXYZI} {split : Split}
    (h : splitScans lastLioUpdateTime lioTime raw header cur next = .ok split) :
    ∃ taken, Splits lastLioUpdateTime lioTime raw header cur next taken split := by
  induction raw generalizing header cur next with
  | nil =>
      obtain rfl := Except.ok.inj h
      exact ⟨[], rfl, rfl, by simp, .inl rfl, by simp, by simp⟩
  | cons scan raw ih =>
      cases header with
      | nil => cases h
      | cons t header =>
          unfold splitScans at h
          split_ifs at h with hlate
          · obtain rfl := Except.ok.inj h
            exact ⟨[], rfl, rfl, by simp, .inr (by simpa using hlate), by simp, by simp⟩
          · obtain ⟨taken, hs⟩ := ih h
            refine ⟨(scan, t) :: taken, ?_, ?_, ?_, hs.rest, ?_, ?_⟩
            · simp [← hs.raw]
            · simp [← hs.header]
            · simpa using ⟨not_lt.mp hlate, fun a b => hs.due (a, b)⟩
            · simp [hs.cur]
            · simp [hs.next]

/-- The scan loop returns as long as there is a header time for every scan. -/
lemma splitScans_returns (lastLioUpdateTime lioTime : ℚ) {raw : List CloudPtr} {header : List ℚ}
    (cur next : PointCloudXYZI) (h : raw.length ≤ header.length) :
    ∃ split, splitScans lastLioUpdateTime lioTime raw header cur next = .ok split := by
  induction raw generalizing header cur next with
  | nil => exact ⟨_, rfl⟩
  | cons scan raw ih =>
      cases header with
      | nil => simp at h
      | cons t header =>
          unfold splitScans
          split_ifs
          · exact ⟨_, rfl⟩
          · exact ih _ _ (by simpa using h)

/-! ## What a call does in `LIVO` mode -/

/-- A LIO group is cut: the image at the front, the update time the slices are counted from and
the scans taken. -/
structure LioCut (cfg : Config) (s : LIVMapper) (updateTime imgTime : ℚ)
    (taken : List (CloudPtr × ℚ)) (split : Split) : Prop where
  flg : s.lidarMeasures.lioVioFlg = .wait ∨ s.lidarMeasures.lioVioFlg = .vio
  image : s.imgTimeBuffer.head? = some imgTime
  update : s.UpdateTime updateTime
  after : updateTime + 1 / 100000 ≤ imgTime + cfg.exposureTimeInit
  imu : ∃ imu, s.imuBuffer.getLast? = some imu ∧ imgTime + cfg.exposureTimeInit ≤ imu.time
  splits : Splits updateTime (imgTime + cfg.exposureTimeInit) s.lidRawDataBuffer
    s.lidHeaderTimeBuffer s.lidarMeasures.pclProcNext [] taken split

/-- The ways a call returns in `LIVO` mode. -/
inductive LivoCase (cfg : Config) (s : LIVMapper) : Bool → LIVMapper → Prop
  | idle : LivoCase cfg s false s
  | wait {updateTime : ℚ}
      (flg : s.lidarMeasures.lioVioFlg = .wait ∨ s.lidarMeasures.lioVioFlg = .vio)
      (update : s.UpdateTime updateTime) :
      LivoCase cfg s false (s.setUpdateTime updateTime)
  | throwImage {updateTime : ℚ}
      (flg : s.lidarMeasures.lioVioFlg = .wait ∨ s.lidarMeasures.lioVioFlg = .vio)
      (update : s.UpdateTime updateTime) :
      LivoCase cfg s false { s.setUpdateTime updateTime with
        imgBuffer := s.imgBuffer.tail, imgTimeBuffer := s.imgTimeBuffer.tail }
  | lio {updateTime imgTime : ℚ} {taken : List (CloudPtr × ℚ)} {split : Split}
      (cut : LioCut cfg s updateTime imgTime taken split) :
      LivoCase cfg s true
        ((s.setUpdateTime updateTime).emitLio (imgTime + cfg.exposureTimeInit) split)
  | vio {imgTime : ℚ} {img : Mat} (flg : s.lidarMeasures.lioVioFlg = .lio)
      (image : s.imgTimeBuffer.head? = some imgTime) (mat : s.imgBuffer.head? = some img)
      (imu : s.imuBuffer ≠ []) :
      LivoCase cfg s true (s.emitVio (imgTime + cfg.exposureTimeInit) img s.imgBuffer.tail
        s.imgTimeBuffer.tail)

lemma syncLivoLio_cases {cfg : Config} {s t : LIVMapper} {b : Bool}
    (hflg : s.lidarMeasures.lioVioFlg = .wait ∨ s.lidarMeasures.lioVioFlg = .vio)
    (h : s.syncLivoLio cfg = .ok (b, t)) : LivoCase cfg s b t := by
  obtain ⟨imgTime, himg, h⟩ := bind_eq_ok.mp h
  obtain ⟨u, hu, h⟩ := bind_eq_ok.mp h
  obtain ⟨updateTime, hupdate, rfl⟩ := initUpdateTime_eq_ok hu
  obtain ⟨lastHeader, -, h⟩ := bind_eq_ok.mp h
  obtain ⟨lastScan, -, h⟩ := bind_eq_ok.mp h
  obtain ⟨lastPt, -, h⟩ := bind_eq_ok.mp h
  obtain ⟨lastImu, himu, h⟩ := bind_eq_ok.mp h
  dsimp only at h
  split_ifs at h with hthrow hwait
  · obtain ⟨imgBuffer, hbuf, h⟩ := bind_eq_ok.mp h
    obtain ⟨imgTimeBuffer, htime, h⟩ := bind_eq_ok.mp h
    obtain ⟨rfl, rfl⟩ := Prod.mk.inj (Except.ok.inj h)
    rw [popFront_eq_ok hbuf, popFront_eq_ok htime]
    exact .throwImage hflg hupdate
  · obtain ⟨rfl, rfl⟩ := Prod.mk.inj (Except.ok.inj h)
    exact .wait hflg hupdate
  · obtain ⟨split, hsplit, h⟩ := bind_eq_ok.mp h
    obtain ⟨rfl, rfl⟩ := Prod.mk.inj (Except.ok.inj h)
    obtain ⟨taken, hsplits⟩ := splitScans_eq_ok hsplit
    exact .lio {
      flg := hflg
      image := front_eq_ok.mp himg
      update := hupdate
      after := not_lt.mp hthrow
      imu := ⟨lastImu, back_eq_ok.mp himu, not_lt.mp (not_or.mp hwait).2⟩
      splits := hsplits }

lemma syncLivoVio_cases {cfg : Config} {s t : LIVMapper} {b : Bool}
    (hflg : s.lidarMeasures.lioVioFlg = .lio) (h : s.syncLivoVio cfg = .ok (b, t)) :
    LivoCase cfg s b t := by
  obtain ⟨imgTime, himg, h⟩ := bind_eq_ok.mp h
  obtain ⟨_, himu, h⟩ := bind_eq_ok.mp h
  obtain ⟨img, hmat, h⟩ := bind_eq_ok.mp h
  obtain ⟨imgBuffer, hbuf, h⟩ := bind_eq_ok.mp h
  obtain ⟨imgTimeBuffer, htime, h⟩ := bind_eq_ok.mp h
  obtain ⟨rfl, rfl⟩ := Prod.mk.inj (Except.ok.inj h)
  rw [popFront_eq_ok hbuf, popFront_eq_ok htime]
  exact .vio hflg (front_eq_ok.mp himg) (front_eq_ok.mp hmat)
    (List.ne_nil_of_mem (List.mem_of_head? (front_eq_ok.mp himu)))

/-- **What a call does in `LIVO` mode.** -/
theorem syncPackages_livo {cfg : Config} {s t : LIVMapper} {b : Bool}
    (hmode : cfg.slamMode = .livo) (h : s.syncPackages cfg = .ok (b, t)) :
    LivoCase cfg s b t := by
  obtain ⟨rfl, rfl⟩ | ⟨hlivo, -, -⟩ := syncPackages_cases h
  · exact .idle
  · replace h := hlivo hmode
    unfold syncLivo at h
    split at h
    · exact syncLivoLio_cases (.inl ‹_›) h
    · exact syncLivoLio_cases (.inr ‹_›) h
    · exact syncLivoVio_cases ‹_› h
    · obtain ⟨rfl, rfl⟩ := Prod.mk.inj (Except.ok.inj h)
      exact .idle

/-! ## What a call does in `ONLY_LIO` mode -/

/-- The node after the scan `lidar` has been latched. -/
def latch (s : LIVMapper) (lidar : CloudPtr) (begTime endTime : ℚ) : LIVMapper :=
  { s with
    lidarPushed := true
    lidarMeasures := { s.lidarMeasures with
      lidar := lidar
      lidarFrameBegTime := begTime
      lidarFrameEndTime := endTime
      pclProcCur := lidar.points } }

/-- The scan is latched already, or it is the first one, of more than one point, and is latched
now. -/
inductive Latched (s : LIVMapper) : LIVMapper → Prop
  | before (pushed : s.lidarPushed = true) : Latched s s
  | now {lidar : CloudPtr} {begTime : ℚ} {lastPt : PointType} (pushed : s.lidarPushed = false)
      (scan : s.lidRawDataBuffer.head? = some lidar) (points : 1 < lidar.points.length)
      (time : s.lidHeaderTimeBuffer.head? = some begTime)
      (last : lidar.points.getLast? = some lastPt) :
      Latched s (s.latch lidar begTime (begTime + lastPt.curvature / 1000))

/-- The node after the latched scan has been handed out. -/
def emitScan (s : LIVMapper) : LIVMapper :=
  let popped := popUpTo Imu.time s.lidarMeasures.lidarFrameEndTime s.imuBuffer
  { s with
    imuBuffer := popped.2
    lidRawDataBuffer := s.lidRawDataBuffer.tail
    lidHeaderTimeBuffer := s.lidHeaderTimeBuffer.tail
    lidarPushed := false
    lidarMeasures := { s.lidarMeasures with
      lioVioFlg := .lio
      measures := s.lidarMeasures.measures ++
        [{ lioTime := s.lidarMeasures.lidarFrameEndTime, imu := popped.1 }] } }

/-- The ways a call returns in `ONLY_LIO` mode. -/
inductive OnlyLioCase (s : LIVMapper) : Bool → LIVMapper → Prop
  | idle : OnlyLioCase s false s
  | small {updateTime : ℚ} {lidar : CloudPtr} (pushed : s.lidarPushed = false) :
      OnlyLioCase s false { s.setUpdateTime updateTime with
        lidarMeasures := { (s.setUpdateTime updateTime).lidarMeasures with lidar := lidar } }
  | wait {updateTime : ℚ} {t : LIVMapper} (latched : (s.setUpdateTime updateTime).Latched t) :
      OnlyLioCase s false t
  | take {updateTime : ℚ} {t : LIVMapper} (latched : (s.setUpdateTime updateTime).Latched t)
      (raw : t.lidRawDataBuffer ≠ []) (header : t.lidHeaderTimeBuffer ≠ []) :
      OnlyLioCase s true t.emitScan

lemma latchScan_cases {s t : LIVMapper} {b : Bool} (h : s.latchScan = .ok (b, t)) :
    (b = true ∧ s.Latched t) ∨ (b = false ∧ s.lidarPushed = false ∧ ∃ lidar,
      t = { s with lidarMeasures := { s.lidarMeasures with lidar := lidar } }) := by
  unfold latchScan at h
  split_ifs at h with hpushed
  · obtain ⟨rfl, rfl⟩ := Prod.mk.inj (Except.ok.inj h)
    exact .inl ⟨rfl, .before hpushed⟩
  · obtain ⟨lidar, hlidar, h⟩ := bind_eq_ok.mp h
    split_ifs at h with hsmall
    · obtain ⟨rfl, rfl⟩ := Prod.mk.inj (Except.ok.inj h)
      exact .inr ⟨rfl, by simpa using hpushed, lidar, rfl⟩
    · obtain ⟨begTime, hbeg, h⟩ := bind_eq_ok.mp h
      obtain ⟨lastPt, hlast, h⟩ := bind_eq_ok.mp h
      obtain ⟨rfl, rfl⟩ := Prod.mk.inj (Except.ok.inj h)
      exact .inl ⟨rfl, .now (by simpa using hpushed) (front_eq_ok.mp hlidar)
        (not_le.mp hsmall) (front_eq_ok.mp hbeg) (backPoint_eq_ok.mp hlast)⟩

lemma takeScan_cases {cfg : Config} {s t : LIVMapper} {b : Bool}
    (h : s.takeScan cfg = .ok (b, t)) :
    (b = false ∧ t = s) ∨ (b = true ∧ t = s.emitScan ∧ s.lidRawDataBuffer ≠ [] ∧
      s.lidHeaderTimeBuffer ≠ []) := by
  unfold takeScan at h
  split_ifs at h
  · obtain ⟨rfl, rfl⟩ := Prod.mk.inj (Except.ok.inj h)
    exact .inl ⟨rfl, rfl⟩
  · obtain ⟨raw, hraw, h⟩ := bind_eq_ok.mp h
    obtain ⟨header, hheader, h⟩ := bind_eq_ok.mp h
    obtain ⟨rfl, rfl⟩ := Prod.mk.inj (Except.ok.inj h)
    refine .inr ⟨rfl, ?_, ?_, ?_⟩
    · rw [popFront_eq_ok hraw, popFront_eq_ok hheader]
      rfl
    · exact ne_nil_of_popFront hraw
    · exact ne_nil_of_popFront hheader

/-- **What a call does in `ONLY_LIO` mode.** -/
theorem syncPackages_onlyLio {cfg : Config} {s t : LIVMapper} {b : Bool}
    (hmode : cfg.slamMode = .onlyLio) (h : s.syncPackages cfg = .ok (b, t)) :
    OnlyLioCase s b t := by
  obtain ⟨rfl, rfl⟩ | ⟨-, honlyLio, -⟩ := syncPackages_cases h
  · exact .idle
  · replace h := honlyLio hmode
    obtain ⟨u, hu, h⟩ := bind_eq_ok.mp h
    obtain ⟨updateTime, -, rfl⟩ := initUpdateTime_eq_ok hu
    obtain ⟨⟨latched, v⟩, hv, h⟩ := bind_eq_ok.mp h
    rcases latchScan_cases hv with ⟨rfl, hlatched⟩ | ⟨rfl, hpushed, lidar, rfl⟩
    · rcases takeScan_cases h with ⟨rfl, rfl⟩ | ⟨rfl, rfl, hraw, hheader⟩
      · exact .wait hlatched
      · exact .take hlatched hraw hheader
    · obtain ⟨rfl, rfl⟩ := Prod.mk.inj (Except.ok.inj h)
      exact .small hpushed

/-! ## What a call does in `ONLY_LO` mode -/

/-- The node after the scan `lidar` has been latched, without copying its points. -/
def latchLo (s : LIVMapper) (lidar : CloudPtr) (begTime endTime : ℚ) : LIVMapper :=
  { s with
    lidarPushed := true
    lidarMeasures := { s.lidarMeasures with
      lidar := lidar
      lidarFrameBegTime := begTime
      lidarFrameEndTime := endTime } }

/-- The node after the latched scan has been handed out, with no other measurement. -/
def emitScanLo (s : LIVMapper) : LIVMapper :=
  { s with
    lidRawDataBuffer := s.lidRawDataBuffer.tail
    lidHeaderTimeBuffer := s.lidHeaderTimeBuffer.tail
    lidarPushed := false
    lidarMeasures := { s.lidarMeasures with
      lioVioFlg := .lo
      measures := s.lidarMeasures.measures ++
        [{ lioTime := s.lidarMeasures.lidarFrameEndTime }] } }

/-- The ways a call returns in `ONLY_LO` mode. -/
inductive OnlyLoCase (s : LIVMapper) : Bool → LIVMapper → Prop
  | idle : OnlyLoCase s false s
  | latched (pushed : s.lidarPushed = true) (raw : s.lidRawDataBuffer ≠ [])
      (header : s.lidHeaderTimeBuffer ≠ []) : OnlyLoCase s true s.emitScanLo
  | take {lidar : CloudPtr} {begTime : ℚ} {lastPt : PointType} (pushed : s.lidarPushed = false)
      (scan : s.lidRawDataBuffer.head? = some lidar)
      (time : s.lidHeaderTimeBuffer.head? = some begTime)
      (last : lidar.points.getLast? = some lastPt) :
      OnlyLoCase s true
        (s.latchLo lidar begTime (begTime + lastPt.curvature / 1000)).emitScanLo

lemma latchScanLo_cases {s : LIVMapper} {latched : Option LIVMapper}
    (h : s.latchScanLo = .ok latched) :
    (latched = none ∧ s.lidRawDataBuffer = []) ∨ (s.lidarPushed = true ∧ latched = some s) ∨
      ∃ lidar begTime lastPt, s.lidarPushed = false ∧ s.lidRawDataBuffer.head? = some lidar ∧
        s.lidHeaderTimeBuffer.head? = some begTime ∧ lidar.points.getLast? = some lastPt ∧
        latched = some (s.latchLo lidar begTime (begTime + lastPt.curvature / 1000)) := by
  unfold latchScanLo at h
  split_ifs at h with hpushed hempty
  · exact .inr (.inl ⟨hpushed, (Except.ok.inj h).symm⟩)
  · exact .inl ⟨(Except.ok.inj h).symm, by simpa using hempty⟩
  · obtain ⟨lidar, hlidar, h⟩ := bind_eq_ok.mp h
    obtain ⟨begTime, hbeg, h⟩ := bind_eq_ok.mp h
    obtain ⟨lastPt, hlast, h⟩ := bind_eq_ok.mp h
    exact .inr (.inr ⟨lidar, begTime, lastPt, by simpa using hpushed, front_eq_ok.mp hlidar,
      front_eq_ok.mp hbeg, backPoint_eq_ok.mp hlast, (Except.ok.inj h).symm⟩)

/-- **What a call does in `ONLY_LO` mode.** -/
theorem syncPackages_onlyLo {cfg : Config} {s t : LIVMapper} {b : Bool}
    (hmode : cfg.slamMode = .onlyLo) (h : s.syncPackages cfg = .ok (b, t)) :
    OnlyLoCase s b t := by
  obtain ⟨rfl, rfl⟩ | ⟨-, -, honlyLo⟩ := syncPackages_cases h
  · exact .idle
  · replace h := honlyLo hmode
    obtain ⟨latched, hlatched, h⟩ := bind_eq_ok.mp h
    rcases latchScanLo_cases hlatched with
      ⟨rfl, -⟩ | ⟨hpushed, rfl⟩ | ⟨lidar, begTime, lastPt, hpushed, hscan, htime, hlast, rfl⟩
    · obtain ⟨rfl, rfl⟩ := Prod.mk.inj (Except.ok.inj h)
      exact .idle
    · obtain ⟨raw, hraw, h⟩ := bind_eq_ok.mp h
      obtain ⟨header, hheader, h⟩ := bind_eq_ok.mp h
      obtain ⟨rfl, rfl⟩ := Prod.mk.inj (Except.ok.inj h)
      rw [popFront_eq_ok hraw, popFront_eq_ok hheader]
      exact .latched hpushed (ne_nil_of_popFront hraw) (ne_nil_of_popFront hheader)
    · obtain ⟨raw, hraw, h⟩ := bind_eq_ok.mp h
      obtain ⟨header, hheader, h⟩ := bind_eq_ok.mp h
      obtain ⟨rfl, rfl⟩ := Prod.mk.inj (Except.ok.inj h)
      rw [popFront_eq_ok hraw, popFront_eq_ok hheader]
      exact .take hpushed hscan htime hlast

/-! ## The two lidar deques -/

/-- A call takes scans and header times off the two fronts in pairs. -/
def PopsPairs (s t : LIVMapper) : Prop :=
  ∃ taken : List (CloudPtr × ℚ),
    s.lidRawDataBuffer = taken.map Prod.fst ++ t.lidRawDataBuffer ∧
      s.lidHeaderTimeBuffer = taken.map Prod.snd ++ t.lidHeaderTimeBuffer

lemma PopsPairs.none {s t : LIVMapper} (hraw : t.lidRawDataBuffer = s.lidRawDataBuffer)
    (hheader : t.lidHeaderTimeBuffer = s.lidHeaderTimeBuffer) : PopsPairs s t :=
  ⟨[], by simp [hraw], by simp [hheader]⟩

lemma PopsPairs.one {s t : LIVMapper} (hraw : t.lidRawDataBuffer = s.lidRawDataBuffer.tail)
    (hheader : t.lidHeaderTimeBuffer = s.lidHeaderTimeBuffer.tail)
    (hraw' : s.lidRawDataBuffer ≠ []) (hheader' : s.lidHeaderTimeBuffer ≠ []) :
    PopsPairs s t := by
  obtain ⟨scan, raw, hscan⟩ := List.exists_cons_of_ne_nil hraw'
  obtain ⟨time, header, htime⟩ := List.exists_cons_of_ne_nil hheader'
  exact ⟨[(scan, time)], by simp [hraw, hscan], by simp [hheader, htime]⟩

lemma Latched.deques {s t : LIVMapper} (h : s.Latched t) :
    t.lidRawDataBuffer = s.lidRawDataBuffer ∧ t.lidHeaderTimeBuffer = s.lidHeaderTimeBuffer := by
  cases h <;> exact ⟨rfl, rfl⟩

lemma LivoCase.popsPairs {cfg : Config} {s t : LIVMapper} {b : Bool} (h : LivoCase cfg s b t) :
    PopsPairs s t := by
  cases h with
  | lio cut => exact ⟨_, cut.splits.raw, cut.splits.header⟩
  | idle => exact .none rfl rfl
  | wait => exact .none rfl rfl
  | throwImage => exact .none rfl rfl
  | vio => exact .none rfl rfl

lemma OnlyLioCase.popsPairs {s t : LIVMapper} {b : Bool} (h : OnlyLioCase s b t) :
    PopsPairs s t := by
  cases h with
  | idle => exact .none rfl rfl
  | small => exact .none rfl rfl
  | wait latched => exact .none latched.deques.1 latched.deques.2
  | take latched hraw hheader =>
      obtain ⟨hr, hh⟩ := latched.deques
      rw [hr] at hraw
      rw [hh] at hheader
      exact .one (congrArg List.tail hr) (congrArg List.tail hh) hraw hheader

lemma OnlyLoCase.popsPairs {s t : LIVMapper} {b : Bool} (h : OnlyLoCase s b t) :
    PopsPairs s t := by
  cases h with
  | idle => exact .none rfl rfl
  | latched _ hraw hheader => exact .one rfl rfl hraw hheader
  | take _ hscan htime _ =>
      exact .one rfl rfl (List.ne_nil_of_mem (List.mem_of_head? hscan))
        (List.ne_nil_of_mem (List.mem_of_head? htime))

/-! ## What every call leaves alone -/

/-- Scans and header times go in pairs, IMU samples from the front, an image with its time; the
latest stamps, the image counter, the allocation count and the IMU process stay. -/
structure SyncFrame (s t : LIVMapper) : Prop where
  pops : PopsPairs s t
  imu : t.imuBuffer <:+ s.imuBuffer
  img : (t.imgBuffer = s.imgBuffer ∧ t.imgTimeBuffer = s.imgTimeBuffer) ∨
    (t.imgBuffer = s.imgBuffer.tail ∧ t.imgTimeBuffer = s.imgTimeBuffer.tail)
  lastLidar : t.lastTimestampLidar = s.lastTimestampLidar
  lastImu : t.lastTimestampImu = s.lastTimestampImu
  lastImg : t.lastTimestampImg = s.lastTimestampImg
  frameCounter : t.frameCounter = s.frameCounter
  allocated : t.allocated = s.allocated
  pImu : t.pImu = s.pImu

lemma popUpTo_suffix (b : ℚ) (l : List Imu) : (popUpTo Imu.time b l).2 <:+ l :=
  ⟨(popUpTo Imu.time b l).1, popUpTo_append Imu.time b l⟩

lemma LivoCase.frame {cfg : Config} {s t : LIVMapper} {b : Bool} (h : LivoCase cfg s b t) :
    SyncFrame s t := by
  have hpops := h.popsPairs
  cases h with
  | idle => exact ⟨hpops, List.suffix_rfl, .inl ⟨rfl, rfl⟩, rfl, rfl, rfl, rfl, rfl, rfl⟩
  | wait => exact ⟨hpops, List.suffix_rfl, .inl ⟨rfl, rfl⟩, rfl, rfl, rfl, rfl, rfl, rfl⟩
  | throwImage => exact ⟨hpops, List.suffix_rfl, .inr ⟨rfl, rfl⟩, rfl, rfl, rfl, rfl, rfl, rfl⟩
  | lio => exact ⟨hpops, popUpTo_suffix _ _, .inl ⟨rfl, rfl⟩, rfl, rfl, rfl, rfl, rfl, rfl⟩
  | vio => exact ⟨hpops, List.suffix_rfl, .inr ⟨rfl, rfl⟩, rfl, rfl, rfl, rfl, rfl, rfl⟩

lemma Latched.frame {s t : LIVMapper} (h : s.Latched t) : SyncFrame s t := by
  have hpops : PopsPairs s t := .none h.deques.1 h.deques.2
  cases h with
  | before => exact ⟨hpops, List.suffix_rfl, .inl ⟨rfl, rfl⟩, rfl, rfl, rfl, rfl, rfl, rfl⟩
  | now => exact ⟨hpops, List.suffix_rfl, .inl ⟨rfl, rfl⟩, rfl, rfl, rfl, rfl, rfl, rfl⟩

lemma OnlyLioCase.frame {s t : LIVMapper} {b : Bool} (h : OnlyLioCase s b t) :
    SyncFrame s t := by
  have hpops := h.popsPairs
  cases h with
  | idle => exact ⟨hpops, List.suffix_rfl, .inl ⟨rfl, rfl⟩, rfl, rfl, rfl, rfl, rfl, rfl⟩
  | small => exact ⟨hpops, List.suffix_rfl, .inl ⟨rfl, rfl⟩, rfl, rfl, rfl, rfl, rfl, rfl⟩
  | wait latched =>
      have h := latched.frame
      exact ⟨hpops, h.imu, h.img, h.lastLidar, h.lastImu, h.lastImg, h.frameCounter,
        h.allocated, h.pImu⟩
  | take latched =>
      have h := latched.frame
      exact ⟨hpops, (popUpTo_suffix _ _).trans h.imu, h.img, h.lastLidar, h.lastImu, h.lastImg,
        h.frameCounter, h.allocated, h.pImu⟩

lemma OnlyLoCase.frame {s t : LIVMapper} {b : Bool} (h : OnlyLoCase s b t) : SyncFrame s t := by
  have hpops := h.popsPairs
  cases h <;> exact ⟨hpops, List.suffix_rfl, .inl ⟨rfl, rfl⟩, rfl, rfl, rfl, rfl, rfl, rfl⟩

/-- **What no call of `sync_packages` changes**, in any mode. -/
theorem syncPackages_frame {cfg : Config} {s t : LIVMapper} {b : Bool}
    (h : s.syncPackages cfg = .ok (b, t)) : SyncFrame s t := by
  cases hmode : cfg.slamMode with
  | onlyLo => exact (syncPackages_onlyLo hmode h).frame
  | onlyLio => exact (syncPackages_onlyLio hmode h).frame
  | livo => exact (syncPackages_livo hmode h).frame

end LIVMapper

end FastLivo2
