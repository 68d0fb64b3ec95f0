import FastLivo2.ImuProcess

/-!
# The mapping node and its callbacks

The members of `LIVMapper` that the callbacks, `sync_packages` and the run loop touch, and the
callbacks themselves.  The node is single-threaded: `spin_some` runs callbacks to completion
between two passes of the loop, so a callback is one function from state to state.

Message counters, log throttles and the mutexes guarding the deques change nothing the node
computes and are left out.  `cvtColor` and `toCvCopy` are library conversions and stay
parameters; so do the numeric results of the two estimators and of the gravity alignment,
which write the filter state only.

Times are exact numbers, and so are the comparisons of `imu_cbk` and `img_cbk`.  Near a bound the
rounding of doubles decides; `StampFilters` has both callbacks with it.
-/

namespace FastLivo2

/-- The parameters read at start-up, the libraries called, and the values of the members no
code initialises. -/
structure Config where
  lidarEn : Bool := true
  imgEn : Bool := true
  imuEn : Bool := true
  rosDriverFixEn : Bool := false
  hiltiEn : Bool := false
  imuPropEnable : Bool := false
  gravityAlignEn : Bool := false
  gravityEstEn : Bool := true
  baBgEstEn : Bool := true
  exposureEstimateEn : Bool := true
  lidarTimeOffset : ℚ := 0
  imgTimeOffset : ℚ := 0
  imuTimeOffset : ℚ := 0
  exposureTimeInit : ℚ := 0
  imuIntFrame : ℤ := 30
  gyrCov : ℚ := 1
  accCov : ℚ := 1
  invExpoCov : ℚ := 1 / 10
  extT : V3D := 0
  extR : M3D := 1
  libm : Libm := ⟨fun _ => 0, fun _ => 1, fun _ => 1⟩
  cvtColorNv12 : Mat → Mat := id
  toCvCopyBgr8 : Image → Mat := fun msg => ⟨msg.height, msg.width, msg.data⟩
  /-- The rotation aligning gravity with the world's `-z`. -/
  gravityRotation : V3D → M3D := fun _ => 1
  garbagePropEndTime : ℚ := 0
  garbageLastScan : ℚ := 0
  garbageLidarType : ℤ := 0
  garbageEkfTime : ℚ := 0

/-- `slam_mode_`, chosen once at start-up. -/
def Config.slamMode (cfg : Config) : SlamMode :=
  if cfg.imgEn && cfg.lidarEn then .livo else if cfg.imuEn then .onlyLio else .onlyLo

lemma Config.slamMode_eq_livo {cfg : Config} :
    cfg.slamMode = .livo ↔ cfg.imgEn = true ∧ cfg.lidarEn = true := by
  unfold slamMode
  cases cfg.imgEn <;> cases cfg.lidarEn <;> cases cfg.imuEn <;> simp

lemma Config.slamMode_eq_onlyLio {cfg : Config} :
    cfg.slamMode = .onlyLio ↔ ¬(cfg.imgEn = true ∧ cfg.lidarEn = true) ∧ cfg.imuEn = true := by
  unfold slamMode
  cases cfg.imgEn <;> cases cfg.lidarEn <;> cases cfg.imuEn <;> simp

lemma Config.slamMode_eq_onlyLo {cfg : Config} :
    cfg.slamMode = .onlyLo ↔ ¬(cfg.imgEn = true ∧ cfg.lidarEn = true) ∧ cfg.imuEn = false := by
  unfold slamMode
  cases cfg.imgEn <;> cases cfg.lidarEn <;> cases cfg.imuEn <;> simp

/-- The members of the node. -/
structure LIVMapper where
  pImu : ImuProcess
  latestEkfTime : ℚ
  lastTimestampLidar : ℚ := -1
  lastTimestampImu : ℚ := -1
  lastTimestampImg : ℚ := -1
  lidarPushed : Bool := false
  /-- The static counter of `img_cbk`. -/
  frameCounter : ℕ := 0
  /-- How many clouds have been allocated (ghost data). -/
  allocated : ℕ := 0
  lidRawDataBuffer : List CloudPtr := []
  lidHeaderTimeBuffer : List ℚ := []
  imuBuffer : List Imu := []
  imgBuffer : List Mat := []
  imgTimeBuffer : List ℚ := []
  lidarMeasures : LidarMeasureGroup := {}
  state : StatesGroup := {}
  statePropagat : StatesGroup := {}
  featsUndistort : PointCloudXYZI := []
  pclWWaitPub : PointCloudXYZI := []
  isFirstFrame : Bool := false
  firstLidarTime : ℚ := 0
  gravityAlignFinished : Bool := false
  propImuBuffer : List Imu := []
  newestImu : Imu := ⟨0, 0, 0⟩
  newImu : Bool := false
  stateUpdateFlg : Bool := false
  ekfFinishOnce : Bool := false
  imuPropagate : StatesGroup := {}
  latestEkfState : StatesGroup := {}
  /-- The static variable of `imu_prop_callback`. -/
  lastTFromLidarEndTime : ℚ := 0

/-- The IMU process after `initializeComponents`. -/
def Config.initialImu (cfg : Config) : ImuProcess where
  lastPropEndTime := cfg.garbagePropEndTime
  timeLastScan := cfg.garbageLastScan
  lidarType := cfg.garbageLidarType
  lidRotToImu := cfg.extR
  lidOffsetToImu := cfg.extT
  covGyr := ![cfg.gyrCov, cfg.gyrCov, cfg.gyrCov]
  covAcc := ![cfg.accCov, cfg.accCov, cfg.accCov]
  covInvExpo := cfg.invExpoCov
  covBiasGyr := ![1 / 10000, 1 / 10000, 1 / 10000]
  covBiasAcc := ![1 / 10000, 1 / 10000, 1 / 10000]
  maxIniCount := cfg.imuIntFrame
  -- `disable_imu` clears both flags
  imuEn := cfg.imuEn
  imuNeedInit := cfg.imuEn
  gravityEstEn := cfg.gravityEstEn
  baBgEstEn := cfg.baBgEstEn
  exposureEstimateEn := cfg.exposureEstimateEn

/-- The node as constructed. -/
def Config.initial (cfg : Config) : LIVMapper where
  pImu := cfg.initialImu
  latestEkfTime := cfg.garbageEkfTime

namespace LIVMapper

/-! ## LiDAR -/

/-- The header time a lidar callback files a scan under.  Only the `PointCloud2` path adds the
configured offset. -/
def headTime (cfg : Config) : LidarDriver → LidarMsg → ℚ
  | .standard, msg => stamp2Sec msg.stamp + cfg.lidarTimeOffset
  | .livox, msg => stamp2Sec msg.stamp

/-- `MAX_LIDAR_BUFFER`. -/
def maxLidarBuffer : ℕ := 3

/-- The loop that pops both deques while the first holds more than `max` entries. -/
def dropOldest {α : Type} (max : ℕ) : List α → List ℚ → List α × List ℚ
  | [], ts => ([], ts)
  | x :: xs, ts => if max < (x :: xs).length then dropOldest max xs ts.tail else (x :: xs, ts)

/-- The cloud a callback fills from a message. -/
def newCloud (s : LIVMapper) (driver : LidarDriver) (msg : LidarMsg) (curHeadTime : ℚ) :
    CloudPtr where
  addr := s.allocated
  driver := driver
  msg := msg
  points := msg.points.mapIdx fun i pt =>
    { pt with prov := ⟨s.allocated, i, curHeadTime + pt.curvature / 1000⟩ }

/-- The "lidar loop back" branch. -/
def clearLoopBack (s : LIVMapper) (curHeadTime : ℚ) : LIVMapper :=
  if curHeadTime < s.lastTimestampLidar then { s with lidRawDataBuffer := [] } else s

/-- File a cloud and its header time and keep the latest frames. -/
def pushScan (s : LIVMapper) (ptr : CloudPtr) (curHeadTime : ℚ) : LIVMapper :=
  let kept := dropOldest maxLidarBuffer (s.lidRawDataBuffer ++ [ptr])
    (s.lidHeaderTimeBuffer ++ [curHeadTime])
  { s with
    lidRawDataBuffer := kept.1
    lidHeaderTimeBuffer := kept.2
    lastTimestampLidar := curHeadTime
    allocated := s.allocated + 1 }

/-- What the two lidar callbacks share.  The livox callback returns on an empty cloud, after the
loop-back branch; the other one files it. -/
def lidarCbk (cfg : Config) (driver : LidarDriver) (s : LIVMapper) (msg : LidarMsg) :
    LIVMapper :=
  if !cfg.lidarEn then s
  else
    let curHeadTime := headTime cfg driver msg
    let s := s.clearLoopBack curHeadTime
    if driver = .livox ∧ msg.points = [] then s
    else s.pushScan (s.newCloud driver msg curHeadTime) curHeadTime

/-- `LIVMapper::standard_pcl_cbk`. -/
def standardPclCbk (cfg : Config) (s : LIVMapper) (msg : LidarMsg) : LIVMapper :=
  lidarCbk cfg .standard s msg

/-- `LIVMapper::livox_pcl_cbk`. -/
def livoxPclCbk (cfg : Config) (s : LIVMapper) (msg : LidarMsg) : LIVMapper :=
  lidarCbk cfg .livox s msg

/-! ## IMU -/

/-- `std::round`: to the nearest integer, halves away from zero. -/
def stdRound (x : ℚ) : ℤ := if 0 ≤ x then ⌊x + 1 / 2⌋ else ⌈x - 1 / 2⌉

/-- `timestamp` in `imu_cbk`: the message's time shifted by the configured offset, to whole
nanoseconds, and with the driver fix by the whole seconds it is away from the lidar. -/
def imuTimestamp (cfg : Config) (s : LIVMapper) (msgIn : Imu) : Except Fault ℚ :=
  match sec2Stamp (stamp2Sec msgIn.stamp - cfg.imuTimeOffset) with
  | .error f => .error f
  | .ok stamp =>
      .ok (if cfg.rosDriverFixEn then
        stamp2Sec stamp + stdRound (s.lastTimestampLidar - stamp2Sec stamp)
      else stamp2Sec stamp)

/-- The gate of `imu_cbk`: neither a loop back nor a jump of more than 0.2 s. -/
def imuPasses (s : LIVMapper) (timestamp : ℚ) : Bool :=
  !(decide (0 < s.lastTimestampImu) && decide (timestamp < s.lastTimestampImu)) &&
    !(decide (0 < s.lastTimestampImu) && decide (s.lastTimestampImu + 1 / 5 < timestamp))

/-- File an accepted IMU message. -/
def pushImu (cfg : Config) (s : LIVMapper) (timestamp : ℚ) (msg : Imu) : LIVMapper :=
  { s with
    lastTimestampImu := timestamp
    imuBuffer := s.imuBuffer ++ [msg]
    propImuBuffer :=
      if cfg.imuPropEnable && !s.pImu.imuNeedInit then s.propImuBuffer ++ [msg]
      else s.propImuBuffer
    newestImu := if cfg.imuPropEnable then msg else s.newestImu
    newImu := if cfg.imuPropEnable then true else s.newImu }

/-- `LIVMapper::imu_cbk`. -/
def imuCbk (cfg : Config) (s : LIVMapper) (msgIn : Imu) : Except Fault LIVMapper :=
  if !cfg.imuEn then .ok s
  else if s.lastTimestampLidar < 0 then .ok s
  else
    match s.imuTimestamp cfg msgIn with
    | .error f => .error f
    | .ok timestamp =>
        match sec2Stamp timestamp with
        | .error f => .error f
        | .ok stamp =>
            if s.imuPasses timestamp then
              .ok (s.pushImu cfg timestamp { msgIn with stamp := stamp })
            else .ok s

/-! ## Images -/

/-- `LIVMapper::getImageFromMsg`. -/
def getImageFromMsg (cfg : Config) (msg : Image) : Mat :=
  if msg.encoding = "nv12" ∨ msg.encoding = "NV12" then
    cfg.cvtColorNv12 ⟨msg.height * 3 / 2, msg.width, msg.data⟩
  else cfg.toCvCopyBgr8 msg

/-- `msg_header_time`. -/
def imgTime (cfg : Config) (msg : Image) : ℚ := stamp2Sec msg.stamp + cfg.imgTimeOffset

/-- The gates of `img_cbk`, in its order: a duplicate, no scan seen yet, a loop back, and an
image less than 0.05 s after the last. -/
def imgPasses (s : LIVMapper) (msgHeaderTime : ℚ) : Bool :=
  !decide (|msgHeaderTime - s.lastTimestampImg| < 1 / 1000) &&
    (!decide (s.lastTimestampLidar < 0) &&
      (!decide (msgHeaderTime < s.lastTimestampImg) &&
        !decide (msgHeaderTime - s.lastTimestampImg < 1 / 20)))

/-- File an accepted image and keep only the latest. -/
def pushImg (s : LIVMapper) (imgCur : Mat) (imgTimeCorrect : ℚ) : LIVMapper :=
  let kept := dropOldest 1 (s.imgBuffer ++ [imgCur]) (s.imgTimeBuffer ++ [imgTimeCorrect])
  { s with
    imgBuffer := kept.1
    imgTimeBuffer := kept.2
    lastTimestampImg := imgTimeCorrect }

/-- The static counter skips three of four images of the 40 Hz camera. -/
def countFrame (cfg : Config) (s : LIVMapper) : LIVMapper :=
  if cfg.hiltiEn then { s with frameCounter := s.frameCounter + 1 } else s

/-- `LIVMapper::img_cbk`. -/
def imgCbk (cfg : Config) (s : LIVMapper) (msg : Image) : LIVMapper :=
  if !cfg.imgEn then s
  else
    let s := s.countFrame cfg
    if cfg.hiltiEn ∧ s.frameCounter % 4 ≠ 0 then s
    else if s.imgPasses (imgTime cfg msg) then
      s.pushImg (getImageFromMsg cfg msg) (imgTime cfg msg)
    else s

/-! ## IMU-rate odometry -/

/-- `LIVMapper::prop_imu_once`. -/
def propImuOnce (cfg : Config) (p : ImuProcess) (dt : ℚ) (st : StatesGroup) (imu : Imu) :
    StatesGroup :=
  let accAvr := (gMS2 / p.imuMeanAccNorm) • imu.linearAcceleration - st.biasA
  let angvelAvr := imu.angularVelocity - st.biasG
  let rotEnd := st.rotEnd * Exp cfg.libm angvelAvr dt
  let accImu := rotEnd.mulVec accAvr + st.gravity
  { st with
    rotEnd := rotEnd
    posEnd := st.posEnd + dt • st.velEnd + (1 / 2 * dt * dt) • accImu
    velEnd := st.velEnd + dt • accImu }

/-- The batch loop: propagate through the samples, each by the time since the one before. -/
def propImuBatch (cfg : Config) (s : LIVMapper) : List Imu → ℚ → StatesGroup → StatesGroup × ℚ
  | [], lastT, st => (st, lastT)
  | imu :: rest, lastT, st =>
      let t := stamp2Sec imu.stamp - s.latestEkfTime
      propImuBatch cfg s rest t (propImuOnce cfg s.pImu (t - lastT) st imu)

/-- `LIVMapper::imu_prop_callback`. -/
def imuPropCallback (cfg : Config) (s : LIVMapper) : LIVMapper :=
  if s.pImu.imuNeedInit ∨ s.newImu = false ∨ s.ekfFinishOnce = false then s
  else
    let s := { s with newImu := false }
    if cfg.imuPropEnable ∧ s.propImuBuffer ≠ [] then
      if s.stateUpdateFlg then
        let kept := s.propImuBuffer.dropWhile fun imu => stamp2Sec imu.stamp < s.latestEkfTime
        let (imuPropagate, lastT) := propImuBatch cfg s kept 0 s.latestEkfState
        { s with
          imuPropagate := imuPropagate, propImuBuffer := kept, lastTFromLidarEndTime := lastT
          stateUpdateFlg := false }
      else
        let t := stamp2Sec s.newestImu.stamp - s.latestEkfTime
        { s with
          imuPropagate := propImuOnce cfg s.pImu (t - s.lastTFromLidarEndTime) s.imuPropagate
            s.newestImu
          lastTFromLidarEndTime := t }
    else s

/-! ## What a callback changes -/

lemma dropOldest_eq {α : Type} (max : ℕ) (xs : List α) (ts : List ℚ) :
    dropOldest max xs ts = (xs.drop (xs.length - max), ts.drop (xs.length - max)) := by
  induction xs generalizing ts with
  | nil => simp [dropOldest]
  | cons x xs ih =>
      unfold dropOldest
      split_ifs with h
      · have hlen : (x :: xs).length - max = xs.length - max + 1 := by
          simp only [List.length_cons] at h ⊢
          omega
        rw [ih, hlen, List.drop_succ_cons, ← List.drop_one, List.drop_drop, Nat.add_comm]
      · have hlen : (x :: xs).length - max = 0 := by omega
        rw [hlen, List.drop_zero, List.drop_zero]

lemma clearLoopBack_eq (s : LIVMapper) (t : ℚ) : s.clearLoopBack t = { s with
    lidRawDataBuffer := if t < s.lastTimestampLidar then [] else s.lidRawDataBuffer } := by
  unfold clearLoopBack
  split_ifs <;> rfl

/-- No scan is lost to the loop-back branch by a message with the header time `t`. -/
def NoLoopBack (s : LIVMapper) (t : ℚ) : Prop := s.lastTimestampLidar ≤ t ∨ s.lidRawDataBuffer = []

instance (s : LIVMapper) (t : ℚ) : Decidable (s.NoLoopBack t) :=
  inferInstanceAs (Decidable (s.lastTimestampLidar ≤ t ∨ s.lidRawDataBuffer = []))

lemma NoLoopBack.clear {s : LIVMapper} {t : ℚ} (h : s.NoLoopBack t) : s.clearLoopBack t = s := by
  rw [clearLoopBack_eq]
  rcases h with h | h
  · rw [if_neg (not_lt.mpr h)]
  · rw [h, ite_self, ← h]

/-- The lidar callback gets as far as filing the message. -/
def FilesScan (cfg : Config) (driver : LidarDriver) (msg : LidarMsg) : Prop :=
  cfg.lidarEn = true ∧ ¬(driver = .livox ∧ msg.points = [])

instance (cfg : Config) (driver : LidarDriver) (msg : LidarMsg) :
    Decidable (FilesScan cfg driver msg) :=
  inferInstanceAs (Decidable (cfg.lidarEn = true ∧ ¬(driver = .livox ∧ msg.points = [])))

/-- **What a lidar callback does**: nothing, the loop-back branch alone, or it also files the
message as a new cloud. -/
theorem lidarCbk_cases (cfg : Config) (driver : LidarDriver) (s : LIVMapper) (msg : LidarMsg) :
    (cfg.lidarEn = false ∧ lidarCbk cfg driver s msg = s) ∨
    (¬FilesScan cfg driver msg ∧ cfg.lidarEn = true ∧
      lidarCbk cfg driver s msg = s.clearLoopBack (headTime cfg driver msg)) ∨
    (FilesScan cfg driver msg ∧ lidarCbk cfg driver s msg =
      (s.clearLoopBack (headTime cfg driver msg)).pushScan
        (s.newCloud driver msg (headTime cfg driver msg)) (headTime cfg driver msg)) := by
  unfold lidarCbk
  split_ifs with hen hempty
  · exact .inl ⟨by simpa using hen, rfl⟩
  · exact .inr (.inl ⟨fun h => h.2 hempty, by simpa using hen, rfl⟩)
  · refine .inr (.inr ⟨⟨by simpa using hen, hempty⟩, ?_⟩)
    simp only [clearLoopBack_eq, newCloud]

/-- Without a loop back, a lidar callback does nothing or files the message. -/
theorem lidarCbk_noLoopBack {cfg : Config} {driver : LidarDriver} {s : LIVMapper}
    {msg : LidarMsg} (h : cfg.lidarEn = true → s.NoLoopBack (headTime cfg driver msg)) :
    (¬FilesScan cfg driver msg ∧ lidarCbk cfg driver s msg = s) ∨
    (FilesScan cfg driver msg ∧ lidarCbk cfg driver s msg =
      s.pushScan (s.newCloud driver msg (headTime cfg driver msg)) (headTime cfg driver msg)) := by
  rcases lidarCbk_cases cfg driver s msg with ⟨hoff, heq⟩ | ⟨hskip, hen, heq⟩ | ⟨hfiles, heq⟩
  · exact .inl ⟨fun hfiles => absurd hfiles.1 (by simp [hoff]), heq⟩
  · exact .inl ⟨hskip, heq.trans (h hen).clear⟩
  · exact .inr ⟨hfiles, by rw [heq, (h hfiles.1).clear]⟩

lemma pushScan_lidRawDataBuffer (s : LIVMapper) (ptr : CloudPtr) (t : ℚ) :
    (s.pushScan ptr t).lidRawDataBuffer = (s.lidRawDataBuffer ++ [ptr]).drop
      (s.lidRawDataBuffer.length + 1 - maxLidarBuffer) := by
  simp [pushScan, dropOldest_eq]

lemma pushScan_lidHeaderTimeBuffer (s : LIVMapper) (ptr : CloudPtr) (t : ℚ) :
    (s.pushScan ptr t).lidHeaderTimeBuffer = (s.lidHeaderTimeBuffer ++ [t]).drop
      (s.lidRawDataBuffer.length + 1 - maxLidarBuffer) := by
  simp [pushScan, dropOldest_eq]

/-- `stamp2Sec` undoes `sec2Stamp` on whole nanoseconds. -/
lemma stamp2Sec_of_sec2Stamp {t : ℚ} {n : Stamp} {k : ℤ} (h : sec2Stamp t = .ok n)
    (ht : t * 1000000000 = k) : stamp2Sec n = t := by
  have hn := sec2Stamp_eq_ok h
  rw [ht, Int.floor_intCast] at hn
  have hcast : ((n : ℕ) : ℚ) = k := by exact_mod_cast hn
  rw [stamp2Sec, hcast, ← ht]
  field_simp

lemma imuTimestamp_whole {cfg : Config} {s : LIVMapper} {msg : Imu} {t : ℚ}
    (h : s.imuTimestamp cfg msg = .ok t) : ∃ k : ℤ, t * 1000000000 = k := by
  unfold imuTimestamp at h
  split at h
  · cases h
  · rename_i stamp _
    obtain rfl := Except.ok.inj h
    split_ifs
    · refine ⟨stamp + stdRound (s.lastTimestampLidar - stamp2Sec stamp) * 1000000000, ?_⟩
      simp only [stamp2Sec]
      push_cast
      field_simp
    · refine ⟨stamp, ?_⟩
      simp only [stamp2Sec]
      push_cast
      field_simp

/-- `imu_cbk` accepts the message: its time is in range and passes the gate. -/
def acceptsImu (cfg : Config) (s : LIVMapper) (msgIn : Imu) : Bool :=
  cfg.imuEn && (!decide (s.lastTimestampLidar < 0) &&
    match s.imuTimestamp cfg msgIn with
    | .error _ => false
    | .ok timestamp => s.imuPasses timestamp)

/-- **What `imu_cbk` does**: nothing, or it files an accepted message under the time that passed
the gate. -/
theorem imuCbk_cases {cfg : Config} {s s' : LIVMapper} {msg : Imu}
    (h : imuCbk cfg s msg = .ok s') :
    (s.acceptsImu cfg msg = false ∧ s' = s) ∨ (s.acceptsImu cfg msg = true ∧ ∃ stamp,
      cfg.imuEn = true ∧ s.imuTimestamp cfg msg = .ok (stamp2Sec stamp) ∧
        s.imuPasses (stamp2Sec stamp) = true ∧
        s' = s.pushImu cfg (stamp2Sec stamp) { msg with stamp := stamp }) := by
  unfold imuCbk at h
  unfold acceptsImu
  split_ifs at h with himu hlidar
  · have hdis : cfg.imuEn = false := by simpa using himu
    exact .inl ⟨by simp [hdis], (Except.ok.inj h).symm⟩
  · exact .inl ⟨by simp [hlidar], (Except.ok.inj h).symm⟩
  · have hen : cfg.imuEn = true := by simpa using himu
    split at h
    · cases h
    · rename_i t ht
      split at h
      · cases h
      · rename_i stamp hstamp
        obtain ⟨k, hk⟩ := imuTimestamp_whole ht
        obtain rfl := stamp2Sec_of_sec2Stamp hstamp hk
        split_ifs at h with hpass
        · refine .inr ⟨?_, stamp, hen, ht, hpass, (Except.ok.inj h).symm⟩
          simp [hen, hlidar, hpass]
        · refine .inl ⟨?_, (Except.ok.inj h).symm⟩
          simp [hpass]

/-- `img_cbk` accepts the message: the frame is one of those kept and passes the gates. -/
def acceptsImg (cfg : Config) (s : LIVMapper) (msg : Image) : Bool :=
  cfg.imgEn && (!(cfg.hiltiEn && decide ((s.frameCounter + 1) % 4 ≠ 0)) &&
    s.imgPasses (imgTime cfg msg))

/-- **What `img_cbk` does**: at most count the frame, or file an accepted image as the only one
buffered. -/
theorem imgCbk_cases (cfg : Config) (s : LIVMapper) (msg : Image) :
    (s.acceptsImg cfg msg = false ∧ ∃ n, imgCbk cfg s msg = { s with frameCounter := n }) ∨
      (s.acceptsImg cfg msg = true ∧ ∃ n, imgCbk cfg s msg =
        { s with frameCounter := n }.pushImg (getImageFromMsg cfg msg) (imgTime cfg msg)) := by
  unfold imgCbk acceptsImg countFrame
  cases cfg.imgEn with
  | false => exact .inl ⟨rfl, s.frameCounter, rfl⟩
  | true =>
      cases cfg.hiltiEn with
      | false =>
          simp only [Bool.not_true, Bool.false_eq_true, if_false, false_and, Bool.false_and,
            Bool.not_false, Bool.true_and]
          split_ifs with hpass
          · exact .inr ⟨hpass, s.frameCounter, rfl⟩
          · exact .inl ⟨by simpa using hpass, s.frameCounter, rfl⟩
      | true =>
          simp only [Bool.not_true, Bool.false_eq_true, if_false, if_true, true_and, Bool.true_and]
          split_ifs with hskip hpass
          · exact .inl ⟨by simp [hskip], _, rfl⟩
          · exact .inr ⟨by rw [decide_eq_false hskip]; exact hpass, _, rfl⟩
          · refine .inl ⟨?_, _, rfl⟩
            rw [decide_eq_false hskip]
            exact Bool.eq_false_iff.mpr hpass

lemma pushImg_imgBuffer {s : LIVMapper} {img : Mat} {t : ℚ} :
    (s.pushImg img t).imgBuffer = [img] := by
  simp [pushImg, dropOldest_eq]

lemma pushImg_imgTimeBuffer {s : LIVMapper} (img : Mat) (t : ℚ)
    (h : s.imgBuffer.length = s.imgTimeBuffer.length) :
    (s.pushImg img t).imgTimeBuffer = [t] := by
  simp [pushImg, dropOldest_eq, h]

end LIVMapper

end FastLivo2
