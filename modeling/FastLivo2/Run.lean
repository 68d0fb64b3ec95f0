import FastLivo2.SyncPackages
import FastLivo2.Lib.Exec

/-!
# The run loop

`LIVMapper::run` alternates `spin_some`, which runs any number of callbacks, with one pass of
its body: `sync_packages`, and when that hands out a measurement group, the processing of the
group.  Here every callback and every pass is one event, so a run of the node is any sequence
of events, and "for every interleaving" is "for every run".

A pass in which a group is handed out shows the node as `sync_packages` left it.  What the two
estimators compute from the group is part of the event: it reaches the filter state and the
published cloud, and no decision of `sync_packages` or of a callback.
-/

namespace FastLivo2

/-- What the estimator of a pass computes: the corrected state, and the registered cloud. -/
structure Estimate where
  state : StatesGroup := {}
  world : PointCloudXYZI := []

/-- What drives the node: a message or the timer, or one pass of the loop. -/
inductive Event
  | pclCbk (driver : LidarDriver) (msg : LidarMsg)
  | imuCbk (msg : Imu)
  | imgCbk (msg : Image)
  | imuPropCallback
  | pass (est : Estimate)

/-- A scan stamped in milliseconds. -/
def Event.scanAt (driver : LidarDriver) (ms : ℕ) (points : PointCloudXYZI) : Event :=
  .pclCbk driver ⟨ms * 1000000, points⟩

/-- An IMU message stamped in milliseconds. -/
def Event.imuAt (ms : ℕ) : Event := .imuCbk { stamp := ms * 1000000 }

/-- An image stamped in milliseconds. -/
def Event.imgAt (ms : ℕ) : Event := .imgCbk { stamp := ms * 1000000 }

/-- The lidar message of an event, with its driver. -/
def Event.lidarMsg : Event → Option (LidarDriver × LidarMsg)
  | .pclCbk driver msg => some (driver, msg)
  | _ => none

/-- The IMU message of an event. -/
def Event.imuMsg : Event → Option Imu
  | .imuCbk msg => some msg
  | _ => none

/-- The image of an event. -/
def Event.imgMsg : Event → Option Image
  | .imgCbk msg => some msg
  | _ => none

/-- The event is a pass of the loop. -/
def Event.isPass : Event → Bool
  | .pass _ => true
  | _ => false

lemma Event.lidarMsg_eq_some {ev : Event} {driver : LidarDriver} {msg : LidarMsg} :
    ev.lidarMsg = some (driver, msg) ↔ ev = .pclCbk driver msg := by
  cases ev <;> simp [Event.lidarMsg]

lemma Event.imgMsg_eq_some {ev : Event} {msg : Image} :
    ev.imgMsg = some msg ↔ ev = .imgCbk msg := by
  cases ev <;> simp [Event.imgMsg]

namespace LIVMapper

/-! ## One pass -/

/-- `LIVMapper::handleFirstFrame`. -/
def handleFirstFrame (s : LIVMapper) : LIVMapper :=
  if s.isFirstFrame then s
  else { s with
    firstLidarTime := s.lidarMeasures.lastLioUpdateTime
    pImu := { s.pImu with firstLidarTime := s.lidarMeasures.lastLioUpdateTime }
    isFirstFrame := true }

/-- `LIVMapper::gravityAlignment`. -/
def gravityAlignment (cfg : Config) (s : LIVMapper) : LIVMapper :=
  if s.pImu.imuNeedInit = false ∧ s.gravityAlignFinished = false then
    let R := cfg.gravityRotation s.state.gravity
    { s with
      gravityAlignFinished := true
      state := { s.state with
        posEnd := R.mulVec s.state.posEnd
        rotEnd := R * s.state.rotEnd
        velEnd := R.mulVec s.state.velEnd
        gravity := R.mulVec s.state.gravity } }
  else s

/-- `LIVMapper::processImu`. -/
def processImu (cfg : Config) (s : LIVMapper) : Except Fault LIVMapper :=
  match s.pImu.process2 cfg.libm s.lidarMeasures s.state s.featsUndistort with
  | .error f => .error f
  | .ok r =>
      let s := { s with
        pImu := r.imu, lidarMeasures := r.meas, state := r.stat, featsUndistort := r.pcl }
      let s := if cfg.gravityAlignEn then s.gravityAlignment cfg else s
      .ok { s with statePropagat := s.state }

/-- The flags `imu_prop_callback` waits for, set after each update. -/
def finishUpdate (cfg : Config) (s : LIVMapper) : LIVMapper :=
  if cfg.imuPropEnable then
    { s with
      ekfFinishOnce := true
      latestEkfState := s.state
      latestEkfTime := s.lidarMeasures.lastLioUpdateTime
      stateUpdateFlg := true }
  else s

/-- `LIVMapper::handleLIO`, as far as the node keeps its results. -/
def handleLIO (cfg : Config) (s : LIVMapper) (est : Estimate) : LIVMapper :=
  if s.featsUndistort = [] then s
  else { { s with state := est.state }.finishUpdate cfg with pclWWaitPub := est.world }

/-- `LIVMapper::handleVIO`, as far as the node keeps its results. -/
def handleVIO (cfg : Config) (s : LIVMapper) (est : Estimate) : LIVMapper :=
  if s.pclWWaitPub = [] then s
  else { { s with state := est.state }.finishUpdate cfg with pclWWaitPub := [] }

/-- `LIVMapper::stateEstimationAndMapping`. -/
def stateEstimationAndMapping (cfg : Config) (s : LIVMapper) (est : Estimate) : LIVMapper :=
  match s.lidarMeasures.lioVioFlg with
  | .vio => s.handleVIO cfg est
  | .lio => s.handleLIO cfg est
  | .lo => s.handleLIO cfg est
  | .wait => s

/-- One pass of the loop in `LIVMapper::run`, after `spin_some`.  It shows the node as
`sync_packages` left it when a group was handed out. -/
def pass (cfg : Config) (s : LIVMapper) (est : Estimate) :
    Except Fault (LIVMapper × Option LIVMapper) :=
  match s.syncPackages cfg with
  | .error f => .error f
  | .ok (false, s) => .ok (s, none)
  | .ok (true, s) =>
      match s.handleFirstFrame.processImu cfg with
      | .error f => .error f
      | .ok t => .ok (t.stateEstimationAndMapping cfg est, some s)

/-- The node takes an event. -/
def step (cfg : Config) (s : LIVMapper) : Event → Except Fault (LIVMapper × Option LIVMapper)
  | .pclCbk .standard msg => .ok (standardPclCbk cfg s msg, none)
  | .pclCbk .livox msg => .ok (livoxPclCbk cfg s msg, none)
  | .imuCbk msg =>
      match imuCbk cfg s msg with
      | .error f => .error f
      | .ok s => .ok (s, none)
  | .imgCbk msg => .ok (imgCbk cfg s msg, none)
  | .imuPropCallback => .ok (imuPropCallback cfg s, none)
  | .pass est => s.pass cfg est

/-! ## What the processing of a group changes -/

/-- The buffers, the latest stamps and the latch: what a callback or `sync_packages` reads besides
the bundle and the IMU process. -/
structure Buffers where
  raw : List CloudPtr
  header : List ℚ
  imu : List Imu
  img : List Mat
  imgTime : List ℚ
  lastLidar : ℚ
  lastImu : ℚ
  lastImg : ℚ
  frameCounter : ℕ
  pushed : Bool
  allocated : ℕ

def buffers (s : LIVMapper) : Buffers where
  raw := s.lidRawDataBuffer
  header := s.lidHeaderTimeBuffer
  imu := s.imuBuffer
  img := s.imgBuffer
  imgTime := s.imgTimeBuffer
  lastLidar := s.lastTimestampLidar
  lastImu := s.lastTimestampImu
  lastImg := s.lastTimestampImg
  frameCounter := s.frameCounter
  pushed := s.lidarPushed
  allocated := s.allocated

/-- The buffers are the same. -/
def SameBuffers (s t : LIVMapper) : Prop := t.buffers = s.buffers

namespace SameBuffers

variable {s t : LIVMapper}

lemma raw (h : SameBuffers s t) : t.lidRawDataBuffer = s.lidRawDataBuffer :=
  congrArg Buffers.raw h

lemma header (h : SameBuffers s t) : t.lidHeaderTimeBuffer = s.lidHeaderTimeBuffer :=
  congrArg Buffers.header h

lemma imu (h : SameBuffers s t) : t.imuBuffer = s.imuBuffer := congrArg Buffers.imu h

lemma img (h : SameBuffers s t) : t.imgBuffer = s.imgBuffer := congrArg Buffers.img h

lemma imgTime (h : SameBuffers s t) : t.imgTimeBuffer = s.imgTimeBuffer :=
  congrArg Buffers.imgTime h

lemma lastLidar (h : SameBuffers s t) : t.lastTimestampLidar = s.lastTimestampLidar :=
  congrArg Buffers.lastLidar h

lemma lastImu (h : SameBuffers s t) : t.lastTimestampImu = s.lastTimestampImu :=
  congrArg Buffers.lastImu h

lemma lastImg (h : SameBuffers s t) : t.lastTimestampImg = s.lastTimestampImg :=
  congrArg Buffers.lastImg h

lemma frameCounter (h : SameBuffers s t) : t.frameCounter = s.frameCounter :=
  congrArg Buffers.frameCounter h

lemma pushed (h : SameBuffers s t) : t.lidarPushed = s.lidarPushed := congrArg Buffers.pushed h

lemma allocated (h : SameBuffers s t) : t.allocated = s.allocated := congrArg Buffers.allocated h

end SameBuffers

/-- From `s`, as `sync_packages` left it, the rest of the pass leads to `t`. -/
structure Handled (s t : LIVMapper) : Prop where
  buffers : SameBuffers s t
  imu : ImuProcess.Propagates s.pImu s.lidarMeasures t.pImu t.lidarMeasures

/-- Whatever the IMU process does, the group stays the same up to its update time. -/
lemma Handled.group {s t : LIVMapper} (h : Handled s t) :
    ImuProcess.SameGroup s.lidarMeasures t.lidarMeasures := by
  cases h.imu with
  | noImu _ _ group => exact group
  | init _ _ _ group => exact group ▸ .refl _
  | undistort _ _ _ _ group => exact group

lemma gravityAlignment_frame (cfg : Config) (s : LIVMapper) :
    SameBuffers s (s.gravityAlignment cfg) ∧ (s.gravityAlignment cfg).pImu = s.pImu ∧
      (s.gravityAlignment cfg).lidarMeasures = s.lidarMeasures := by
  unfold gravityAlignment
  split_ifs <;> exact ⟨rfl, rfl, rfl⟩

lemma finishUpdate_frame (cfg : Config) (s : LIVMapper) :
    SameBuffers s (s.finishUpdate cfg) ∧ (s.finishUpdate cfg).pImu = s.pImu ∧
      (s.finishUpdate cfg).lidarMeasures = s.lidarMeasures := by
  unfold finishUpdate
  split_ifs <;> exact ⟨rfl, rfl, rfl⟩

lemma stateEstimationAndMapping_frame (cfg : Config) (s : LIVMapper) (est : Estimate) :
    SameBuffers s (s.stateEstimationAndMapping cfg est) ∧
      (s.stateEstimationAndMapping cfg est).pImu = s.pImu ∧
      (s.stateEstimationAndMapping cfg est).lidarMeasures = s.lidarMeasures := by
  have hfinish := finishUpdate_frame cfg { s with state := est.state }
  have hlio : SameBuffers s (s.handleLIO cfg est) ∧ (s.handleLIO cfg est).pImu = s.pImu ∧
      (s.handleLIO cfg est).lidarMeasures = s.lidarMeasures := by
    unfold handleLIO
    split_ifs
    · exact ⟨rfl, rfl, rfl⟩
    · exact hfinish
  have hvio : SameBuffers s (s.handleVIO cfg est) ∧ (s.handleVIO cfg est).pImu = s.pImu ∧
      (s.handleVIO cfg est).lidarMeasures = s.lidarMeasures := by
    unfold handleVIO
    split_ifs
    · exact ⟨rfl, rfl, rfl⟩
    · exact hfinish
  unfold stateEstimationAndMapping
  split
  · exact hvio
  · exact hlio
  · exact hlio
  · exact ⟨rfl, rfl, rfl⟩

lemma processImu_eq_ok {cfg : Config} {s t : LIVMapper} (h : s.processImu cfg = .ok t) :
    SameBuffers s t ∧
      ImuProcess.Propagates s.pImu s.lidarMeasures t.pImu t.lidarMeasures := by
  unfold processImu at h
  split at h
  · cases h
  · rename_i r hr
    have hprop := ImuProcess.process2_propagates hr
    obtain rfl := Except.ok.inj h
    split_ifs
    · obtain ⟨hbuf, himu, hmeas⟩ := gravityAlignment_frame cfg { s with
        pImu := r.imu, lidarMeasures := r.meas, state := r.stat, featsUndistort := r.pcl }
      refine ⟨hbuf, ?_⟩
      rw [himu, hmeas]
      exact hprop
    · exact ⟨rfl, hprop⟩

lemma handled_of_processImu {cfg : Config} {s t : LIVMapper}
    (h : s.handleFirstFrame.processImu cfg = .ok t) (est : Estimate) :
    Handled s (t.stateEstimationAndMapping cfg est) := by
  obtain ⟨hbuf, himu, hmeas⟩ := stateEstimationAndMapping_frame cfg t est
  obtain ⟨hprocess, hprop⟩ := processImu_eq_ok h
  unfold handleFirstFrame at hprocess hprop
  split_ifs at hprocess hprop
  · exact ⟨hbuf.trans hprocess, by rwa [himu, hmeas]⟩
  · refine ⟨hbuf.trans hprocess, ?_⟩
    rw [himu, hmeas]
    -- only the log time of the process was set, which `Process2` does not read
    cases hprop with
    | noImu en en' group => exact .noImu en en' group
    | init en en' needs group last done => exact .init en en' needs group last done
    | undistort en en' needs needs' group update last =>
        exact .undistort en en' needs needs' group update last

/-! ## What an event does -/

/-- The ways the node takes an event: what it shows and the node it leaves. -/
inductive Steps (cfg : Config) (s : LIVMapper) : Event → Option LIVMapper → LIVMapper → Prop
  | pclCbk (driver : LidarDriver) (msg : LidarMsg) :
      Steps cfg s (.pclCbk driver msg) none (lidarCbk cfg driver s msg)
  | imuCbk {msg : Imu} {t : LIVMapper} (cbk : imuCbk cfg s msg = .ok t) :
      Steps cfg s (.imuCbk msg) none t
  | imgCbk (msg : Image) : Steps cfg s (.imgCbk msg) none (imgCbk cfg s msg)
  | imuPropCallback : Steps cfg s .imuPropCallback none (imuPropCallback cfg s)
  | idle {est : Estimate} {t : LIVMapper} (sync : s.syncPackages cfg = .ok (false, t)) :
      Steps cfg s (.pass est) none t
  | group {est : Estimate} {g t : LIVMapper} (sync : s.syncPackages cfg = .ok (true, g))
      (handled : Handled g t) : Steps cfg s (.pass est) (some g) t

/-- **What an event does.** -/
theorem steps_of_step {cfg : Config} {s t : LIVMapper} {ev : Event} {obs : Option LIVMapper}
    (h : s.step cfg ev = .ok (t, obs)) : Steps cfg s ev obs t := by
  cases ev with
  | pclCbk driver msg =>
      cases driver with
      | standard =>
          obtain ⟨rfl, rfl⟩ := Prod.mk.inj (Except.ok.inj h)
          exact .pclCbk .standard msg
      | livox =>
          obtain ⟨rfl, rfl⟩ := Prod.mk.inj (Except.ok.inj h)
          exact .pclCbk .livox msg
  | imuCbk msg =>
      simp only [step] at h
      split at h
      · cases h
      · obtain ⟨rfl, rfl⟩ := Prod.mk.inj (Except.ok.inj h)
        exact .imuCbk ‹_›
  | imgCbk msg =>
      obtain ⟨rfl, rfl⟩ := Prod.mk.inj (Except.ok.inj h)
      exact .imgCbk msg
  | imuPropCallback =>
      obtain ⟨rfl, rfl⟩ := Prod.mk.inj (Except.ok.inj h)
      exact .imuPropCallback
  | pass est =>
      simp only [step, pass] at h
      split at h
      · cases h
      · obtain ⟨rfl, rfl⟩ := Prod.mk.inj (Except.ok.inj h)
        exact .idle ‹_›
      · split at h
        · cases h
        · rename_i hsync _ _ hprocess
          obtain ⟨rfl, rfl⟩ := Prod.mk.inj (Except.ok.inj h)
          exact .group hsync (handled_of_processImu hprocess est)

lemma Steps.of_pclCbk {cfg : Config} {s t : LIVMapper} {driver : LidarDriver} {msg : LidarMsg}
    {obs : Option LIVMapper} (h : Steps cfg s (.pclCbk driver msg) obs t) :
    t = lidarCbk cfg driver s msg := by
  cases h
  rfl

lemma Steps.of_imuCbk {cfg : Config} {s t : LIVMapper} {msg : Imu} {obs : Option LIVMapper}
    (h : Steps cfg s (.imuCbk msg) obs t) : LIVMapper.imuCbk cfg s msg = .ok t := by
  cases h
  assumption

lemma Steps.of_imgCbk {cfg : Config} {s t : LIVMapper} {msg : Image} {obs : Option LIVMapper}
    (h : Steps cfg s (.imgCbk msg) obs t) : t = LIVMapper.imgCbk cfg s msg := by
  cases h
  rfl

lemma Steps.of_group {cfg : Config} {s t g : LIVMapper} {ev : Event}
    (h : Steps cfg s ev (some g) t) :
    ∃ est, ev = .pass est ∧ s.syncPackages cfg = .ok (true, g) ∧ Handled g t := by
  cases h with
  | group sync handled => exact ⟨_, rfl, sync, handled⟩

/-- The IMU-rate odometry touches no buffer, stamp or measurement. -/
lemma imuPropCallback_frame (cfg : Config) (s : LIVMapper) :
    SameBuffers s (imuPropCallback cfg s) ∧ (imuPropCallback cfg s).pImu = s.pImu ∧
      (imuPropCallback cfg s).lidarMeasures = s.lidarMeasures := by
  unfold imuPropCallback
  dsimp only
  split_ifs <;> exact ⟨rfl, rfl, rfl⟩

/-- What a lidar callback leaves alone. -/
structure LidarFrame (s t : LIVMapper) : Prop where
  meas : t.lidarMeasures = s.lidarMeasures
  pImu : t.pImu = s.pImu
  pushed : t.lidarPushed = s.lidarPushed
  imu : t.imuBuffer = s.imuBuffer
  img : t.imgBuffer = s.imgBuffer
  imgTime : t.imgTimeBuffer = s.imgTimeBuffer
  lastImu : t.lastTimestampImu = s.lastTimestampImu
  lastImg : t.lastTimestampImg = s.lastTimestampImg
  frameCounter : t.frameCounter = s.frameCounter

/-- What `imu_cbk` leaves alone. -/
structure ImuFrame (s t : LIVMapper) : Prop where
  meas : t.lidarMeasures = s.lidarMeasures
  pImu : t.pImu = s.pImu
  pushed : t.lidarPushed = s.lidarPushed
  raw : t.lidRawDataBuffer = s.lidRawDataBuffer
  header : t.lidHeaderTimeBuffer = s.lidHeaderTimeBuffer
  img : t.imgBuffer = s.imgBuffer
  imgTime : t.imgTimeBuffer = s.imgTimeBuffer
  lastLidar : t.lastTimestampLidar = s.lastTimestampLidar
  lastImg : t.lastTimestampImg = s.lastTimestampImg
  frameCounter : t.frameCounter = s.frameCounter
  allocated : t.allocated = s.allocated

/-- What `img_cbk` leaves alone. -/
structure ImgFrame (s t : LIVMapper) : Prop where
  meas : t.lidarMeasures = s.lidarMeasures
  pImu : t.pImu = s.pImu
  pushed : t.lidarPushed = s.lidarPushed
  raw : t.lidRawDataBuffer = s.lidRawDataBuffer
  header : t.lidHeaderTimeBuffer = s.lidHeaderTimeBuffer
  imu : t.imuBuffer = s.imuBuffer
  lastLidar : t.lastTimestampLidar = s.lastTimestampLidar
  lastImu : t.lastTimestampImu = s.lastTimestampImu
  allocated : t.allocated = s.allocated

lemma lidarCbk_frame (cfg : Config) (driver : LidarDriver) (s : LIVMapper) (msg : LidarMsg) :
    LidarFrame s (lidarCbk cfg driver s msg) := by
  rcases lidarCbk_cases cfg driver s msg with ⟨-, heq⟩ | ⟨-, -, heq⟩ | ⟨-, heq⟩
  · rw [heq]
    exact ⟨rfl, rfl, rfl, rfl, rfl, rfl, rfl, rfl, rfl⟩
  · rw [heq, clearLoopBack_eq]
    exact ⟨rfl, rfl, rfl, rfl, rfl, rfl, rfl, rfl, rfl⟩
  · rw [heq, clearLoopBack_eq]
    exact ⟨rfl, rfl, rfl, rfl, rfl, rfl, rfl, rfl, rfl⟩

lemma imuCbk_frame {cfg : Config} {s t : LIVMapper} {msg : Imu}
    (h : LIVMapper.imuCbk cfg s msg = .ok t) : ImuFrame s t := by
  rcases imuCbk_cases h with ⟨-, rfl⟩ | ⟨-, stamp, -, -, -, rfl⟩
  · exact ⟨rfl, rfl, rfl, rfl, rfl, rfl, rfl, rfl, rfl, rfl, rfl⟩
  · exact ⟨rfl, rfl, rfl, rfl, rfl, rfl, rfl, rfl, rfl, rfl, rfl⟩

lemma imgCbk_frame (cfg : Config) (s : LIVMapper) (msg : Image) :
    ImgFrame s (imgCbk cfg s msg) := by
  rcases imgCbk_cases cfg s msg with ⟨-, n, heq⟩ | ⟨-, n, heq⟩
  · rw [heq]
    exact ⟨rfl, rfl, rfl, rfl, rfl, rfl, rfl, rfl, rfl⟩
  · rw [heq]
    exact ⟨rfl, rfl, rfl, rfl, rfl, rfl, rfl, rfl, rfl⟩

/-- Only a lidar callback files a scan or moves the stamp of the last one. -/
lemma Steps.lidar {cfg : Config} {s t : LIVMapper} {ev : Event} {obs : Option LIVMapper}
    (h : Steps cfg s ev obs t) (hev : ev.lidarMsg = none) :
    t.lidRawDataBuffer <:+ s.lidRawDataBuffer ∧ t.lastTimestampLidar = s.lastTimestampLidar := by
  have hsync : ∀ {b : Bool} {u : LIVMapper}, s.syncPackages cfg = .ok (b, u) →
      u.lidRawDataBuffer <:+ s.lidRawDataBuffer ∧
        u.lastTimestampLidar = s.lastTimestampLidar := by
    intro b u hsync
    have hframe := syncPackages_frame hsync
    obtain ⟨taken, hraw, -⟩ := hframe.pops
    exact ⟨⟨taken.map Prod.fst, hraw.symm⟩, hframe.lastLidar⟩
  cases h with
  | pclCbk driver msg => cases hev
  | imuCbk cbk =>
      have hframe := imuCbk_frame cbk
      exact ⟨hframe.raw ▸ List.suffix_rfl, hframe.lastLidar⟩
  | imgCbk msg =>
      have hframe := imgCbk_frame cfg s msg
      exact ⟨hframe.raw ▸ List.suffix_rfl, hframe.lastLidar⟩
  | imuPropCallback =>
      have hframe := (imuPropCallback_frame cfg s).1
      exact ⟨hframe.raw ▸ List.suffix_rfl, hframe.lastLidar⟩
  | idle sync => exact hsync sync
  | group sync handled =>
      rw [handled.buffers.raw, handled.buffers.lastLidar]
      exact hsync sync

/-- Only the processing of a group touches the IMU process. -/
lemma Steps.pImu {cfg : Config} {s t : LIVMapper} {ev : Event} (h : Steps cfg s ev none t) :
    t.pImu = s.pImu := by
  cases h with
  | pclCbk driver msg => exact (lidarCbk_frame cfg driver s msg).pImu
  | imuCbk cbk => exact (imuCbk_frame cbk).pImu
  | imgCbk msg => exact (imgCbk_frame cfg s msg).pImu
  | imuPropCallback => exact (imuPropCallback_frame cfg s).2.1
  | idle sync => exact (syncPackages_frame sync).pImu

end LIVMapper

/-! ## Runs -/

/-- A turn of the node. -/
abbrev NodeTurn := Turn LIVMapper Event (Option LIVMapper)

/-- A run of the node, from its start, through the turns `tr`. -/
abbrev NodeRun (cfg : Config) (tr : List NodeTurn) (t : LIVMapper) : Prop :=
  Exec (LIVMapper.step cfg) cfg.initial tr t

lemma Turn.Taken.steps {cfg : Config} {x : NodeTurn} (h : x.Taken (LIVMapper.step cfg)) :
    LIVMapper.Steps cfg x.pre x.event x.obs x.post :=
  LIVMapper.steps_of_step h

/-- The invariant rule with the step taken apart. -/
lemma NodeRun.invariant {cfg : Config} {tr : List NodeTurn} {t : LIVMapper}
    {I : LIVMapper → Prop} {C : NodeTurn → Prop} (h : NodeRun cfg tr t) (hC : ∀ x ∈ tr, C x)
    (h₀ : I cfg.initial)
    (hstep : ∀ (s : LIVMapper) (ev : Event) (obs : Option LIVMapper) (u : LIVMapper),
      LIVMapper.Steps cfg s ev obs u → C ⟨s, ev, obs, u⟩ → I s → I u) :
    I t ∧ ∀ x ∈ tr, I x.pre ∧ I x.post :=
  Exec.invariant h₀ (fun x hx => hstep x.pre x.event x.obs x.post hx.steps) h hC

/-- The history rule with the step taken apart. -/
lemma NodeRun.history {cfg : Config} {tr : List NodeTurn} {t : LIVMapper}
    {P : List NodeTurn → LIVMapper → Prop} {C : NodeTurn → Prop} (h : NodeRun cfg tr t)
    (hC : ∀ x ∈ tr, C x) (h₀ : P [] cfg.initial)
    (hstep : ∀ (tr : List NodeTurn) (s : LIVMapper) (ev : Event) (obs : Option LIVMapper)
      (u : LIVMapper), LIVMapper.Steps cfg s ev obs u → C ⟨s, ev, obs, u⟩ → P tr s →
      P (tr ++ [⟨s, ev, obs, u⟩]) u) : P tr t :=
  Exec.history h₀ (fun tr x _ hx => hstep tr x.pre x.event x.obs x.post hx.steps) h hC

/-- The conservation rule with the step taken apart. -/
lemma NodeRun.conservation {α : Type} {cfg : Config} {tr : List NodeTurn} {t : LIVMapper}
    (queue : LIVMapper → List α) (gained lost : NodeTurn → List α) {C : NodeTurn → Prop}
    (h : NodeRun cfg tr t) (hC : ∀ x ∈ tr, C x)
    (hstep : ∀ (s : LIVMapper) (ev : Event) (obs : Option LIVMapper) (u : LIVMapper),
      LIVMapper.Steps cfg s ev obs u → C ⟨s, ev, obs, u⟩ →
      queue s ++ gained ⟨s, ev, obs, u⟩ = lost ⟨s, ev, obs, u⟩ ++ queue u) :
    queue cfg.initial ++ tr.flatMap gained = tr.flatMap lost ++ queue t :=
  Exec.conservation (fun x hx => hstep x.pre x.event x.obs x.post hx.steps) h hC

/-- Every buffered cloud has the property `P`. -/
def LIVMapper.AllScans (P : CloudPtr → Prop) (s : LIVMapper) : Prop :=
  ∀ ptr ∈ s.lidRawDataBuffer, P ptr

lemma LIVMapper.AllScans.lidarCbk {cfg : Config} {s : LIVMapper} {P : CloudPtr → Prop}
    {driver : LidarDriver} {msg : LidarMsg} (h : s.AllScans P)
    (hnew : FilesScan cfg driver msg → P (s.newCloud driver msg (headTime cfg driver msg))) :
    (LIVMapper.lidarCbk cfg driver s msg).AllScans P := by
  have hclear : (s.clearLoopBack (headTime cfg driver msg)).AllScans P := by
    rw [clearLoopBack_eq]
    intro ptr hptr
    change ptr ∈ (if _ then _ else _ : List CloudPtr) at hptr
    split_ifs at hptr
    · cases hptr
    · exact h ptr hptr
  rcases lidarCbk_cases cfg driver s msg with ⟨-, heq⟩ | ⟨-, -, heq⟩ | ⟨hfiles, heq⟩
  · rwa [heq]
  · rwa [heq]
  · rw [heq]
    intro ptr hptr
    rw [pushScan_lidRawDataBuffer] at hptr
    rcases List.mem_append.mp (List.mem_of_mem_drop hptr) with hold | hfresh
    · exact hclear ptr hold
    · rw [List.mem_singleton.mp hfresh]
      exact hnew hfiles

lemma LIVMapper.AllScans.sync {cfg : Config} {s t : LIVMapper} {P : CloudPtr → Prop} {b : Bool}
    (h : s.AllScans P) (hsync : s.syncPackages cfg = .ok (b, t)) : t.AllScans P := by
  obtain ⟨taken, hraw, -⟩ := (syncPackages_frame hsync).pops
  intro ptr hptr
  refine h ptr ?_
  rw [hraw]
  exact List.mem_append_right _ hptr

/-- A property of every cloud filed is one of every cloud buffered. -/
lemma NodeRun.allScans {cfg : Config} {tr : List NodeTurn} {t : LIVMapper} {P : CloudPtr → Prop}
    {C : NodeTurn → Prop} (h : NodeRun cfg tr t) (hC : ∀ x ∈ tr, C x)
    (hnew : ∀ (s : LIVMapper) (driver : LidarDriver) (msg : LidarMsg) (obs : Option LIVMapper)
      (u : LIVMapper), C ⟨s, .pclCbk driver msg, obs, u⟩ → LIVMapper.FilesScan cfg driver msg →
      P (s.newCloud driver msg (LIVMapper.headTime cfg driver msg))) :
    t.AllScans P ∧ ∀ x ∈ tr, x.pre.AllScans P ∧ x.post.AllScans P := by
  refine h.invariant (I := fun s => s.AllScans P) hC
    (by simp [LIVMapper.AllScans, Config.initial]) ?_
  intro s ev obs t hsteps hc hpre
  cases hsteps with
  | pclCbk driver msg => exact hpre.lidarCbk (hnew s driver msg _ _ hc)
  | imuCbk cbk =>
      rw [LIVMapper.AllScans, (LIVMapper.imuCbk_frame cbk).raw]
      exact hpre
  | imgCbk msg =>
      rw [LIVMapper.AllScans, (LIVMapper.imgCbk_frame cfg s msg).raw]
      exact hpre
  | imuPropCallback =>
      rw [LIVMapper.AllScans, (LIVMapper.imuPropCallback_frame cfg s).1.raw]
      exact hpre
  | idle sync => exact hpre.sync sync
  | group sync handled =>
      rw [LIVMapper.AllScans, handled.buffers.raw]
      exact hpre.sync sync

/-- The IMU stays enabled, or disabled, throughout. -/
lemma imuEn_of_run {cfg : Config} {tr : List NodeTurn} {t : LIVMapper} (h : NodeRun cfg tr t) :
    t.pImu.imuEn = cfg.imuEn ∧
      ∀ x ∈ tr, x.pre.pImu.imuEn = cfg.imuEn ∧ x.post.pImu.imuEn = cfg.imuEn := by
  refine h.invariant (I := fun s => s.pImu.imuEn = cfg.imuEn) (C := fun _ => True)
    (fun _ _ => trivial) rfl ?_
  intro s ev obs t hsteps _ hpre
  cases hsteps with
  | group sync handled =>
      have hsame := (LIVMapper.syncPackages_frame sync).pImu
      rw [← hsame] at hpre
      cases handled.imu with
      | noImu en en' => rw [en', ← en, hpre]
      | init en en' => rw [en', ← en, hpre]
      | undistort en en' => rw [en', ← en, hpre]
  | pclCbk driver msg => rw [(LIVMapper.lidarCbk_frame cfg driver s msg).pImu, hpre]
  | imuCbk cbk => rw [(LIVMapper.imuCbk_frame cbk).pImu, hpre]
  | imgCbk msg => rw [(LIVMapper.imgCbk_frame cfg s msg).pImu, hpre]
  | imuPropCallback => rw [(LIVMapper.imuPropCallback_frame cfg s).2.1, hpre]
  | idle sync => rw [(LIVMapper.syncPackages_frame sync).pImu, hpre]

/-- The run of the node through the given events, as far as it goes. -/
abbrev nodeTrace (cfg : Config) (es : List Event) : List NodeTurn × LIVMapper :=
  trace (LIVMapper.step cfg) es cfg.initial

lemma nodeRun_nodeTrace (cfg : Config) (es : List Event) :
    NodeRun cfg (nodeTrace cfg es).1 (nodeTrace cfg es).2 :=
  Exec.of_trace es cfg.initial

/-- The groups handed out in a run: the node as `sync_packages` left it each time. -/
def groups (tr : List NodeTurn) : List LIVMapper := tr.filterMap Turn.obs

lemma groups_snoc (tr : List NodeTurn) (x : NodeTurn) :
    groups (tr ++ [x]) = groups tr ++ x.obs.toList := by
  rw [groups, groups, List.filterMap_append]
  cases h : x.obs <;> simp [h]

end FastLivo2
