import FastLivo2.StampFilters
import FastLivo2.ImuSlices
import FastLivo2.Lib.Replay

/-!
# The IMU-rate odometry

`imu_prop_callback` publishes a state that is to run ahead of the filter: the state of the last
update, `latest_ekf_state`, advanced through the samples that have come since, at the rate of the
IMU.  The first tick after an update replays the samples it has buffered.  The ticks that follow
advance the published state by `newest_imu` alone.

So the replay sees every sample, and a tick that follows sees the last one that came.  As long as
each of these ticks finds exactly one sample that the tick before it has not seen, and none from
before the update, the two agree (`odometry_of_run`).  Two samples between two ticks, and the first
of them is lost to the odometry until the next update.
-/

namespace FastLivo2

namespace LIVMapper

/-! ## What the odometry is for -/

/-- The callback gets as far as publishing. -/
def Publishes (cfg : Config) (s : LIVMapper) : Prop :=
  (s.pImu.imuNeedInit = false ∧ s.newImu = true ∧ s.ekfFinishOnce = true) ∧
    cfg.imuPropEnable = true ∧ s.propImuBuffer ≠ []

instance (cfg : Config) (s : LIVMapper) : Decidable (s.Publishes cfg) :=
  inferInstanceAs (Decidable (_ ∧ _))

/-- The buffered samples from the last update on. -/
def recentImu (s : LIVMapper) : List Imu :=
  s.propImuBuffer.filter fun imu => decide (s.latestEkfTime ≤ imu.time)

/-- The state of the last update, advanced through samples. -/
def propagated (cfg : Config) (s : LIVMapper) (l : List Imu) : StatesGroup :=
  replay (propImuOnce cfg s.pImu) Imu.time s.latestEkfTime s.latestEkfState l

/-- The odometry is the state of the last update, advanced through every sample that has come since,
in order. -/
def OdometryExact (cfg : Config) (s : LIVMapper) : Prop :=
  s.imuPropagate = s.propagated cfg s.recentImu

/-- The odometry has seen some samples since the last update. -/
def Odometry (cfg : Config) (s : LIVMapper) (seen : List Imu) : Prop :=
  Follows (propImuOnce cfg s.pImu) Imu.time s.latestEkfTime s.latestEkfState seen s.imuPropagate
    (s.latestEkfTime + s.lastTFromLidarEndTime)

/-! ## The callback -/

/-- The batch loop is a replay; its clock counts from the update. -/
lemma propImuBatch_eq (cfg : Config) (s : LIVMapper) (l : List Imu) (lastT : ℚ)
    (st : StatesGroup) : s.propImuBatch cfg l lastT st =
      (replay (propImuOnce cfg s.pImu) Imu.time (s.latestEkfTime + lastT) st l,
        lastTime Imu.time (s.latestEkfTime + lastT) l - s.latestEkfTime) := by
  induction l generalizing lastT st with
  | nil => simp [propImuBatch]
  | cons imu l ih =>
      have hclock : s.latestEkfTime + (stamp2Sec imu.stamp - s.latestEkfTime) = imu.time := by
        rw [Imu.time]
        ring
      have hdt : imu.time - (s.latestEkfTime + lastT) =
          stamp2Sec imu.stamp - s.latestEkfTime - lastT := by
        rw [Imu.time]
        ring
      show s.propImuBatch cfg l _ _ = _
      rw [ih, hclock, replay, hdt]
      rfl

/-- The first tick after an update. -/
def replayTick (cfg : Config) (s : LIVMapper) : LIVMapper :=
  let kept := s.propImuBuffer.dropWhile fun imu => decide (imu.time < s.latestEkfTime)
  { s with
    newImu := false
    imuPropagate := s.propagated cfg kept
    propImuBuffer := kept
    lastTFromLidarEndTime := lastTime Imu.time s.latestEkfTime kept - s.latestEkfTime
    stateUpdateFlg := false }

/-- A tick that follows. -/
def followTick (cfg : Config) (s : LIVMapper) : LIVMapper :=
  { s with
    newImu := false
    imuPropagate := propImuOnce cfg s.pImu
      (s.newestImu.time - (s.latestEkfTime + s.lastTFromLidarEndTime)) s.imuPropagate s.newestImu
    lastTFromLidarEndTime := s.newestImu.time - s.latestEkfTime }

/-- **What `imu_prop_callback` does**: at most take note of the newest sample, or publish, by a
replay if there has been an update and else by one step. -/
theorem imuPropCallback_cases (cfg : Config) (s : LIVMapper) :
    (¬s.Publishes cfg ∧ ∃ b, imuPropCallback cfg s = { s with newImu := b }) ∨
    (s.Publishes cfg ∧ s.stateUpdateFlg = true ∧ imuPropCallback cfg s = s.replayTick cfg) ∨
    (s.Publishes cfg ∧ s.stateUpdateFlg = false ∧ imuPropCallback cfg s = s.followTick cfg) := by
  unfold imuPropCallback
  by_cases hready : s.pImu.imuNeedInit = true ∨ s.newImu = false ∨ s.ekfFinishOnce = false
  · rw [if_pos hready]
    refine .inl ⟨?_, s.newImu, rfl⟩
    rintro ⟨⟨hinit, hnew, hdone⟩, -⟩
    rcases hready with h | h | h
    · exact Bool.false_ne_true (hinit.symm.trans h)
    · exact Bool.false_ne_true (h.symm.trans hnew)
    · exact Bool.false_ne_true (h.symm.trans hdone)
  have hwaits : s.pImu.imuNeedInit = false ∧ s.newImu = true ∧ s.ekfFinishOnce = true := by
    simpa only [not_or, Bool.not_eq_true, Bool.not_eq_false] using hready
  rw [if_neg hready]
  by_cases hbuf : cfg.imuPropEnable = true ∧ s.propImuBuffer ≠ []
  · refine .inr ?_
    dsimp only
    rw [if_pos hbuf]
    cases hflg : s.stateUpdateFlg with
    | true =>
        refine .inl ⟨⟨hwaits, hbuf⟩, rfl, ?_⟩
        rw [if_pos rfl, propImuBatch_eq]
        simp only [add_zero]
        rfl
    | false =>
        refine .inr ⟨⟨hwaits, hbuf⟩, rfl, ?_⟩
        have hdt : s.newestImu.time - (s.latestEkfTime + s.lastTFromLidarEndTime) =
            stamp2Sec s.newestImu.stamp - s.latestEkfTime - s.lastTFromLidarEndTime := by
          rw [Imu.time]
          ring
        rw [if_neg Bool.false_ne_true, followTick, hdt, Imu.time, hflg]
  · dsimp only
    rw [if_neg hbuf]
    exact .inl ⟨fun h => hbuf h.2, false, rfl⟩

/-! ## What the other events change -/

/-- What the odometry works with, besides its buffer. -/
structure OdometryRecord where
  newest : Imu
  update : Bool
  done : Bool
  ekfState : StatesGroup
  ekfTime : ℚ
  propagate : StatesGroup
  lastT : ℚ

def odometryRecord (s : LIVMapper) : OdometryRecord where
  newest := s.newestImu
  update := s.stateUpdateFlg
  done := s.ekfFinishOnce
  ekfState := s.latestEkfState
  ekfTime := s.latestEkfTime
  propagate := s.imuPropagate
  lastT := s.lastTFromLidarEndTime

/-- Once initialised, the IMU process stays so and keeps its scale. -/
def ImuSettled (p q : ImuProcess) : Prop :=
  p.imuNeedInit = false → q.imuNeedInit = false ∧ q.imuMeanAccNorm = p.imuMeanAccNorm

/-- From `s` to `t` the odometry has rested, or the filter has been updated. -/
structure OdometryRests (s t : LIVMapper) : Prop where
  imu : ImuSettled s.pImu t.pImu
  buffer : t.propImuBuffer = s.propImuBuffer
  lastImu : t.lastTimestampImu = s.lastTimestampImu
  record : t.odometryRecord = s.odometryRecord ∨ t.stateUpdateFlg = true

lemma ImuSettled.of_eq {p q : ImuProcess} (h : q = p) : ImuSettled p q :=
  fun hinit => ⟨h ▸ hinit, h ▸ rfl⟩

lemma process2_settled {m : Libm} {p : ImuProcess} {meas : LidarMeasureGroup} {stat : StatesGroup}
    {cur : PointCloudXYZI} {r : ImuProcess.Processed}
    (h : ImuProcess.process2 m p meas stat cur = .ok r) : ImuSettled p r.imu := by
  intro hinit
  unfold ImuProcess.process2 at h
  rw [hinit, if_neg Bool.false_ne_true] at h
  split_ifs at h
  · unfold ImuProcess.forwardWithoutImu ImuProcess.forwardSorted at h
    dsimp only at h
    split at h
    · cases h
    · obtain rfl := Except.ok.inj h
      exact ⟨hinit, rfl⟩
  · obtain rfl := Except.ok.inj h
    exact ⟨hinit, rfl⟩

lemma OnlyLioCase.odometry {s t : LIVMapper} {b : Bool} (h : OnlyLioCase s b t) :
    t.propImuBuffer = s.propImuBuffer ∧ t.odometryRecord = s.odometryRecord := by
  cases h with
  | idle => exact ⟨rfl, rfl⟩
  | small => exact ⟨rfl, rfl⟩
  | wait latched => cases latched <;> exact ⟨rfl, rfl⟩
  | take latched => cases latched <;> exact ⟨rfl, rfl⟩

lemma syncPackages_odometry {cfg : Config} {s t : LIVMapper} {b : Bool}
    (h : s.syncPackages cfg = .ok (b, t)) :
    t.propImuBuffer = s.propImuBuffer ∧ t.odometryRecord = s.odometryRecord := by
  cases hmode : cfg.slamMode with
  | onlyLo => cases syncPackages_onlyLo hmode h <;> exact ⟨rfl, rfl⟩
  | onlyLio => exact (syncPackages_onlyLio hmode h).odometry
  | livo => cases syncPackages_livo hmode h <;> exact ⟨rfl, rfl⟩

lemma processImu_odometry {cfg : Config} {s t : LIVMapper}
    (h : s.handleFirstFrame.processImu cfg = .ok t) : ImuSettled s.pImu t.pImu ∧
      t.propImuBuffer = s.propImuBuffer ∧ t.odometryRecord = s.odometryRecord := by
  have hfirst : ImuSettled s.pImu s.handleFirstFrame.pImu ∧
      s.handleFirstFrame.propImuBuffer = s.propImuBuffer ∧
      s.handleFirstFrame.odometryRecord = s.odometryRecord := by
    unfold handleFirstFrame
    split_ifs <;> exact ⟨fun hinit => ⟨hinit, rfl⟩, rfl, rfl⟩
  obtain ⟨hsettled, hbuf, hrecord⟩ := hfirst
  unfold processImu at h
  split at h
  · cases h
  · rename_i r hr
    have hsettled' := process2_settled hr
    have hboth : ImuSettled s.pImu r.imu := fun hinit => by
      obtain ⟨hready, hnorm⟩ := hsettled hinit
      obtain ⟨hready', hnorm'⟩ := hsettled' hready
      exact ⟨hready', hnorm'.trans hnorm⟩
    obtain rfl := Except.ok.inj h
    unfold gravityAlignment
    split_ifs <;> exact ⟨hboth, hbuf, hrecord⟩

lemma finishUpdate_odometry (cfg : Config) (s : LIVMapper) :
    (s.finishUpdate cfg).propImuBuffer = s.propImuBuffer ∧
      ((s.finishUpdate cfg).odometryRecord = s.odometryRecord ∨
        (s.finishUpdate cfg).stateUpdateFlg = true) := by
  unfold finishUpdate
  split_ifs
  · exact ⟨rfl, .inr rfl⟩
  · exact ⟨rfl, .inl rfl⟩

lemma stateEstimationAndMapping_odometry (cfg : Config) (s : LIVMapper) (est : Estimate) :
    (s.stateEstimationAndMapping cfg est).propImuBuffer = s.propImuBuffer ∧
      ((s.stateEstimationAndMapping cfg est).odometryRecord = s.odometryRecord ∨
        (s.stateEstimationAndMapping cfg est).stateUpdateFlg = true) := by
  have hfinish := finishUpdate_odometry cfg { s with state := est.state }
  have hlio : (s.handleLIO cfg est).propImuBuffer = s.propImuBuffer ∧
      ((s.handleLIO cfg est).odometryRecord = s.odometryRecord ∨
        (s.handleLIO cfg est).stateUpdateFlg = true) := by
    unfold handleLIO
    split_ifs
    · exact ⟨rfl, .inl rfl⟩
    · exact hfinish
  have hvio : (s.handleVIO cfg est).propImuBuffer = s.propImuBuffer ∧
      ((s.handleVIO cfg est).odometryRecord = s.odometryRecord ∨
        (s.handleVIO cfg est).stateUpdateFlg = true) := by
    unfold handleVIO
    split_ifs
    · exact ⟨rfl, .inl rfl⟩
    · exact hfinish
  unfold stateEstimationAndMapping
  split
  · exact hvio
  · exact hlio
  · exact hlio
  · exact ⟨rfl, .inl rfl⟩

/-- A pass of the loop updates the filter, or leaves the odometry as it is. -/
lemma pass_rests {cfg : Config} {s t : LIVMapper} {est : Estimate} {obs : Option LIVMapper}
    (h : s.step cfg (.pass est) = .ok (t, obs)) : OdometryRests s t := by
  have hlast := (steps_of_step h).lastTimestamps.1 nofun
  simp only [step, pass] at h
  split at h
  · cases h
  · rename_i hsync
    obtain ⟨rfl, -⟩ := Prod.mk.inj (Except.ok.inj h)
    obtain ⟨hbuf, hrecord⟩ := syncPackages_odometry hsync
    exact ⟨.of_eq (syncPackages_frame hsync).pImu, hbuf, hlast, .inl hrecord⟩
  · split at h
    · cases h
    · rename_i hsync _ u hprocess
      obtain ⟨rfl, -⟩ := Prod.mk.inj (Except.ok.inj h)
      obtain ⟨hbuf, hrecord⟩ := syncPackages_odometry hsync
      obtain ⟨hsettled, hbuf', hrecord'⟩ := processImu_odometry hprocess
      obtain ⟨hbuf'', hrecord''⟩ := stateEstimationAndMapping_odometry cfg u est
      refine ⟨?_, hbuf''.trans (hbuf'.trans hbuf), hlast, ?_⟩
      · rw [(stateEstimationAndMapping_frame cfg u est).2.1]
        rwa [(syncPackages_frame hsync).pImu] at hsettled
      · rcases hrecord'' with hsame | hflg
        · exact .inl (hsame.trans (hrecord'.trans hrecord))
        · exact .inr hflg

/-- A lidar callback leaves the odometry as it is. -/
lemma lidarCbk_rests (cfg : Config) (driver : LidarDriver) (s : LIVMapper) (msg : LidarMsg) :
    OdometryRests s (lidarCbk cfg driver s msg) := by
  rcases lidarCbk_cases cfg driver s msg with ⟨-, heq⟩ | ⟨-, -, heq⟩ | ⟨-, heq⟩
  · rw [heq]
    exact ⟨.of_eq rfl, rfl, rfl, .inl rfl⟩
  · rw [heq, clearLoopBack_eq]
    exact ⟨.of_eq rfl, rfl, rfl, .inl rfl⟩
  · rw [heq, clearLoopBack_eq]
    exact ⟨.of_eq rfl, rfl, rfl, .inl rfl⟩

/-- An image callback leaves the odometry as it is. -/
lemma imgCbk_rests (cfg : Config) (s : LIVMapper) (msg : Image) :
    OdometryRests s (imgCbk cfg s msg) := by
  rcases imgCbk_cases cfg s msg with ⟨-, n, heq⟩ | ⟨-, n, heq⟩
  · rw [heq]
    exact ⟨.of_eq rfl, rfl, rfl, .inl rfl⟩
  · rw [heq]
    exact ⟨.of_eq rfl, rfl, rfl, .inl rfl⟩

/-! ## The buffer -/

/-- The buffered samples are in order, and none is later than the last one filed. -/
def BufferOrdered (s : LIVMapper) : Prop :=
  (s.propImuBuffer.Pairwise fun a b => a.time ≤ b.time) ∧
    ∀ imu ∈ s.propImuBuffer, imu.time ≤ s.lastTimestampImu

lemma BufferOrdered.congr {s t : LIVMapper} (h : s.BufferOrdered)
    (hbuf : t.propImuBuffer = s.propImuBuffer) (hlast : t.lastTimestampImu = s.lastTimestampImu) :
    t.BufferOrdered := by
  unfold BufferOrdered
  rwa [hbuf, hlast]

/-- The gate of `imu_cbk` keeps the buffer in order: a stamp that is not positive is zero. -/
lemma BufferOrdered.pushImu {cfg : Config} {s : LIVMapper} {stamp : Stamp} {msg : Imu}
    (h : s.BufferOrdered) (hstamp : msg.stamp = stamp)
    (hpass : s.imuPasses (stamp2Sec stamp) = true) :
    (s.pushImu cfg (stamp2Sec stamp) msg).BufferOrdered := by
  have htime : msg.time = stamp2Sec stamp := by rw [Imu.time, hstamp]
  have hlate : ∀ imu ∈ s.propImuBuffer, imu.time ≤ stamp2Sec stamp := by
    intro imu himu
    by_cases hpos : 0 < s.lastTimestampImu
    · have hgate : s.lastTimestampImu ≤ stamp2Sec stamp := by
        by_contra hlt
        have hback : stamp2Sec stamp < s.lastTimestampImu := not_le.mp hlt
        simp [imuPasses, hpos, hback] at hpass
      exact (h.2 imu himu).trans hgate
    · exact ((h.2 imu himu).trans (not_lt.mp hpos)).trans (stamp2Sec_nonneg stamp)
  have hbuf : (s.pushImu cfg (stamp2Sec stamp) msg).propImuBuffer = s.propImuBuffer ++ [msg] ∨
      (s.pushImu cfg (stamp2Sec stamp) msg).propImuBuffer = s.propImuBuffer := ite_eq_or_eq _ _ _
  have hlast : (s.pushImu cfg (stamp2Sec stamp) msg).lastTimestampImu = stamp2Sec stamp := rfl
  unfold BufferOrdered
  rw [hlast]
  rcases hbuf with hbuf | hbuf
  · rw [hbuf]
    refine ⟨List.pairwise_append.mpr ⟨h.1, List.pairwise_singleton _ _, ?_⟩, ?_⟩
    · intro a ha b hb
      rw [List.mem_singleton.mp hb, htime]
      exact hlate a ha
    · intro imu himu
      rcases List.mem_append.mp himu with hold | hnew
      · exact hlate imu hold
      · rw [List.mem_singleton.mp hnew, htime]
  · rw [hbuf]
    exact ⟨h.1, hlate⟩

lemma BufferOrdered.tick {cfg : Config} {s : LIVMapper} (h : s.BufferOrdered) :
    (imuPropCallback cfg s).BufferOrdered := by
  rcases imuPropCallback_cases cfg s with ⟨-, b, heq⟩ | ⟨-, -, heq⟩ | ⟨-, -, heq⟩
  · rw [heq]
    exact h
  · rw [heq]
    have hsub : (s.replayTick cfg).propImuBuffer.Sublist s.propImuBuffer :=
      List.dropWhile_sublist _
    exact ⟨h.1.sublist hsub, fun imu himu => h.2 imu (hsub.subset himu)⟩
  · rw [heq]
    exact h

end LIVMapper

open LIVMapper

variable {cfg : Config} {tr : List NodeTurn} {s t : LIVMapper}

lemma bufferOrdered_of_run (h : NodeRun cfg tr t) : t.BufferOrdered := by
  refine (Exec.invariant (I := BufferOrdered) (C := fun _ => True) ?_ ?_ h
    fun _ _ => trivial).1
  · exact ⟨List.Pairwise.nil, fun imu himu => by cases himu⟩
  rintro ⟨s, ev, obs, u⟩ hx - hpre
  have hsteps : Steps cfg s ev obs u := hx.steps
  cases ev with
  | pclCbk driver msg =>
      rw [hsteps.of_pclCbk]
      exact hpre.congr (lidarCbk_rests cfg driver s msg).buffer
        (lidarCbk_rests cfg driver s msg).lastImu
  | imuCbk msg =>
      rcases imuCbk_cases hsteps.of_imuCbk with ⟨-, rfl⟩ | ⟨-, stamp, -, -, hpass, rfl⟩
      · exact hpre
      · exact hpre.pushImu rfl hpass
  | imgCbk msg =>
      rw [hsteps.of_imgCbk]
      exact hpre.congr (imgCbk_rests cfg s msg).buffer (imgCbk_rests cfg s msg).lastImu
  | imuPropCallback =>
      cases hsteps
      exact hpre.tick
  | pass est => exact hpre.congr (pass_rests hx).buffer (pass_rests hx).lastImu

/-! ## Keeping step -/

/-- A tick of the timer. -/
def Event.isTick : Event → Bool
  | .imuPropCallback => true
  | _ => false

/-- The odometry is published in this turn. -/
def Published (cfg : Config) (x : NodeTurn) : Prop :=
  x.event.isTick = true ∧ x.pre.Publishes cfg

instance (cfg : Config) : DecidablePred (Published cfg) :=
  fun _ => inferInstanceAs (Decidable (_ ∧ _))

/-- How many samples have been filed since the odometry was last published. -/
def unseen (cfg : Config) (tr : List NodeTurn) : ℕ :=
  tr.foldl (fun n x => if Published cfg x then 0 else n + (acceptedImu x).length) 0

lemma unseen_snoc (tr : List NodeTurn) (x : NodeTurn) : unseen cfg (tr ++ [x]) =
    if Published cfg x then 0 else unseen cfg tr + (acceptedImu x).length := by
  rw [unseen, List.foldl_append]
  rfl

/-- After the turns `p` the turn `x` does not publish, or the filter has been updated, or exactly
one sample has come since the odometry was last published, and it is not from before the update. -/
def SeesOne (cfg : Config) (p : List NodeTurn) (x : NodeTurn) : Prop :=
  Published cfg x → x.pre.stateUpdateFlg = false →
    unseen cfg p = 1 ∧ x.pre.latestEkfTime ≤ x.pre.newestImu.time

instance (cfg : Config) (p : List NodeTurn) : DecidablePred (SeesOne cfg p) :=
  fun x => inferInstanceAs (Decidable (Published cfg x → x.pre.stateUpdateFlg = false →
    unseen cfg p = 1 ∧ x.pre.latestEkfTime ≤ x.pre.newestImu.time))

/-- Every turn of the run sees one sample. -/
def AlwaysSeesOne (cfg : Config) (tr : List NodeTurn) : Prop :=
  ∀ p x, p ++ [x] <+: tr → SeesOne cfg p x

instance (cfg : Config) : DecidablePred (AlwaysSeesOne cfg) := fun tr =>
  decidable_of_iff (∀ q ∈ tr.inits, ∀ x ∈ q.getLast?, SeesOne cfg q.dropLast x) (by
    constructor
    · intro h p x hp
      have hx := h (p ++ [x]) ((List.mem_inits _ _).mpr hp) x (by simp)
      rwa [List.dropLast_concat] at hx
    · intro h q hq x hx
      apply h
      rw [List.dropLast_append_getLast? x hx]
      exact (List.mem_inits _ _).mp hq)

lemma alwaysSeesOne_snoc {x : NodeTurn} (h : AlwaysSeesOne cfg (tr ++ [x])) :
    AlwaysSeesOne cfg tr ∧ SeesOne cfg tr x :=
  ⟨fun p y hp => h p y (hp.trans (List.prefix_append _ _)), h tr x List.prefix_rfl⟩

/-- The odometry has been published since the last update, and has seen all buffered samples but
the last `n`. -/
structure InStep (cfg : Config) (n : ℕ) (s : LIVMapper) : Prop where
  enabled : cfg.imuPropEnable = true
  settled : s.pImu.imuNeedInit = false
  seen : ∃ old new, s.propImuBuffer = old ++ new ∧ new.length = n ∧
    (∀ imu ∈ new.getLast?, s.newestImu = imu) ∧
    s.Odometry cfg (old.filter fun imu => decide (s.latestEkfTime ≤ imu.time))

namespace InStep

variable {n : ℕ}

lemma exact (h : InStep cfg 0 s) : s.OdometryExact cfg := by
  obtain ⟨old, new, hbuf, hlen, -, hseen⟩ := h.seen
  obtain rfl := List.length_eq_zero_iff.mp hlen
  rw [OdometryExact, recentImu, hbuf, List.append_nil]
  exact hseen.state_eq.1

lemma propImuOnce_congr {p q : ImuProcess} (h : q.imuMeanAccNorm = p.imuMeanAccNorm) :
    propImuOnce cfg q = propImuOnce cfg p := by
  funext dt st imu
  unfold propImuOnce
  rw [h]

lemma rests (h : InStep cfg n s) (hrests : OdometryRests s t)
    (hrecord : t.odometryRecord = s.odometryRecord) : InStep cfg n t := by
  obtain ⟨hready, hnorm⟩ := hrests.imu h.settled
  obtain ⟨old, new, hbuf, hlen, hnewest, hseen⟩ := h.seen
  have hnew : t.newestImu = s.newestImu := congrArg OdometryRecord.newest hrecord
  have htime : t.latestEkfTime = s.latestEkfTime := congrArg OdometryRecord.ekfTime hrecord
  have hstate : t.latestEkfState = s.latestEkfState := congrArg OdometryRecord.ekfState hrecord
  have hprop : t.imuPropagate = s.imuPropagate := congrArg OdometryRecord.propagate hrecord
  have hlast : t.lastTFromLidarEndTime = s.lastTFromLidarEndTime :=
    congrArg OdometryRecord.lastT hrecord
  refine ⟨h.enabled, hready, old, new, hrests.buffer.trans hbuf, hlen, ?_, ?_⟩
  · rwa [hnew]
  · rw [Odometry, propImuOnce_congr hnorm, htime, hstate, hprop, hlast]
    exact hseen

lemma pushImu (h : InStep cfg n s) (timestamp : ℚ) (msg : Imu) :
    InStep cfg (n + 1) (s.pushImu cfg timestamp msg) := by
  obtain ⟨old, new, hbuf, hlen, -, hseen⟩ := h.seen
  have hpush : s.pushImu cfg timestamp msg = { s with
      lastTimestampImu := timestamp
      imuBuffer := s.imuBuffer ++ [msg]
      propImuBuffer := s.propImuBuffer ++ [msg]
      newestImu := msg
      newImu := true } := by
    simp [LIVMapper.pushImu, h.enabled, h.settled]
  rw [hpush]
  refine ⟨h.enabled, h.settled, old, new ++ [msg], ?_, ?_, ?_, hseen⟩
  · show s.propImuBuffer ++ [msg] = _
    rw [hbuf, List.append_assoc]
  · rw [List.length_append, hlen]
    rfl
  · intro imu himu
    rw [List.getLast?_concat] at himu
    exact Option.mem_some_iff.mp himu

lemma note (h : InStep cfg n s) (b : Bool) : InStep cfg n { s with newImu := b } :=
  ⟨h.enabled, h.settled, h.seen⟩

/-- The first tick after an update catches up. -/
lemma replayTick (hready : s.Publishes cfg) (hordered : s.BufferOrdered) :
    InStep cfg 0 (s.replayTick cfg) := by
  refine ⟨hready.2.1, hready.1.1, _, [], (List.append_nil _).symm, rfl, nofun, ?_⟩
  have hkept : (s.propImuBuffer.dropWhile fun imu => decide (imu.time < s.latestEkfTime)) =
      s.recentImu := dropWhile_eq_filter Imu.time hordered.1 s.latestEkfTime
  have hrecent : s.recentImu.filter (fun imu => decide (s.latestEkfTime ≤ imu.time)) =
      s.recentImu := by
    rw [recentImu, List.filter_filter]
    simp only [Bool.and_self]
  have hstart : Follows (propImuOnce cfg s.pImu) Imu.time s.latestEkfTime s.latestEkfState []
    s.latestEkfState s.latestEkfTime := .start
  have hfollows := hstart.of_replay s.recentImu
  show Follows _ _ s.latestEkfTime s.latestEkfState
    (List.filter (fun imu => decide (s.latestEkfTime ≤ imu.time))
      (s.propImuBuffer.dropWhile fun imu => decide (imu.time < s.latestEkfTime)))
    (s.propagated cfg (s.propImuBuffer.dropWhile fun imu => decide (imu.time < s.latestEkfTime)))
    (s.latestEkfTime + (lastTime Imu.time s.latestEkfTime _ - s.latestEkfTime))
  rw [hkept, hrecent, add_sub_cancel]
  exact hfollows

/-- A tick that follows takes in the one sample it has not seen. -/
lemma followTick (h : InStep cfg 1 s) (hrecent : s.latestEkfTime ≤ s.newestImu.time) :
    InStep cfg 0 (s.followTick cfg) := by
  obtain ⟨old, new, hbuf, hlen, hnewest, hseen⟩ := h.seen
  obtain ⟨imu, rfl⟩ := List.length_eq_one_iff.mp hlen
  obtain rfl : s.newestImu = imu := hnewest imu rfl
  refine ⟨h.enabled, h.settled, old ++ [s.newestImu], [], ?_, rfl, nofun, ?_⟩
  · rw [List.append_nil]
    exact hbuf
  · have hnext := hseen.next s.newestImu
    show Follows _ _ s.latestEkfTime s.latestEkfState
      (List.filter (fun imu => decide (s.latestEkfTime ≤ imu.time)) (old ++ [s.newestImu]))
      (s.followTick cfg).imuPropagate (s.latestEkfTime + (s.newestImu.time - s.latestEkfTime))
    rw [List.filter_append, List.filter_cons_of_pos (by simpa using hrecent), List.filter_nil,
      add_sub_cancel]
    exact hnext

end InStep

/-- What a run keeps: after a publication, and until the filter is updated again, the odometry has
seen all but the last samples. -/
def KeepsStep (cfg : Config) (n : ℕ) (s : LIVMapper) : Prop :=
  s.ekfFinishOnce = true → s.stateUpdateFlg = false → InStep cfg n s

lemma KeepsStep.rests {n : ℕ} (h : KeepsStep cfg n s) (hrests : OdometryRests s t) :
    KeepsStep cfg n t := by
  intro hdone hflg
  rcases hrests.record with hrecord | hupdate
  · have hdone' : t.ekfFinishOnce = s.ekfFinishOnce := congrArg OdometryRecord.done hrecord
    have hflg' : t.stateUpdateFlg = s.stateUpdateFlg := congrArg OdometryRecord.update hrecord
    exact (h (hdone' ▸ hdone) (hflg' ▸ hflg)).rests hrests hrecord
  · exact absurd (hflg.symm.trans hupdate) Bool.false_ne_true

/-- A turn keeps step, and what it publishes is exact. -/
lemma KeepsStep.turn {x : NodeTurn} (h : KeepsStep cfg (unseen cfg tr) x.pre)
    (hx : x.Taken (LIVMapper.step cfg)) (hordered : x.pre.BufferOrdered)
    (hone : SeesOne cfg tr x) : KeepsStep cfg (unseen cfg (tr ++ [x])) x.post ∧
      (Published cfg x → x.post.OdometryExact cfg) := by
  obtain ⟨s, ev, obs, u⟩ := x
  have hsteps : Steps cfg s ev obs u := hx.steps
  rw [unseen_snoc]
  have hquiet : ¬Published cfg ⟨s, ev, obs, u⟩ → acceptedImu ⟨s, ev, obs, u⟩ = [] →
      KeepsStep cfg (unseen cfg tr) u →
      KeepsStep cfg (if Published cfg ⟨s, ev, obs, u⟩ then 0
        else unseen cfg tr + (acceptedImu ⟨s, ev, obs, u⟩).length) u ∧
        (Published cfg ⟨s, ev, obs, u⟩ → u.OdometryExact cfg) := by
    intro hpub hnone hu
    rw [if_neg hpub, hnone]
    exact ⟨hu, fun hp => absurd hp hpub⟩
  cases ev with
  | pclCbk driver msg =>
      apply hquiet (fun hp => Bool.false_ne_true hp.1) rfl
      rw [hsteps.of_pclCbk]
      exact h.rests (lidarCbk_rests cfg driver s msg)
  | imuCbk msg =>
      have hpub : ¬Published cfg ⟨s, .imuCbk msg, obs, u⟩ := fun hp => Bool.false_ne_true hp.1
      rcases imuCbk_cases hsteps.of_imuCbk with ⟨-, rfl⟩ | ⟨-, stamp, -, -, -, rfl⟩
      · exact hquiet hpub (by simp [acceptedImu]) h
      · rw [if_neg hpub]
        refine ⟨fun hdone hflg => ?_, fun hp => absurd hp hpub⟩
        have hlen : (acceptedImu ⟨s, .imuCbk msg, obs, s.pushImu cfg (stamp2Sec stamp)
            { msg with stamp := stamp }⟩).length = 1 := by
          simp [acceptedImu, LIVMapper.pushImu]
        rw [hlen]
        exact (h hdone hflg).pushImu _ _
  | imgCbk msg =>
      apply hquiet (fun hp => Bool.false_ne_true hp.1) rfl
      rw [hsteps.of_imgCbk]
      exact h.rests (imgCbk_rests cfg s msg)
  | imuPropCallback =>
      cases hsteps
      rcases imuPropCallback_cases cfg s with
        ⟨hnot, b, heq⟩ | ⟨hready, -, heq⟩ | ⟨hready, hflg, heq⟩
      · apply hquiet (fun hp => hnot hp.2) rfl
        rw [heq]
        exact fun hdone hflg => (h hdone hflg).note b
      · have hpub : Published cfg ⟨s, .imuPropCallback, none, imuPropCallback cfg s⟩ :=
          ⟨rfl, hready⟩
        have hstep : InStep cfg 0 (imuPropCallback cfg s) := heq ▸ InStep.replayTick hready hordered
        rw [if_pos hpub]
        exact ⟨fun _ _ => hstep, fun _ => hstep.exact⟩
      · have hpub : Published cfg ⟨s, .imuPropCallback, none, imuPropCallback cfg s⟩ :=
          ⟨rfl, hready⟩
        obtain ⟨hcount, hrecent⟩ := hone hpub hflg
        have hpre := h hready.1.2.2 hflg
        rw [hcount] at hpre
        have hstep : InStep cfg 0 (imuPropCallback cfg s) := heq ▸ hpre.followTick hrecent
        rw [if_pos hpub]
        exact ⟨fun _ _ => hstep, fun _ => hstep.exact⟩
  | pass est => exact hquiet (fun hp => Bool.false_ne_true hp.1) rfl (h.rests (pass_rests hx))

/-- **The odometry of a run.**  In a run in which each tick that follows the odometry finds exactly
one sample it has not seen, and none from before the update, every publication is the state of the
last update advanced through all samples since. -/
theorem odometry_of_run (h : NodeRun cfg tr t) (hC : AlwaysSeesOne cfg tr) :
    ∀ x ∈ tr, Published cfg x → x.post.OdometryExact cfg := by
  have hall := Exec.history (P := fun tr s => AlwaysSeesOne cfg tr →
    KeepsStep cfg (unseen cfg tr) s ∧ ∀ x ∈ tr, Published cfg x → x.post.OdometryExact cfg)
    (C := fun _ => True) ?_ ?_ h fun _ _ => trivial
  · exact (hall hC).2
  · exact fun _ => ⟨fun hdone => absurd hdone Bool.false_ne_true, fun x hx => by cases hx⟩
  · intro tr x hrun hx _ ih hsees
    obtain ⟨hsees, hone⟩ := alwaysSeesOne_snoc hsees
    obtain ⟨hstep, hexact⟩ := ih hsees
    obtain ⟨hstep', hexact'⟩ := hstep.turn hx (bufferOrdered_of_run hrun) hone
    refine ⟨hstep', fun y hy => ?_⟩
    rcases List.mem_append.mp hy with hy | hy
    · exact hexact y hy
    · rw [List.mem_singleton.mp hy]
      exact hexact'

/-! ## Two samples between two ticks -/

/-- The IMU-rate odometry of a node without a camera.  The library is asked for values at 0 and 1
only. -/
def odometryConfig : Config where
  imgEn := false
  imuIntFrame := 1
  imuPropEnable := true
  libm := ⟨fun x => x, fun _ => 1, fun x => x⟩

/-- A sample of an IMU at rest. -/
def restAt (ms : ℕ) : Event :=
  .imuCbk { stamp := ms * 1000000, linearAcceleration := ![0, 0, 1] }

/-- A sample in which the IMU accelerates. -/
def joltAt (ms : ℕ) : Event :=
  .imuCbk { stamp := ms * 1000000, linearAcceleration := ![1, 0, 1] }

/-- A scan of an eighth of a second. -/
def eighth : PointCloudXYZI := [{}, { curvature := 125 }]

/-- The first scan initialises the IMU, the second one ends in an update at 1.25 s. -/
def firstUpdate : List Event :=
  [.scanAt .livox 1000 eighth, restAt 1000, restAt 1125, .pass {},
    .scanAt .livox 1125 eighth, restAt 1250, .pass {}]

/-- With a tick after each sample the odometry takes in both. -/
theorem odometry_of_run_sampled :
    let r := nodeTrace odometryConfig (firstUpdate ++ [.imuPropCallback, joltAt 1375,
      .imuPropCallback, restAt 1500, .imuPropCallback])
    (r.1.filter fun x => Published odometryConfig x).length = 3 ∧
      ∀ x ∈ r.1, Published odometryConfig x → x.post.OdometryExact odometryConfig :=
  ⟨by decide +kernel, odometry_of_run (nodeRun_nodeTrace odometryConfig _) (by decide +kernel)⟩

/-- Without a tick between them the first is skipped, and its acceleration with it. -/
theorem odometry_skips_sample : ¬∀ (cfg : Config) (tr : List NodeTurn) (t : LIVMapper),
    NodeRun cfg tr t → ((tr.filterMap fun x => x.event.imuMsg).map Imu.stamp).Pairwise (· < ·) →
    ∀ x ∈ tr, Published cfg x → x.post.OdometryExact cfg := by
  intro hall
  let r := nodeTrace odometryConfig (firstUpdate ++ [.imuPropCallback, joltAt 1375, restAt 1500,
    .imuPropCallback])
  have hskip : ∃ x ∈ r.1, Published odometryConfig x ∧ x.post.imuPropagate.velEnd ≠
      (x.post.propagated odometryConfig x.post.recentImu).velEnd := by
    decide +kernel
  obtain ⟨x, hx, hpub, hne⟩ := hskip
  have hexact := hall odometryConfig r.1 r.2 (nodeRun_nodeTrace odometryConfig _)
    (by decide +kernel) x hx hpub
  exact hne (congrArg StatesGroup.velEnd hexact)

end FastLivo2
