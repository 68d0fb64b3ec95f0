import FastLivo2.ScanBuffers

/-!
# The scans `ONLY_LIO` hands to the filter

In `ONLY_LIO` mode one call of `sync_packages` latches the first scan (`lidar_pushed`) and a later
one, when the IMU has caught up, pops it.  What is popped is the latched scan as long as the
front of the deque stays put between the two calls; the overflow rule of the lidar callbacks
and their loop-back branch both move it without looking at the latch.

A group that is propagated has two time bases: the points count from the header time of the
scan, the poses from the end of the previous propagation.  Nothing ties the two together
except that one scan begins where the one before ended.
-/

namespace FastLivo2

namespace LIVMapper

/-! ## The latch -/

/-- A latched scan is at the front of the deque and in the bundle. -/
def LatchHeld (s : LIVMapper) : Prop :=
  s.lidarPushed = true → s.lidRawDataBuffer.head? = some s.lidarMeasures.lidar ∧
    s.lidarMeasures.pclProcCur = s.lidarMeasures.lidar.points

lemma LatchHeld.latched {s t : LIVMapper} (h : s.LatchHeld) (hlatched : s.Latched t) :
    t.lidRawDataBuffer.head? = some t.lidarMeasures.lidar ∧
      t.lidarMeasures.pclProcCur = t.lidarMeasures.lidar.points := by
  cases hlatched with
  | before pushed => exact h pushed
  | now _ scan => exact ⟨scan, rfl⟩

lemma LatchHeld.sync {cfg : Config} {s t : LIVMapper} {b : Bool} (hmode : cfg.slamMode = .onlyLio)
    (h : s.LatchHeld) (hsync : s.syncPackages cfg = .ok (b, t)) : t.LatchHeld := by
  cases syncPackages_onlyLio hmode hsync with
  | idle => exact h
  | small pushed =>
      intro hpushed
      have hs : s.lidarPushed = true := hpushed
      rw [pushed] at hs
      cases hs
  | @wait updateTime _ latched =>
      exact fun _ => LatchHeld.latched (s := s.setUpdateTime updateTime) h latched
  | take => exact nofun

/-- A group of `ONLY_LIO` is the scan popped, with its points. -/
lemma syncPackages_onlyLio_group {cfg : Config} {s g : LIVMapper}
    (hmode : cfg.slamMode = .onlyLio) (h : s.LatchHeld)
    (hsync : s.syncPackages cfg = .ok (true, g)) :
    s.lidRawDataBuffer = g.lidarMeasures.lidar :: g.lidRawDataBuffer ∧
      g.lidarMeasures.pclProcCur = g.lidarMeasures.lidar.points := by
  have hcase := syncPackages_onlyLio hmode hsync
  generalize hb : true = b at hcase
  cases hcase with
  | idle => cases hb
  | small => cases hb
  | wait => cases hb
  | @take updateTime t latched =>
      obtain ⟨hhead, hcur⟩ := LatchHeld.latched (s := s.setUpdateTime updateTime) h latched
      have hraw : s.lidRawDataBuffer = t.lidRawDataBuffer := latched.deques.1.symm
      refine ⟨?_, hcur⟩
      rw [hraw]
      exact (List.cons_head?_tail hhead).symm

/-- The propagation of a group of `ONLY_LIO` ends with the scan. -/
lemma syncPackages_onlyLio_propEndTime {cfg : Config} {s g : LIVMapper}
    (hmode : cfg.slamMode = .onlyLio) (hsync : s.syncPackages cfg = .ok (true, g)) :
    ImuProcess.propEndTime g.lidarMeasures = g.lidarMeasures.lidarFrameEndTime := by
  have hcase := syncPackages_onlyLio hmode hsync
  generalize hb : true = b at hcase
  cases hcase with
  | idle => cases hb
  | small => cases hb
  | wait => cases hb
  | take => simp [ImuProcess.propEndTime, emitScan, LidarMeasureGroup.lastMeasure]

lemma syncPackages_onlyLio_idle {cfg : Config} {s t : LIVMapper}
    (hmode : cfg.slamMode = .onlyLio) (hsync : s.syncPackages cfg = .ok (false, t)) :
    t.lidRawDataBuffer = s.lidRawDataBuffer := by
  have hcase := syncPackages_onlyLio hmode hsync
  generalize hb : false = b at hcase
  cases hcase with
  | idle => rfl
  | small => rfl
  | wait latched => exact latched.deques.1
  | take => cases hb

end LIVMapper

/-- The turn's lidar message, if it files a scan while one is latched, finds room for it. -/
def KeepsLatched (cfg : Config) (x : NodeTurn) : Prop :=
  ∀ driver msg, x.event = .pclCbk driver msg → LIVMapper.FilesScan cfg driver msg →
    x.pre.lidarPushed = true → x.pre.lidRawDataBuffer.length < LIVMapper.maxLidarBuffer

instance (cfg : Config) : DecidablePred (KeepsLatched cfg) := fun x =>
  decidable_of_iff (∀ a ∈ x.event.lidarMsg, LIVMapper.FilesScan cfg a.1 a.2 →
    x.pre.lidarPushed = true → x.pre.lidRawDataBuffer.length < LIVMapper.maxLidarBuffer)
    ⟨fun h driver msg hev => h (driver, msg) (Event.lidarMsg_eq_some.mpr hev),
      fun h a ha => h a.1 a.2 (Event.lidarMsg_eq_some.mp ha)⟩

/-- The scan a turn hands to the filter. -/
def handed (x : NodeTurn) : List CloudPtr := (x.obs.map fun g => g.lidarMeasures.lidar).toList

section OnlyLio

variable {cfg : Config} {tr : List NodeTurn} {t : LIVMapper}

lemma latchHeld_of_run (hmode : cfg.slamMode = .onlyLio) (h : NodeRun cfg tr t)
    (hC : ∀ x ∈ tr, NoLoopBackIn cfg x ∧ KeepsLatched cfg x) :
    ∀ x ∈ tr, x.pre.LatchHeld := by
  have hall := (h.invariant (I := LIVMapper.LatchHeld) hC (by simp [LIVMapper.LatchHeld,
    Config.initial]) ?_).2
  · exact fun x hx => (hall x hx).1
  rintro s ev obs u hsteps ⟨hloop, hroom⟩ hpre
  cases hsteps with
  | pclCbk driver msg =>
      have hframe := LIVMapper.lidarCbk_frame cfg driver s msg
      intro hlatched
      rw [hframe.pushed] at hlatched
      obtain ⟨hhead, hcur⟩ := hpre hlatched
      rw [hframe.meas]
      refine ⟨?_, hcur⟩
      rcases LIVMapper.lidarCbk_noLoopBack (hloop driver msg rfl) with ⟨-, heq⟩ | ⟨hfiles, heq⟩
      · rwa [heq]
      · -- there is room, so the overflow rule drops nothing
        have hlen := hroom driver msg rfl hfiles hlatched
        have hzero : s.lidRawDataBuffer.length + 1 - LIVMapper.maxLidarBuffer = 0 := by
          have hlen' : s.lidRawDataBuffer.length < LIVMapper.maxLidarBuffer := hlen
          omega
        rw [heq, LIVMapper.pushScan_lidRawDataBuffer, hzero, List.drop_zero]
        rw [List.head?_append, hhead]
        rfl
  | imuCbk cbk =>
      have hframe := LIVMapper.imuCbk_frame cbk
      rw [LIVMapper.LatchHeld, hframe.meas, hframe.pushed, hframe.raw]
      exact hpre
  | imgCbk msg =>
      have hframe := LIVMapper.imgCbk_frame cfg s msg
      rw [LIVMapper.LatchHeld, hframe.meas, hframe.pushed, hframe.raw]
      exact hpre
  | imuPropCallback =>
      obtain ⟨hsame, -, hmeas⟩ := LIVMapper.imuPropCallback_frame cfg s
      rw [LIVMapper.LatchHeld, hmeas, hsame.pushed, hsame.raw]
      exact hpre
  | idle sync => exact hpre.sync hmode sync
  | group sync handled =>
      have hgroup := hpre.sync hmode sync
      rw [LIVMapper.LatchHeld, handled.buffers.pushed, handled.buffers.raw, handled.group.lidar,
        handled.group.cur]
      exact hgroup

/-- **Every scan of `ONLY_LIO` is handed to the filter once or dropped by the overflow rule.**  In
a run without loop backs in which the overflow rule never meets a full deque with a latched
scan: each group is the scan popped for it, with its points; and the scans filed are, in
order, those handed over or dropped, followed by those still buffered, no cloud twice. -/
theorem onlyLio_scans_accounted (hmode : cfg.slamMode = .onlyLio) (h : NodeRun cfg tr t)
    (hC : ∀ x ∈ tr, NoLoopBackIn cfg x ∧ KeepsLatched cfg x) :
    (∀ x ∈ tr, ∀ g ∈ x.obs,
      x.pre.lidRawDataBuffer = g.lidarMeasures.lidar :: g.lidRawDataBuffer ∧
        g.lidarMeasures.pclProcCur = g.lidarMeasures.lidar.points) ∧
      tr.flatMap (entered cfg) =
        tr.flatMap (fun x => handed x ++ overflowed cfg x) ++ t.lidRawDataBuffer ∧
      ((tr.flatMap (entered cfg)).map CloudPtr.addr).Nodup := by
  have hlatch := latchHeld_of_run hmode h hC
  refine ⟨?_, ?_, nodup_entered h⟩
  · intro x hx g hg
    have hsteps := (h.taken x hx).steps
    rw [Option.mem_def.mp hg] at hsteps
    obtain ⟨est, -, hsync, -⟩ := hsteps.of_group
    exact LIVMapper.syncPackages_onlyLio_group hmode (hlatch x hx) hsync
  · have hC' : ∀ x ∈ tr, NoLoopBackIn cfg x ∧ x.pre.LatchHeld :=
      fun x hx => ⟨(hC x hx).1, hlatch x hx⟩
    refine entered_eq handed h hC' (fun x _ hobs => by simp [handed, hobs]) ?_
    intro s est obs u hsteps hheld
    cases hsteps with
    | idle sync => exact (LIVMapper.syncPackages_onlyLio_idle hmode sync).symm
    | group sync handled =>
        rw [handled.buffers.raw]
        exact (LIVMapper.syncPackages_onlyLio_group hmode hheld sync).1

end OnlyLio

/-- Two points 50 ms apart. -/
def twoPoints : PointCloudXYZI := [{}, { curvature := 50 }]

/-- The camera is off. -/
def onlyLioConfig : Config := { imgEn := false, imuIntFrame := 1 }

/-- While the first scan is latched, waiting for the IMU, three more arrive: the first is dropped
and handed over, the second is neither. -/
theorem latched_scan_dropped :
    let r := nodeTrace onlyLioConfig [.scanAt .livox 1000 twoPoints, .imuAt 1000, .pass {},
      .scanAt .livox 1100 twoPoints, .scanAt .livox 1200 twoPoints, .scanAt .livox 1300 twoPoints,
      .imuAt 1100, .pass {}]
    (r.1.flatMap (entered onlyLioConfig)).map CloudPtr.addr = [0, 1, 2, 3] ∧
      (r.1.flatMap handed).map CloudPtr.addr = [0] ∧
      (r.1.flatMap (overflowed onlyLioConfig)).map CloudPtr.addr = [0] ∧
      r.2.lidRawDataBuffer.map CloudPtr.addr = [2, 3] := by
  decide +kernel

/-- A run in which the scan is handed over before the next ones arrive. -/
theorem latched_scan_handed :
    let r := nodeTrace onlyLioConfig [.scanAt .livox 1000 twoPoints, .imuAt 1000, .pass {},
      .scanAt .livox 1100 twoPoints, .imuAt 1100, .pass {}]
    r.1.flatMap (entered onlyLioConfig) =
      r.1.flatMap (fun x => handed x ++ overflowed onlyLioConfig x) ++ r.2.lidRawDataBuffer :=
  (onlyLio_scans_accounted (by decide) (nodeRun_nodeTrace onlyLioConfig _) (by decide +kernel)).2.1

/-! ## The two time bases -/

/-- The groups handed out once the IMU has been initialised. -/
def propagated (tr : List NodeTurn) : List LIVMapper :=
  (groups tr).filter fun g => !g.pImu.imuNeedInit

/-- Each group's `origin` is where the group before ended, the first one's is `start`. -/
def FollowsOn (origin ending : LIVMapper → ℚ) : ℚ → List LIVMapper → Prop
  | _, [] => True
  | start, g :: gs => origin g = start ∧ FollowsOn origin ending (ending g) gs

section FollowsOn

variable {origin origin' ending : LIVMapper → ℚ} {start : ℚ} {gs : List LIVMapper}

lemma followsOn_snoc {g : LIVMapper} : FollowsOn origin ending start (gs ++ [g]) ↔
    FollowsOn origin ending start gs ∧ origin g = (gs.map ending).getLastD start := by
  induction gs generalizing start with
  | nil => simp [FollowsOn]
  | cons g' gs ih =>
      rw [List.cons_append, FollowsOn, FollowsOn, ih, List.map_cons, List.getLastD_cons, and_assoc]

/-- Two origins agree on every group exactly when the second follows on as the first does. -/
lemma FollowsOn.agrees_iff (h : FollowsOn origin ending start gs) :
    (∀ g ∈ gs, origin g = origin' g) ↔ FollowsOn origin' ending start gs := by
  induction gs generalizing start with
  | nil => simp [FollowsOn]
  | cons g gs ih =>
      obtain ⟨hg, hgs⟩ := h
      rw [List.forall_mem_cons, ih hgs, FollowsOn, hg, eq_comm]

end FollowsOn

section TimeBase

variable {cfg : Config} {tr : List NodeTurn} {t : LIVMapper}

lemma propagated_snoc (tr : List NodeTurn) (x : NodeTurn) :
    propagated (tr ++ [x]) =
      propagated tr ++ x.obs.toList.filter fun g => !g.pImu.imuNeedInit := by
  rw [propagated, groups_snoc, List.filter_append]
  rfl

/-- The poses of each propagated group count from the end of the scan propagated before. -/
lemma propagated_followsOn (hmode : cfg.slamMode = .onlyLio) (h : NodeRun cfg tr t) :
    FollowsOn (fun g => g.pImu.propBegTime) (fun g => g.lidarMeasures.lidarFrameEndTime)
        cfg.garbagePropEndTime (propagated tr) ∧
      t.pImu.lastPropEndTime = ((propagated tr).map fun g =>
        g.lidarMeasures.lidarFrameEndTime).getLastD cfg.garbagePropEndTime := by
  have himu := (Config.slamMode_eq_onlyLio.mp hmode).2
  have hen : ∀ x ∈ tr, x.pre.pImu.imuEn = true := fun x hx =>
    (((imuEn_of_run h).2 x hx).1).trans himu
  refine h.history (P := fun tr t => FollowsOn (fun g => g.pImu.propBegTime)
      (fun g => g.lidarMeasures.lidarFrameEndTime) cfg.garbagePropEndTime (propagated tr) ∧
    t.pImu.lastPropEndTime = ((propagated tr).map fun g =>
      g.lidarMeasures.lidarFrameEndTime).getLastD cfg.garbagePropEndTime)
    hen ⟨trivial, rfl⟩ ?_
  rintro tr s ev obs u hsteps hsen ⟨hfollows, hlast⟩
  rw [propagated_snoc]
  cases obs with
  | none =>
      have hsame : (none : Option LIVMapper).toList.filter (fun g => !g.pImu.imuNeedInit) = [] :=
        rfl
      rw [hsame, List.append_nil, hsteps.pImu]
      exact ⟨hfollows, hlast⟩
  | some g =>
      obtain ⟨est, -, hsync, hhandled⟩ := hsteps.of_group
      have hpImu := (LIVMapper.syncPackages_frame hsync).pImu
      have hend := LIVMapper.syncPackages_onlyLio_propEndTime hmode hsync
      cases hhandled.imu with
      | noImu en =>
          rw [hpImu] at en
          exact absurd hsen (by simp [en])
      | init _ _ needs _ last =>
          have hnone : (some g).toList.filter (fun g => !g.pImu.imuNeedInit) = [] := by simp [needs]
          rw [hnone, List.append_nil, last, hpImu]
          exact ⟨hfollows, hlast⟩
      | undistort _ _ needs _ _ _ last =>
          have hone : (some g).toList.filter (fun g => !g.pImu.imuNeedInit) = [g] := by
            simp [needs]
          rw [hone, followsOn_snoc, List.map_append, List.map_singleton, List.getLastD_concat]
          refine ⟨⟨hfollows, ?_⟩, last.trans hend⟩
          rw [← hlast, ← hpImu]
          rfl

/-- **When the two time bases of `ONLY_LIO` agree**: the poses of every group propagated in a run
count from the beginning of its scan if and only if the first of these scans begins at the
value `last_prop_end_time` was constructed with and each other where the one before ended. -/
theorem onlyLio_timeBase_iff (hmode : cfg.slamMode = .onlyLio) (h : NodeRun cfg tr t) :
    (∀ g ∈ propagated tr, g.pImu.propBegTime = g.lidarMeasures.lidarFrameBegTime) ↔
      FollowsOn (fun g => g.lidarMeasures.lidarFrameBegTime)
        (fun g => g.lidarMeasures.lidarFrameEndTime) cfg.garbagePropEndTime (propagated tr) :=
  (propagated_followsOn hmode h).1.agrees_iff

end TimeBase

/-- Scans of 50 ms, 100 ms apart: the first propagation counts from the value nobody set, the
second from the end of the scan before. -/
theorem onlyLio_timeBase_differs :
    ((propagated (nodeTrace onlyLioConfig [.scanAt .livox 1000 twoPoints, .imuAt 1000,
      .imuAt 1100, .pass {}, .scanAt .livox 1100 twoPoints, .imuAt 1200, .pass {},
      .scanAt .livox 1200 twoPoints, .imuAt 1300, .pass {}]).1).map fun g =>
        (g.pImu.propBegTime, g.lidarMeasures.lidarFrameBegTime)) =
      [(0, 110 / 100), (115 / 100, 120 / 100)] := by
  decide +kernel

/-- Scans without a gap, the first of them where the memory happened to say. -/
theorem onlyLio_timeBase_agrees :
    FollowsOn (fun g => g.lidarMeasures.lidarFrameBegTime)
      (fun g => g.lidarMeasures.lidarFrameEndTime) (105 / 100)
      (propagated (nodeTrace { onlyLioConfig with garbagePropEndTime := 105 / 100 }
        [.scanAt .livox 1000 twoPoints, .imuAt 1000, .imuAt 1100, .pass {},
          .scanAt .livox 1050 twoPoints, .imuAt 1200, .pass {},
          .scanAt .livox 1100 twoPoints, .imuAt 1300, .pass {}]).1) :=
  (onlyLio_timeBase_iff (by decide) (nodeRun_nodeTrace
    { onlyLioConfig with garbagePropEndTime := 105 / 100 } _)).mp (by decide +kernel)

end FastLivo2
