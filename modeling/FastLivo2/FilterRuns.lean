import FastLivo2.Covariance
import FastLivo2.Run
import FastLivo2.VisualRun

/-!
# The filter between two updates

What the node does to its filter besides the two updates keeps the covariance positive definite,
and no code after the start-up writes a noise parameter.  A callback and `sync_packages` leave the
filter alone, the initialisation of the IMU and the alignment with gravity turn the state and leave
its covariance, and the propagation, with an IMU or without one, adds the noise of the process to
the covariance it has carried over (`FilterSound.processImu`).  Of a visual frame the same is
`processFrame_posDef`, whether the frame finds a point to update with or not.
-/

namespace FastLivo2

open Matrix

/-! ## The propagation -/

namespace ImuProcess

variable {m : Libm} {p : ImuProcess}

lemma getBlock_zero (r c : ℕ) : getBlock 0 r c = 0 := by
  ext i j
  by_cases h : r + i.val < dimState ∧ c + j.val < dimState <;> simp [getBlock, h]

/-- `F_x` of the propagation without an IMU, as a transition without acceleration. -/
lemma constVel_transition (rot gyr vel : M3D) :
    setBlock (setBlock (setBlock 1 0 0 rot) 0 10 gyr) 3 7 vel =
      transition true false rot gyr vel 0 0 0 := by
  rw [transition_eq, setBlock_one_zero, setBlock_eq_add (r := 0) (c := 10),
    setBlock_eq_add (r := 3)]
  · simp
  all_goals simp (disch := omega) only [getBlock_add, getBlock_place, getBlock_one, add_zero]

/-- `cov_w` of the propagation without an IMU. -/
lemma constVel_noise (gyr vel : M3D) :
    setBlock (setBlock 0 10 10 gyr) 7 7 vel = place 10 10 gyr + place 7 7 vel := by
  rw [setBlock_eq_add (r := 10), setBlock_eq_add (r := 7), zero_add]
  · rw [getBlock_add, getBlock_zero, getBlock_place _ (by omega), add_zero]
  · exact getBlock_zero 10 10

/-- The parameters of the noise. -/
def noise (p : ImuProcess) : V3D × V3D × V3D × V3D × ℚ :=
  (p.covGyr, p.covAcc, p.covBiasGyr, p.covBiasAcc, p.covInvExpo)

lemma NoisePositive.congr {p q : ImuProcess} (h : p.NoisePositive) (heq : q.noise = p.noise) :
    q.NoisePositive := by
  obtain ⟨hgyr, hacc, hbiasGyr, hbiasAcc, hinvExpo⟩ :
      q.covGyr = p.covGyr ∧ q.covAcc = p.covAcc ∧ q.covBiasGyr = p.covBiasGyr ∧
        q.covBiasAcc = p.covBiasAcc ∧ q.covInvExpo = p.covInvExpo := by
    simpa only [noise, Prod.mk.injEq] using heq
  exact ⟨hgyr ▸ h.gyr, hacc ▸ h.acc, hbiasGyr ▸ h.biasGyr, hbiasAcc ▸ h.biasAcc,
    hinvExpo ▸ h.invExpo⟩

/-- **Without an IMU** the propagation keeps the noise, and the covariance positive definite. -/
lemma forwardWithoutImu_sound (hExp : ∀ angvel dt, IsUnit (Exp m angvel dt))
    (hp : p.NoisePositive) {meas : LidarMeasureGroup} {stat : StatesGroup} (h : stat.cov.PosDef)
    {r : Processed} (hr : forwardWithoutImu m p meas stat = .ok r) :
    r.imu.noise = p.noise ∧ r.stat.cov.PosDef := by
  unfold forwardWithoutImu forwardSorted at hr
  cases hlast : (sortByTime meas.lidar.points).getLast? with
  | none =>
      simp only [hlast] at hr
      cases hr
  | some lastPt =>
      simp only [hlast] at hr
      obtain rfl := Except.ok.inj hr
      refine ⟨rfl, ?_⟩
      dsimp only
      rw [constVel_transition, constVel_noise, ← Matrix.conjTranspose_eq_transpose_of_trivial]
      apply propagated_posDef (isUnit_transition _ _ _ _ _ _ _ (hExp _ _)) h
      exact (place_posSemidef 10 (scaled_diagonal_posSemidef hp.gyr _)).add
        (place_posSemidef 7 (scaled_diagonal_posSemidef hp.acc _))

/-- The initialisation takes the means of the samples and leaves the noise and the covariance. -/
lemma imuInit_noise {meas : MeasureGroup} {stat stat' : StatesGroup} {q : ImuProcess}
    (h : imuInit m p meas stat = .ok (q, stat')) : q.noise = p.noise ∧ stat'.cov = stat.cov := by
  obtain ⟨p₁, hp₁, h⟩ := bind_eq_ok.mp h
  obtain ⟨lastImu, -, h⟩ := bind_eq_ok.mp h
  have hfirst : p₁.noise = p.noise := by
    unfold imuInitFirstFrame at hp₁
    split_ifs at hp₁
    · split at hp₁
      · cases hp₁
      · obtain rfl := Except.ok.inj hp₁
        rfl
    · obtain rfl := Except.ok.inj hp₁
      rfl
  have hfold : ∀ (imu : List Imu) (q : ImuProcess),
      (imu.foldl imuInitSample q).noise = q.noise := by
    intro imu
    induction imu with
    | nil => exact fun _ => rfl
    | cons a imu ih => exact fun q => ih (imuInitSample q a)
  obtain ⟨rfl, rfl⟩ := Prod.mk.inj (Except.ok.inj h)
  exact ⟨(hfold meas.imu p₁).trans hfirst, rfl⟩

/-- **A call of `Process2`** keeps the noise, and the covariance positive definite. -/
lemma process2_sound (hExp : ∀ angvel dt, IsUnit (Exp m angvel dt)) (hp : p.NoisePositive)
    {meas : LidarMeasureGroup} {stat : StatesGroup} (h : stat.cov.PosDef) {cur : PointCloudXYZI}
    {r : Processed} (hr : process2 m p meas stat cur = .ok r) :
    r.imu.NoisePositive ∧ r.stat.cov.PosDef := by
  unfold process2 at hr
  cases himu : p.imuEn with
  | false =>
      simp only [himu, Bool.not_false, if_true] at hr
      obtain ⟨hnoise, hcov⟩ := forwardWithoutImu_sound hExp hp h hr
      exact ⟨hp.congr hnoise, hcov⟩
  | true =>
      simp only [himu, Bool.not_true, Bool.false_eq_true, if_false] at hr
      split_ifs at hr with hinit hempty
      · obtain rfl := Except.ok.inj hr
        exact ⟨hp, h⟩
      · split at hr
        · cases hr
        · rename_i q stat' heq
          obtain ⟨hnoise, hcov⟩ := imuInit_noise heq
          obtain rfl := Except.ok.inj hr
          exact ⟨hp.congr hnoise, hcov ▸ h⟩
      · obtain rfl := Except.ok.inj hr
        exact ⟨hp.congr rfl, undistortPcl_posDef hExp hp meas h⟩

end ImuProcess

/-! ## The node -/

namespace LIVMapper

variable {cfg : Config} {s t : LIVMapper} {b : Bool}

lemma LivoCase.state (h : LivoCase cfg s b t) : t.state = s.state := by
  cases h <;> rfl

lemma Latched.state (h : s.Latched t) : t.state = s.state := by
  cases h <;> rfl

lemma OnlyLioCase.state (h : OnlyLioCase s b t) : t.state = s.state := by
  cases h with
  | idle => rfl
  | small => rfl
  | wait latched => exact latched.state
  | take latched => exact latched.state

lemma OnlyLoCase.state (h : OnlyLoCase s b t) : t.state = s.state := by
  cases h <;> rfl

/-- `sync_packages` leaves the filter state, in any mode. -/
lemma syncPackages_state (h : s.syncPackages cfg = .ok (b, t)) : t.state = s.state := by
  cases hmode : cfg.slamMode with
  | onlyLo => exact (syncPackages_onlyLo hmode h).state
  | onlyLio => exact (syncPackages_onlyLio hmode h).state
  | livo => exact (syncPackages_livo hmode h).state

/-- The filter is sound: the covariance is positive definite and every noise parameter positive. -/
structure FilterSound (s : LIVMapper) : Prop where
  cov : s.state.cov.PosDef
  noise : s.pImu.NoisePositive

lemma FilterSound.congr (h : s.FilterSound) (hstate : t.state = s.state)
    (himu : t.pImu.noise = s.pImu.noise) : t.FilterSound :=
  ⟨hstate ▸ h.cov, h.noise.congr himu⟩

lemma FilterSound.sync (h : s.FilterSound) (hsync : s.syncPackages cfg = .ok (b, t)) :
    t.FilterSound :=
  h.congr (syncPackages_state hsync) (by rw [(syncPackages_frame hsync).pImu])

/-- A callback leaves the filter alone. -/
lemma FilterSound.callback {ev : Event} {obs : Option LIVMapper} (h : s.FilterSound)
    (hstep : s.step cfg ev = .ok (t, obs)) (hev : ev.isPass = false) : t.FilterSound := by
  cases steps_of_step hstep with
  | pclCbk driver msg =>
      refine h.congr ?_ (by rw [(lidarCbk_frame cfg driver s msg).pImu])
      rcases lidarCbk_cases cfg driver s msg with ⟨-, heq⟩ | ⟨-, -, heq⟩ | ⟨-, heq⟩
      · rw [heq]
      · rw [heq, clearLoopBack_eq]
      · rw [heq, clearLoopBack_eq]
        rfl
  | imuCbk cbk =>
      refine h.congr ?_ (by rw [(imuCbk_frame cbk).pImu])
      rcases imuCbk_cases cbk with ⟨-, rfl⟩ | ⟨-, stamp, -, -, -, rfl⟩ <;> rfl
  | imgCbk msg =>
      refine h.congr ?_ (by rw [(imgCbk_frame cfg s msg).pImu])
      rcases imgCbk_cases cfg s msg with ⟨-, n, heq⟩ | ⟨-, n, heq⟩
      · rw [heq]
      · rw [heq]
        rfl
  | imuPropCallback =>
      refine h.congr ?_ (by rw [(imuPropCallback_frame cfg s).2.1])
      unfold imuPropCallback
      dsimp only
      split_ifs <;> rfl
  | idle => cases hev
  | group => cases hev

lemma FilterSound.handleFirstFrame (h : s.FilterSound) : s.handleFirstFrame.FilterSound := by
  unfold LIVMapper.handleFirstFrame
  split_ifs
  · exact h
  · exact h.congr rfl rfl

/-- **The propagation of a pass** keeps the filter sound. -/
lemma FilterSound.processImu (hExp : ∀ angvel dt, IsUnit (Exp cfg.libm angvel dt))
    (h : s.FilterSound) (ht : s.processImu cfg = .ok t) : t.FilterSound := by
  unfold LIVMapper.processImu at ht
  split at ht
  · cases ht
  · rename_i r hr
    obtain ⟨hnoise, hcov⟩ := ImuProcess.process2_sound hExp h.noise h.cov hr
    obtain rfl := Except.ok.inj ht
    split_ifs
    · unfold gravityAlignment
      split_ifs <;> exact ⟨hcov, hnoise⟩
    · exact ⟨hcov, hnoise⟩

/-- An update leaves the covariance it found, or that of its estimate. -/
lemma FilterSound.stateEstimationAndMapping (h : s.FilterSound) {est : Estimate}
    (hest : est.state.cov.PosDef) : (s.stateEstimationAndMapping cfg est).FilterSound := by
  have hfinish : ({ s with state := est.state }.finishUpdate cfg).FilterSound := by
    unfold finishUpdate
    split_ifs <;> exact ⟨hest, h.noise⟩
  have hlio : (s.handleLIO cfg est).FilterSound := by
    unfold handleLIO
    split_ifs
    · exact h
    · exact hfinish.congr rfl rfl
  have hvio : (s.handleVIO cfg est).FilterSound := by
    unfold handleVIO
    split_ifs
    · exact h
    · exact hfinish.congr rfl rfl
  unfold LIVMapper.stateEstimationAndMapping
  split
  · exact hvio
  · exact hlio
  · exact hlio
  · exact h

end LIVMapper

/-! ## A visual frame -/

/-- **A visual frame** keeps the covariance positive definite.  A frame that returns early leaves
the submap of an earlier one, and no point to update with. -/
lemma VIOManager.processFrame_posDef {L : VioLibs} {cfg : VioConfig} {inp : FrameInput}
    {v w : VIOManager} {e : VisualEkf} (hcfg : cfg.Updates) (hP : inp.state.cov.PosDef)
    (h : processFrame L cfg inp v = .ok (w, e)) : e.state.cov.PosDef := by
  obtain ⟨v₁, v₂, hmiddle, -, -⟩ := processFrame_calls h
  obtain ⟨u, -, -, -, hbegin, ⟨u', hupdate⟩, -, -⟩ := middleFrame_calls hmiddle
  by_cases hzero : u.totalPoints = 0
  · unfold computeJacobianAndUpdateEKF at hupdate
    dsimp only at hupdate
    rw [if_pos hzero] at hupdate
    obtain ⟨-, rfl⟩ := Prod.mk.inj (Except.ok.inj hupdate)
    exact hP
  · obtain ⟨hstale, -⟩ | ⟨htotal, -⟩ := (beginFrame_begun hbegin).submap
    · exact absurd hstale hzero
    · have hpost := computeJacobianAndUpdateEKF_covariance hcfg htotal hP hupdate
      rw [if_neg hzero] at hpost
      exact hpost.posDef (information_posSemidef hcfg.imgPointCov) hP

end FastLivo2
