import FastLivo2.BufferSafety

/-!
# The LIO and VIO halves of a `LIVO` cycle

"For LIVO mode, the time of LIO update is set to be the same as VIO, LIO first than VIO
imediatly": one call cuts a LIO group at the capture time of the buffered image, the next
hands out the buffered image.  Between the two calls `spin_some` runs, and `img_cbk` keeps only
the latest image.  So the two halves belong to one image exactly as long as no image is
accepted between them.

The times of both halves are read off the bundle by `propEndTime`: it is the cut while the last
group was a LIO group, and the capture time once it was a VIO group.
-/

namespace FastLivo2

open ImuProcess (propEndTime SameGroup)

namespace LIVMapper

/-! ## The bundle after a call -/

@[simp] lemma emitLio_lastMeasure (s : LIVMapper) (lioTime : ℚ) (split : Split) :
    (s.emitLio lioTime split).lidarMeasures.lastMeasure =
      { lioTime := lioTime
        imu := (popUpTo Imu.time lioTime s.imuBuffer).1.filter fun imu =>
          s.lidarMeasures.lastLioUpdateTime < imu.time } := by
  simp [emitLio, LidarMeasureGroup.lastMeasure]

@[simp] lemma emitLio_propEndTime (s : LIVMapper) (lioTime : ℚ) (split : Split) :
    propEndTime (s.emitLio lioTime split).lidarMeasures = lioTime := by
  rw [propEndTime, if_pos (show (s.emitLio lioTime split).lidarMeasures.lioVioFlg = .lio from rfl),
    emitLio_lastMeasure]

@[simp] lemma emitVio_lastMeasure (s : LIVMapper) (time : ℚ) (img : Mat) (imgs : List Mat)
    (times : List ℚ) : (s.emitVio time img imgs times).lidarMeasures.lastMeasure =
      { vioTime := time, lioTime := s.lidarMeasures.lastLioUpdateTime, img := img } := by
  simp [emitVio, LidarMeasureGroup.lastMeasure]

@[simp] lemma emitVio_propEndTime (s : LIVMapper) (time : ℚ) (img : Mat) (imgs : List Mat)
    (times : List ℚ) : propEndTime (s.emitVio time img imgs times).lidarMeasures = time := by
  have hflg : (s.emitVio time img imgs times).lidarMeasures.lioVioFlg ≠ .lio := by simp [emitVio]
  rw [propEndTime, if_neg hflg, emitVio_lastMeasure]

/-- The two groups a call hands out in `LIVO` mode. -/
inductive LivoGroup (cfg : Config) (s : LIVMapper) : LIVMapper → Prop
  | lio {updateTime imgTime : ℚ} {taken : List (CloudPtr × ℚ)} {split : Split}
      (cut : LioCut cfg s updateTime imgTime taken split) :
      LivoGroup cfg s ((s.setUpdateTime updateTime).emitLio (imgTime + cfg.exposureTimeInit) split)
  | vio {imgTime : ℚ} {img : Mat} (flg : s.lidarMeasures.lioVioFlg = .lio)
      (image : s.imgTimeBuffer.head? = some imgTime) (mat : s.imgBuffer.head? = some img)
      (imu : s.imuBuffer ≠ []) :
      LivoGroup cfg s (s.emitVio (imgTime + cfg.exposureTimeInit) img s.imgBuffer.tail
        s.imgTimeBuffer.tail)

/-- Both groups need a buffered sample. -/
lemma LivoGroup.imuBuffer_ne_nil {cfg : Config} {s g : LIVMapper} (h : LivoGroup cfg s g) :
    s.imuBuffer ≠ [] := by
  cases h with
  | lio cut =>
      obtain ⟨m, hm, -⟩ := cut.imu
      exact List.ne_nil_of_mem (List.mem_of_getLast? hm)
  | vio _ _ _ imu => exact imu

section Quiet

variable {cfg : Config} {s t : LIVMapper} {ev : Event}

lemma le_of_acceptsImg {msg : Image} (h : s.acceptsImg cfg msg = true) :
    s.lastTimestampImg ≤ imgTime cfg msg := by
  simp only [acceptsImg, imgPasses, Bool.and_eq_true, Bool.not_eq_true', decide_eq_false_iff_not,
    not_lt] at h
  exact h.2.2.2.2.1

lemma livoGroup_of_sync (hmode : cfg.slamMode = .livo) (h : s.syncPackages cfg = .ok (true, t)) :
    LivoGroup cfg s t := by
  have hcase := syncPackages_livo hmode h
  generalize hb : true = b at hcase
  cases hcase with
  | idle => cases hb
  | wait => cases hb
  | throwImage => cases hb
  | lio cut => exact .lio cut
  | vio flg image mat imu => exact .vio flg image mat imu

lemma Steps.livoGroup {g : LIVMapper} (hmode : cfg.slamMode = .livo)
    (h : Steps cfg s ev (some g) t) : LivoGroup cfg s g ∧ Handled g t := by
  obtain ⟨est, -, hsync, hhandled⟩ := h.of_group
  exact ⟨livoGroup_of_sync hmode hsync, hhandled⟩

/-- A call that hands out no group takes no sample and no scan. -/
lemma syncPackages_livo_idle (hmode : cfg.slamMode = .livo)
    (h : s.syncPackages cfg = .ok (false, t)) :
    t.imuBuffer = s.imuBuffer ∧ t.lidRawDataBuffer = s.lidRawDataBuffer := by
  have hcase := syncPackages_livo hmode h
  generalize hb : false = b at hcase
  cases hcase with
  | idle => exact ⟨rfl, rfl⟩
  | wait => exact ⟨rfl, rfl⟩
  | throwImage => exact ⟨rfl, rfl⟩
  | lio => cases hb
  | vio => cases hb

/-- What a turn without a group does to the bundle in `LIVO` mode: it stays, except that a call
before a LIO group may have initialised the update time. -/
structure QuietBundle (s : LIVMapper) (ev : Event) (t : LIVMapper) : Prop where
  group : SameGroup s.lidarMeasures t.lidarMeasures
  update : t.lidarMeasures.lastLioUpdateTime = s.lidarMeasures.lastLioUpdateTime ∨
    (ev.isPass = true ∧
      (s.lidarMeasures.lioVioFlg = .wait ∨ s.lidarMeasures.lioVioFlg = .vio) ∧
      s.UpdateTime t.lidarMeasures.lastLioUpdateTime)

lemma QuietBundle.of_eq (h : t.lidarMeasures = s.lidarMeasures) : QuietBundle s ev t :=
  ⟨h ▸ .refl _, .inl (by rw [h])⟩

lemma quietBundle_of_sync (hmode : cfg.slamMode = .livo) (est : Estimate)
    (h : s.syncPackages cfg = .ok (false, t)) : QuietBundle s (.pass est) t := by
  have hcase := syncPackages_livo hmode h
  generalize hb : false = b at hcase
  cases hcase with
  | idle => exact .of_eq rfl
  | wait flg update => exact ⟨⟨rfl, rfl, rfl, rfl, rfl, rfl, rfl⟩, .inr ⟨rfl, flg, update⟩⟩
  | throwImage flg update => exact ⟨⟨rfl, rfl, rfl, rfl, rfl, rfl, rfl⟩, .inr ⟨rfl, flg, update⟩⟩
  | lio => cases hb
  | vio => cases hb

lemma Steps.quietBundle (hmode : cfg.slamMode = .livo) (h : Steps cfg s ev none t) :
    QuietBundle s ev t := by
  cases h with
  | pclCbk driver msg => exact .of_eq (lidarCbk_frame cfg driver s msg).meas
  | imuCbk cbk => exact .of_eq (imuCbk_frame cbk).meas
  | imgCbk msg => exact .of_eq (imgCbk_frame cfg s msg).meas
  | imuPropCallback => exact .of_eq (imuPropCallback_frame cfg s).2.2
  | @idle est _ sync => exact quietBundle_of_sync hmode est sync

/-- What a turn without a group does to the image deques in `LIVO` mode: nothing, it drops the
front image before a LIO cut, or it files an accepted image. -/
inductive QuietImages (cfg : Config) (s : LIVMapper) (ev : Event) (t : LIVMapper) : Prop
  | same (img : t.imgBuffer = s.imgBuffer) (time : t.imgTimeBuffer = s.imgTimeBuffer)
      (last : t.lastTimestampImg = s.lastTimestampImg)
  | dropped (flg : s.lidarMeasures.lioVioFlg ≠ .lio) (img : t.imgBuffer = s.imgBuffer.tail)
      (time : t.imgTimeBuffer = s.imgTimeBuffer.tail)
      (last : t.lastTimestampImg = s.lastTimestampImg)
  | filed {msg : Image} (event : ev = .imgCbk msg) (accepts : s.acceptsImg cfg msg = true)
      (time : s.imgBuffer.length = s.imgTimeBuffer.length →
        t.imgTimeBuffer = [imgTime cfg msg])
      (last : t.lastTimestampImg = imgTime cfg msg)

lemma quietImages_of_sync (hmode : cfg.slamMode = .livo)
    (h : s.syncPackages cfg = .ok (false, t)) : QuietImages cfg s ev t := by
  have hcase := syncPackages_livo hmode h
  generalize hb : false = b at hcase
  cases hcase with
  | idle => exact .same rfl rfl rfl
  | wait => exact .same rfl rfl rfl
  | throwImage flg =>
      refine .dropped ?_ rfl rfl rfl
      rcases flg with hflg | hflg <;> rw [hflg] <;> exact nofun
  | lio => cases hb
  | vio => cases hb

lemma Steps.quietImages (hmode : cfg.slamMode = .livo) (h : Steps cfg s ev none t) :
    QuietImages cfg s ev t := by
  cases h with
  | pclCbk driver msg =>
      have hframe := lidarCbk_frame cfg driver s msg
      exact .same hframe.img hframe.imgTime hframe.lastImg
  | imuCbk cbk =>
      have hframe := imuCbk_frame cbk
      exact .same hframe.img hframe.imgTime hframe.lastImg
  | imgCbk msg =>
      rcases imgCbk_cases cfg s msg with ⟨-, n, heq⟩ | ⟨haccepts, n, heq⟩
      · rw [heq]
        exact .same rfl rfl rfl
      · rw [heq]
        exact .filed rfl haccepts
          (pushImg_imgTimeBuffer (s := { s with frameCounter := n }) _ _) rfl
  | imuPropCallback =>
      have hframe := (imuPropCallback_frame cfg s).1
      exact .same hframe.img hframe.imgTime hframe.lastImg
  | idle sync => exact quietImages_of_sync hmode sync

end Quiet

end LIVMapper

/-- Where samples are buffered the IMU is in use. -/
lemma imuEn_of_buffered {cfg : Config} {tr : List NodeTurn} {t : LIVMapper}
    (h : NodeRun cfg tr t) :
    ∀ x ∈ tr, x.pre.imuBuffer ≠ [] → cfg.imuEn = true ∧ x.pre.pImu.imuEn = true := by
  intro x hx himu
  have hen : cfg.imuEn = true := by
    by_contra hoff
    exact himu (((LIVMapper.buffersOk_of_run h).2 x hx).1.imuOff (by simpa using hoff))
  exact ⟨hen, (((imuEn_of_run h).2 x hx).1).trans hen⟩

/-! ## One image for both halves -/

/-- The turn accepts no image while the LIO half of a cycle waits for its VIO half. -/
def NoImageBetween (cfg : Config) (x : NodeTurn) : Prop :=
  ∀ msg, x.event = .imgCbk msg → x.pre.lidarMeasures.lioVioFlg = .lio →
    x.pre.acceptsImg cfg msg = false

instance (cfg : Config) : DecidablePred (NoImageBetween cfg) := fun x =>
  decidable_of_iff (∀ msg ∈ x.event.imgMsg, x.pre.lidarMeasures.lioVioFlg = .lio →
    x.pre.acceptsImg cfg msg = false)
    ⟨fun h msg hev => h msg (Event.imgMsg_eq_some.mpr hev),
      fun h msg hmsg => h msg (Event.imgMsg_eq_some.mp hmsg)⟩

/-- A VIO group `b` continues the group `a` before it: that is a LIO group, it was cut at the
time of `b`, and by the image `b` carries. -/
def SameInstant (a b : LIVMapper) : Prop :=
  b.lidarMeasures.lioVioFlg = .vio → a.lidarMeasures.lioVioFlg = .lio ∧
    b.lidarMeasures.lastMeasure.vioTime = a.lidarMeasures.lastMeasure.lioTime ∧
    a.imgBuffer.head? = some b.lidarMeasures.lastMeasure.img

instance : DecidableRel SameInstant := fun a b =>
  inferInstanceAs (Decidable (b.lidarMeasures.lioVioFlg = .vio →
    a.lidarMeasures.lioVioFlg = .lio ∧
      b.lidarMeasures.lastMeasure.vioTime = a.lidarMeasures.lastMeasure.lioTime ∧
      a.imgBuffer.head? = some b.lidarMeasures.lastMeasure.img))

/-- While a LIO half waits, the image it was cut by is at the front: the last group ends at its
capture time. -/
def AtCut (cfg : Config) (s : LIVMapper) : Prop :=
  s.lidarMeasures.lioVioFlg = .lio → ∀ time ∈ s.imgTimeBuffer.head?,
    time + cfg.exposureTimeInit = propEndTime s.lidarMeasures

section AtCut

variable {cfg : Config} {s u : LIVMapper} {ev : Event}

/-- Waiting for the VIO half, the node keeps the images it has: a call that hands out no group
does nothing then, and no image is accepted. -/
lemma images_between (hmode : cfg.slamMode = .livo) (hsteps : LIVMapper.Steps cfg s ev none u)
    (hflg : s.lidarMeasures.lioVioFlg = .lio) (hC : NoImageBetween cfg ⟨s, ev, none, u⟩) :
    u.imgBuffer = s.imgBuffer ∧ u.imgTimeBuffer = s.imgTimeBuffer := by
  cases hsteps.quietImages hmode with
  | same img time _ => exact ⟨img, time⟩
  | dropped flg => exact absurd hflg flg
  | filed event accepts =>
      have hrejects := hC _ event hflg
      rw [accepts] at hrejects
      cases hrejects

lemma AtCut.quiet (h : AtCut cfg s) (hmode : cfg.slamMode = .livo)
    (hsteps : LIVMapper.Steps cfg s ev none u) (hC : NoImageBetween cfg ⟨s, ev, none, u⟩) :
    AtCut cfg u := by
  have hgroup := (hsteps.quietBundle hmode).group
  intro hflg
  rw [hgroup.flg] at hflg
  rw [(images_between hmode hsteps hflg hC).2, hgroup.propEndTime]
  exact h hflg

lemma atCut_of_group {g : LIVMapper} (hgroup : LIVMapper.LivoGroup cfg s g)
    (hhandled : LIVMapper.Handled g u) : AtCut cfg u := by
  rw [AtCut, hhandled.group.flg, hhandled.group.propEndTime, hhandled.buffers.imgTime]
  cases hgroup with
  | @lio updateTime imgTime taken split cut =>
      intro _ time htime
      have himage : s.imgTimeBuffer.head? = some imgTime := cut.image
      obtain rfl : imgTime = time := Option.some.inj (himage.symm.trans htime)
      rw [LIVMapper.emitLio_propEndTime]
  | vio => exact nofun

end AtCut

lemma atCut_of_run {cfg : Config} {tr : List NodeTurn} {t : LIVMapper}
    (hmode : cfg.slamMode = .livo) (h : NodeRun cfg tr t)
    (hC : ∀ x ∈ tr, NoImageBetween cfg x) :
    AtCut cfg t ∧ ∀ x ∈ tr, AtCut cfg x.pre ∧ AtCut cfg x.post := by
  refine h.invariant (I := AtCut cfg) hC (fun hflg => absurd hflg (by simp [Config.initial])) ?_
  intro s ev obs u hsteps hc hpre
  cases obs with
  | none => exact hpre.quiet hmode hsteps hc
  | some g =>
      obtain ⟨hgroup, hhandled⟩ := hsteps.livoGroup hmode
      exact atCut_of_group hgroup hhandled

/-- The time a LIO group is cut at. -/
def cutTime (g : LIVMapper) : ℚ := g.lidarMeasures.lastMeasure.lioTime

/-- The node waits for the VIO half of the LIO group `a`: it holds the image and has not moved the
end of the group. -/
structure HoldsImage (a s : LIVMapper) : Prop where
  flg : a.lidarMeasures.lioVioFlg = .lio
  image : s.imgBuffer.head? = a.imgBuffer.head?
  ends : propEndTime s.lidarMeasures = cutTime a

/-- The groups `gs` handed out so far, and the image the last of them still waits for. -/
structure Cycles (gs : List LIVMapper) (s : LIVMapper) : Prop where
  first : ∀ g ∈ gs.head?, g.lidarMeasures.lioVioFlg ≠ .vio
  chain : gs.IsChain SameInstant
  holds : s.lidarMeasures.lioVioFlg = .lio → ∃ a ∈ gs.getLast?, HoldsImage a s

lemma cycles_initial (cfg : Config) : Cycles [] cfg.initial where
  first := by simp
  chain := List.isChain_nil
  holds := fun h => absurd h (by simp [Config.initial])

section Cycle

variable {cfg : Config} {gs : List LIVMapper} {s g u : LIVMapper}

lemma Cycles.quiet {ev : Event} (h : Cycles gs s) (hmode : cfg.slamMode = .livo)
    (hsteps : LIVMapper.Steps cfg s ev none u) (hC : NoImageBetween cfg ⟨s, ev, none, u⟩) :
    Cycles gs u := by
  have hgroup := (hsteps.quietBundle hmode).group
  refine ⟨h.first, h.chain, fun hflg => ?_⟩
  rw [hgroup.flg] at hflg
  obtain ⟨a, ha, hholds⟩ := h.holds hflg
  have himg := (images_between hmode hsteps hflg hC).1
  exact ⟨a, ha, hholds.flg, by rw [himg, hholds.image], by rw [hgroup.propEndTime, hholds.ends]⟩

lemma Cycles.snoc (h : Cycles gs s) (hfirst : gs = [] → g.lidarMeasures.lioVioFlg ≠ .vio)
    (hlast : ∀ a ∈ gs.getLast?, SameInstant a g)
    (hholds : u.lidarMeasures.lioVioFlg = .lio → HoldsImage g u) : Cycles (gs ++ [g]) u := by
  refine ⟨?_, ?_, fun hflg => ⟨g, by simp, hholds hflg⟩⟩
  · cases gs with
    | nil => simpa using hfirst rfl
    | cons a gs => exact h.first
  · rw [List.isChain_append]
    refine ⟨h.chain, List.isChain_singleton g, fun a ha b hb => ?_⟩
    obtain rfl : g = b := by simpa using hb
    exact hlast a ha

lemma Cycles.group (h : Cycles gs s) (hcut : AtCut cfg s) (hgroup : LIVMapper.LivoGroup cfg s g)
    (hhandled : LIVMapper.Handled g u) : Cycles (gs ++ [g]) u := by
  have hflg := hhandled.group.flg
  have hend := hhandled.group.propEndTime
  have himg := hhandled.buffers.img
  cases hgroup with
  | @lio updateTime imgTime taken split cut =>
      refine h.snoc (fun _ => nofun) (fun a _ => nofun) fun _ => ⟨rfl, by rw [himg], ?_⟩
      rw [hend, LIVMapper.emitLio_propEndTime, cutTime, LIVMapper.emitLio_lastMeasure]
  | @vio imgTime img flg image mat imu =>
      obtain ⟨a, ha, hholds⟩ := h.holds flg
      refine h.snoc ?_ ?_ ?_
      · rintro rfl
        cases ha
      · intro b hb _
        obtain rfl : a = b := Option.some.inj ((Option.mem_def.mp ha).symm.trans hb)
        rw [LIVMapper.emitVio_lastMeasure]
        exact ⟨hholds.flg, (hcut flg imgTime image).trans hholds.ends,
          hholds.image.symm.trans mat⟩
      · intro hu
        rw [hflg] at hu
        cases hu

/-- **Both halves of a cycle belong to one instant.**  In a run of `LIVO` mode that accepts no
image between a LIO group and the VIO group after it, the first group is no VIO group, and each
VIO group has the time and the image its LIO group was cut by. -/
theorem vio_same_instant {tr : List NodeTurn} {t : LIVMapper} (hmode : cfg.slamMode = .livo)
    (h : NodeRun cfg tr t) (hC : ∀ x ∈ tr, NoImageBetween cfg x) :
    (∀ g ∈ (groups tr).head?, g.lidarMeasures.lioVioFlg ≠ .vio) ∧
      (groups tr).IsChain SameInstant := by
  have hcut := (atCut_of_run hmode h hC).2
  have hcycles : Cycles (groups tr) t := by
    refine h.history (P := fun tr s => Cycles (groups tr) s)
      (C := fun x => NoImageBetween cfg x ∧ AtCut cfg x.pre)
      (fun x hx => ⟨hC x hx, (hcut x hx).1⟩) (cycles_initial cfg) ?_
    rintro tr s ev obs u hsteps ⟨hc, hatCut⟩ ih
    rw [groups_snoc]
    cases obs with
    | none => simpa using ih.quiet hmode hsteps hc
    | some g =>
        obtain ⟨hgroup, hhandled⟩ := hsteps.livoGroup hmode
        exact ih.group hatCut hgroup hhandled
  exact ⟨hcycles.first, hcycles.chain⟩

end Cycle

/-- One IMU sample initialises the IMU. -/
def oneSampleConfig : Config := { imuIntFrame := 1 }

/-- Two points 100 ms apart. -/
def hundredMs : PointCloudXYZI := [{}, { curvature := 100 }]

/-- Two scans end to end with an image in the first; the pass hands out the LIO half of the
cycle at 1.05 s. -/
def lioHalf : List Event :=
  [.scanAt .livox 1000 hundredMs, .imuAt 1000, .imuAt 1100, .imgAt 1050,
    .scanAt .livox 1100 hundredMs, .pass {}]

/-- An image between the two halves replaces the one the LIO half was cut by. -/
theorem late_image_differs :
    ¬(groups (nodeTrace {} (lioHalf ++ [.imgAt 1150, .pass {}])).1).IsChain SameInstant := by
  decide +kernel

/-- The same image after the VIO half. -/
theorem late_image_waits :
    (groups (nodeTrace {} (lioHalf ++ [.pass {}, .imgAt 1150, .pass {}])).1).IsChain
      SameInstant :=
  (vio_same_instant (by decide) (nodeRun_nodeTrace {} _) (by decide +kernel)).2

/-! ## The cuts are in order

Whatever is accepted between the halves, an image is stamped no earlier than the one before it.
So no LIO group is cut before the end of the group before. -/

/-- The buffered image is the latest one, and no group reaches past it. -/
structure ImgOrdered (cfg : Config) (s : LIVMapper) : Prop where
  single : s.imgTimeBuffer.length ≤ 1
  latest : ∀ time ∈ s.imgTimeBuffer, time ≤ s.lastTimestampImg
  ended : s.lidarMeasures.lioVioFlg ≠ .wait →
    propEndTime s.lidarMeasures ≤ s.lastTimestampImg + cfg.exposureTimeInit
  ahead : s.lidarMeasures.lioVioFlg ≠ .wait → ∀ time ∈ s.imgTimeBuffer,
    propEndTime s.lidarMeasures ≤ time + cfg.exposureTimeInit

section Order

variable {cfg : Config} {s g u : LIVMapper} {ev : Event} {gs : List LIVMapper}

lemma ImgOrdered.eq_singleton (h : ImgOrdered cfg s) {time : ℚ}
    (himage : s.imgTimeBuffer.head? = some time) : s.imgTimeBuffer = [time] := by
  have hsingle := h.single
  cases hbuf : s.imgTimeBuffer with
  | nil => simp [hbuf] at himage
  | cons a l =>
      obtain rfl : a = time := by simpa [hbuf] using himage
      simpa [hbuf] using hsingle

lemma ImgOrdered.quiet (h : ImgOrdered cfg s) (hmode : cfg.slamMode = .livo)
    (hlength : s.imgBuffer.length = s.imgTimeBuffer.length)
    (hsteps : LIVMapper.Steps cfg s ev none u) : ImgOrdered cfg u := by
  have hgroup := (hsteps.quietBundle hmode).group
  have hflg := hgroup.flg
  have hend := hgroup.propEndTime
  cases hsteps.quietImages hmode with
  | same _ time last =>
      refine ⟨?_, ?_, ?_, ?_⟩
      · rw [time]
        exact h.single
      · rw [time, last]
        exact h.latest
      · rw [hflg, hend, last]
        exact h.ended
      · rw [hflg, hend, time]
        exact h.ahead
  | dropped _ _ time last =>
      refine ⟨?_, ?_, ?_, ?_⟩
      · rw [time, List.length_tail]
        exact (Nat.sub_le _ _).trans h.single
      · rw [time, last]
        exact fun a ha => h.latest a (List.mem_of_mem_tail ha)
      · rw [hflg, hend, last]
        exact h.ended
      · rw [hflg, hend, time]
        exact fun hne a ha => h.ahead hne a (List.mem_of_mem_tail ha)
  | @filed msg _ accepts time last =>
      have hle := LIVMapper.le_of_acceptsImg accepts
      have hbuf := time hlength
      have hended : u.lidarMeasures.lioVioFlg ≠ .wait → propEndTime u.lidarMeasures ≤
          LIVMapper.imgTime cfg msg + cfg.exposureTimeInit := by
        rw [hflg, hend]
        exact fun hne => (h.ended hne).trans (by linarith)
      refine ⟨?_, ?_, ?_, ?_⟩
      · rw [hbuf, List.length_singleton]
      · rw [hbuf, last]
        exact fun a ha => (List.mem_singleton.mp ha).le
      · rwa [last]
      · rw [hbuf]
        intro hne a ha
        rw [List.mem_singleton.mp ha]
        exact hended hne

/-- A group ends at the image in front, which is the latest one accepted. -/
lemma ImgOrdered.group (h : ImgOrdered cfg s) (hgroup : LIVMapper.LivoGroup cfg s g)
    (hhandled : LIVMapper.Handled g u) : ImgOrdered cfg u := by
  have hend := hhandled.group.propEndTime
  have htime := hhandled.buffers.imgTime
  have hlast := hhandled.buffers.lastImg
  cases hgroup with
  | @lio updateTime imgTime taken split cut =>
      have hbuf : u.imgTimeBuffer = [imgTime] := htime.trans (h.eq_singleton cut.image)
      have hle : imgTime ≤ u.lastTimestampImg := by
        rw [hlast]
        exact h.latest imgTime (List.mem_of_head? cut.image)
      rw [LIVMapper.emitLio_propEndTime] at hend
      refine ⟨by rw [hbuf, List.length_singleton], ?_, ?_, ?_⟩
      · rw [hbuf]
        exact fun a ha => (List.mem_singleton.mp ha).trans_le hle
      · rw [hend]
        exact fun _ => by linarith
      · rw [hbuf, hend]
        intro _ a ha
        rw [List.mem_singleton.mp ha]
  | @vio imgTime img flg image mat imu =>
      have hbuf : u.imgTimeBuffer = [] := by
        rw [htime]
        exact congrArg List.tail (h.eq_singleton image)
      have hle : imgTime ≤ u.lastTimestampImg := by
        rw [hlast]
        exact h.latest imgTime (List.mem_of_head? image)
      rw [LIVMapper.emitVio_propEndTime] at hend
      refine ⟨by simp [hbuf], by simp [hbuf], ?_, by simp [hbuf]⟩
      rw [hend]
      exact fun _ => by linarith

end Order

lemma imgOrdered_of_run {cfg : Config} {tr : List NodeTurn} {t : LIVMapper}
    (hmode : cfg.slamMode = .livo) (h : NodeRun cfg tr t) :
    ImgOrdered cfg t ∧ ∀ x ∈ tr, ImgOrdered cfg x.pre ∧ ImgOrdered cfg x.post := by
  have hok := (LIVMapper.buffersOk_of_run h).2
  refine h.invariant (I := ImgOrdered cfg) (C := fun x => LIVMapper.BuffersOk cfg x.pre)
    (fun x hx => (hok x hx).1) ?_ ?_
  · exact ⟨by simp [Config.initial], by simp [Config.initial], fun hne => absurd rfl hne,
      fun hne => absurd rfl hne⟩
  · intro s ev obs u hsteps hbuffers hpre
    cases obs with
    | none => exact hpre.quiet hmode hbuffers.images hsteps
    | some g =>
        obtain ⟨hgroup, hhandled⟩ := hsteps.livoGroup hmode
        exact hpre.group hgroup hhandled

/-- The LIO groups handed out in a run. -/
def lioGroups (tr : List NodeTurn) : List LIVMapper :=
  (groups tr).filter fun g => g.lidarMeasures.lioVioFlg = .lio

lemma lioGroups_snoc_lio {tr : List NodeTurn} {x : NodeTurn} {g : LIVMapper}
    (hx : x.obs = some g) (hflg : g.lidarMeasures.lioVioFlg = .lio) :
    lioGroups (tr ++ [x]) = lioGroups tr ++ [g] := by
  simp [lioGroups, groups_snoc, hx, hflg]

lemma lioGroups_snoc_vio {tr : List NodeTurn} {x : NodeTurn} {g : LIVMapper}
    (hx : x.obs = some g) (hflg : g.lidarMeasures.lioVioFlg = .vio) :
    lioGroups (tr ++ [x]) = lioGroups tr := by
  simp [lioGroups, groups_snoc, hx, hflg]

lemma lioGroups_snoc_none {tr : List NodeTurn} {x : NodeTurn} (hx : x.obs = none) :
    lioGroups (tr ++ [x]) = lioGroups tr := by
  simp [lioGroups, groups_snoc, hx]

/-- The LIO groups `gs` handed out so far are cut in order, and none after the end of the last
group. -/
structure CutsOrdered (gs : List LIVMapper) (s : LIVMapper) : Prop where
  waits : s.lidarMeasures.lioVioFlg = .wait → gs = []
  upTo : ∀ g ∈ gs, cutTime g ≤ propEndTime s.lidarMeasures
  order : gs.Pairwise fun a b => cutTime a ≤ cutTime b

/-- **The cuts are in order**, whatever images are accepted in between. -/
theorem cutsOrdered_of_run {cfg : Config} {tr : List NodeTurn} {t : LIVMapper}
    (hmode : cfg.slamMode = .livo) (h : NodeRun cfg tr t) : CutsOrdered (lioGroups tr) t := by
  have himages := (imgOrdered_of_run hmode h).2
  refine h.history (P := fun tr s => CutsOrdered (lioGroups tr) s)
    (C := fun x => ImgOrdered cfg x.pre) (fun x hx => (himages x hx).1)
    ⟨fun _ => rfl, by simp [lioGroups, groups], by simp [lioGroups, groups]⟩ ?_
  intro tr s ev obs u hsteps himg ih
  cases obs with
  | none =>
      have hgroup := (hsteps.quietBundle hmode).group
      rw [lioGroups_snoc_none rfl]
      refine ⟨?_, ?_, ih.order⟩
      · rw [hgroup.flg]
        exact ih.waits
      · rw [hgroup.propEndTime]
        exact ih.upTo
  | some g =>
      obtain ⟨hgroup, hhandled⟩ := hsteps.livoGroup hmode
      have hflg := hhandled.group.flg
      have hend := hhandled.group.propEndTime
      cases hgroup with
      | @lio updateTime imgTime taken split cut =>
          rw [LIVMapper.emitLio_propEndTime] at hend
          have hnew : cutTime ((s.setUpdateTime updateTime).emitLio
              (imgTime + cfg.exposureTimeInit) split) = imgTime + cfg.exposureTimeInit := by
            rw [cutTime, LIVMapper.emitLio_lastMeasure]
          have hupTo : ∀ g ∈ lioGroups tr, cutTime g ≤ imgTime + cfg.exposureTimeInit := by
            intro a ha
            have hne : s.lidarMeasures.lioVioFlg ≠ .wait := by
              intro hwait
              rw [ih.waits hwait] at ha
              cases ha
            exact (ih.upTo a ha).trans (himg.ahead hne imgTime (List.mem_of_head? cut.image))
          rw [lioGroups_snoc_lio rfl rfl]
          refine ⟨?_, ?_, ?_⟩
          · intro hwait
            rw [hflg] at hwait
            cases hwait
          · rw [hend]
            intro a ha
            rcases List.mem_append.mp ha with ha | ha
            · exact hupTo a ha
            · rw [List.mem_singleton.mp ha, hnew]
          · refine List.pairwise_append.mpr ⟨ih.order, List.pairwise_singleton _ _, ?_⟩
            intro a ha b hb
            rw [List.mem_singleton.mp hb, hnew]
            exact hupTo a ha
      | @vio imgTime img flg image mat imu =>
          rw [LIVMapper.emitVio_propEndTime] at hend
          have hne : s.lidarMeasures.lioVioFlg ≠ .wait := by simp [flg]
          rw [lioGroups_snoc_vio rfl rfl]
          refine ⟨?_, ?_, ih.order⟩
          · intro hwait
            rw [hflg] at hwait
            cases hwait
          · rw [hend]
            exact fun a ha =>
              (ih.upTo a ha).trans (himg.ahead hne imgTime (List.mem_of_head? image))

end FastLivo2
