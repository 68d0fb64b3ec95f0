import FastLivo2.LivoCycle

/-!
# The IMU samples a `LIVO` run delivers

A LIO group takes the samples up to its cut off the deque and keeps those after
`last_lio_update_time`; the others are popped and gone.  So nothing is lost as long as that time
is no later than the cut before.  Two things move it further: a VIO group of a later image, up to
whose time the propagation advances it, and a negative value, which the next call takes for
"never set" and replaces by a header time.

The samples delivered are then a window of the accepted ones, and the deque holds what is beyond
it.
-/

namespace FastLivo2

open ImuProcess (propEndTime)

/-- The samples an `imu_cbk` turn files. -/
def acceptedImu (x : NodeTurn) : List Imu :=
  match x.event with
  | .imuCbk _ => x.post.imuBuffer.drop x.pre.imuBuffer.length
  | _ => []

/-- The samples of a group. -/
def groupImu (g : LIVMapper) : List Imu := g.lidarMeasures.lastMeasure.imu

/-- A call after a VIO group does not take a time beyond that group for the update time. -/
def KeepsUpdateTime (x : NodeTurn) : Prop :=
  x.event.isPass = true → x.pre.lidarMeasures.lioVioFlg = .vio →
    0 ≤ x.pre.lidarMeasures.lastLioUpdateTime ∨
      ∀ time ∈ x.pre.lidHeaderTimeBuffer.head?, time ≤ propEndTime x.pre.lidarMeasures

instance : DecidablePred KeepsUpdateTime := fun x =>
  inferInstanceAs (Decidable (x.event.isPass = true → x.pre.lidarMeasures.lioVioFlg = .vio →
    0 ≤ x.pre.lidarMeasures.lastLioUpdateTime ∨
      ∀ time ∈ x.pre.lidHeaderTimeBuffer.head?, time ≤ propEndTime x.pre.lidarMeasures))

section Accepted

variable {cfg : Config} {s g u : LIVMapper} {ev : Event}

lemma acceptedImu_imuCbk {msg : Imu} (obs : Option LIVMapper)
    (h : LIVMapper.imuCbk cfg s msg = .ok u) :
    u.imuBuffer = s.imuBuffer ++ acceptedImu ⟨s, .imuCbk msg, obs, u⟩ ∧
      (acceptedImu ⟨s, .imuCbk msg, obs, u⟩).length ≤ 1 := by
  dsimp only [acceptedImu]
  rcases LIVMapper.imuCbk_cases h with ⟨-, rfl⟩ | ⟨-, stamp, -, -, -, rfl⟩
  · simp
  · simp [LIVMapper.pushImu]

/-- Without a group, the deque grows by the accepted sample, if there is one. -/
lemma imuBuffer_quiet (hmode : cfg.slamMode = .livo) (h : LIVMapper.Steps cfg s ev none u) :
    u.imuBuffer = s.imuBuffer ++ acceptedImu ⟨s, ev, none, u⟩ ∧
      (acceptedImu ⟨s, ev, none, u⟩ = [] ∨ ∃ m, acceptedImu ⟨s, ev, none, u⟩ = [m]) := by
  cases h with
  | pclCbk driver msg =>
      rw [(LIVMapper.lidarCbk_frame cfg driver s msg).imu]
      exact ⟨(List.append_nil _).symm, .inl rfl⟩
  | imuCbk cbk =>
      obtain ⟨hbuf, hlen⟩ := acceptedImu_imuCbk none cbk
      refine ⟨hbuf, ?_⟩
      rcases Nat.le_one_iff_eq_zero_or_eq_one.mp hlen with hzero | hone
      · exact .inl (List.length_eq_zero_iff.mp hzero)
      · exact .inr (List.length_eq_one_iff.mp hone)
  | imgCbk msg =>
      rw [(LIVMapper.imgCbk_frame cfg s msg).imu]
      exact ⟨(List.append_nil _).symm, .inl rfl⟩
  | imuPropCallback =>
      rw [(LIVMapper.imuPropCallback_frame cfg s).1.imu]
      exact ⟨(List.append_nil _).symm, .inl rfl⟩
  | idle sync =>
      rw [(LIVMapper.syncPackages_livo_idle hmode sync).1]
      exact ⟨(List.append_nil _).symm, .inl rfl⟩

lemma acceptedImu_group (h : LIVMapper.Steps cfg s ev (some g) u) :
    acceptedImu ⟨s, ev, some g, u⟩ = [] := by
  obtain ⟨est, rfl, -, -⟩ := h.of_group
  rfl

/-- The samples of a group lie after the update time it was cut with, up to the cut. -/
lemma groupImu_bounds (h : LIVMapper.LivoGroup cfg s g) :
    ∀ m ∈ groupImu g, g.lidarMeasures.lastLioUpdateTime < m.time ∧ m.time ≤ cutTime g := by
  intro m hm
  cases h with
  | @lio updateTime imgTime taken split cut =>
      rw [groupImu, LIVMapper.emitLio_lastMeasure] at hm
      rw [cutTime, LIVMapper.emitLio_lastMeasure]
      obtain ⟨hpopped, hafter⟩ := List.mem_filter.mp hm
      exact ⟨of_decide_eq_true hafter, key_le_of_mem_popUpTo Imu.time hpopped⟩
  | vio =>
      rw [groupImu, LIVMapper.emitVio_lastMeasure] at hm
      cases hm

end Accepted

/-! ## The slices put together -/

/-- The groups `gs` handed out so far have sliced the samples `arrived`, and the next slice
begins no later than the last one ended. -/
structure ImuSliced (arrived : List Imu) (gs : List LIVMapper) (s : LIVMapper) : Prop where
  waits : s.lidarMeasures.lioVioFlg = .wait → gs = [] ∧ s.imuBuffer = arrived
  sliced : s.lidarMeasures.lioVioFlg ≠ .wait → ∃ start,
    Sliced Imu.time start (propEndTime s.lidarMeasures) arrived (gs.flatMap groupImu)
        s.imuBuffer ∧
      ∀ g ∈ gs, g.lidarMeasures.lioVioFlg = .lio → start < cutTime g
  update : s.lidarMeasures.lioVioFlg ≠ .wait →
    s.lidarMeasures.lastLioUpdateTime ≤ propEndTime s.lidarMeasures

section Slices

variable {cfg : Config} {s g u : LIVMapper} {ev : Event} {arrived : List Imu}
  {gs : List LIVMapper}

/-- The update time a call after a VIO group works with is no later than that group. -/
lemma updateTime_le {obs : Option LIVMapper} {time : ℚ} (h : s.UpdateTime time)
    (hpass : ev.isPass = true) (hflg : s.lidarMeasures.lioVioFlg = .vio)
    (hC : KeepsUpdateTime ⟨s, ev, obs, u⟩)
    (hle : s.lidarMeasures.lastLioUpdateTime ≤ propEndTime s.lidarMeasures) :
    time ≤ propEndTime s.lidarMeasures := by
  rcases h with ⟨-, rfl⟩ | ⟨hneg, hhead⟩
  · exact hle
  · rcases hC hpass hflg with hnonneg | hheader
    · exact absurd hneg (not_lt.mpr hnonneg)
    · exact hheader time hhead

lemma ImuSliced.quiet (h : ImuSliced arrived gs s) (hmode : cfg.slamMode = .livo)
    (hsteps : LIVMapper.Steps cfg s ev none u) (hC : KeepsUpdateTime ⟨s, ev, none, u⟩)
    (hinc : Increasing Imu.time (arrived ++ acceptedImu ⟨s, ev, none, u⟩)) :
    ImuSliced (arrived ++ acceptedImu ⟨s, ev, none, u⟩) gs u := by
  have hbundle := hsteps.quietBundle hmode
  have hflg := hbundle.group.flg
  have hend := hbundle.group.propEndTime
  obtain ⟨hbuf, hone⟩ := imuBuffer_quiet hmode hsteps
  refine ⟨?_, ?_, ?_⟩
  · rw [hflg, hbuf]
    intro hwait
    obtain ⟨hgs, harrived⟩ := h.waits hwait
    exact ⟨hgs, by rw [harrived]⟩
  · rw [hflg, hend, hbuf]
    intro hne
    obtain ⟨start, hsliced, hstart⟩ := h.sliced hne
    refine ⟨start, ?_, hstart⟩
    rcases hone with hnil | ⟨m, hm⟩
    · rw [hnil, List.append_nil, List.append_nil]
      exact hsliced
    · rw [hm] at hinc ⊢
      exact hsliced.arrive hinc
  · rw [hflg, hend]
    intro hne
    rcases hbundle.update with hsame | ⟨hpass, hwait | hvio, hupdate⟩
    · rw [hsame]
      exact h.update hne
    · exact absurd hwait hne
    · exact updateTime_le hupdate hpass hvio hC (h.update hne)

/-- After a group the update time is the one it was cut with, or the end of the group. -/
lemma lastLioUpdateTime_handled (hhandled : LIVMapper.Handled g u) (hen : g.pImu.imuEn = true)
    (hflg : g.lidarMeasures.lioVioFlg = .lio ∨ g.lidarMeasures.lioVioFlg = .vio) :
    u.lidarMeasures.lastLioUpdateTime = g.lidarMeasures.lastLioUpdateTime ∨
      u.lidarMeasures.lastLioUpdateTime = propEndTime g.lidarMeasures := by
  cases hhandled.imu with
  | noImu en => exact absurd hen (by simp [en])
  | init _ _ _ group => exact .inl (by rw [group])
  | undistort _ _ _ _ _ update => exact .inr (update hflg)

/-- The samples still in the deque have arrived. -/
lemma ImuSliced.mem_arrived (h : ImuSliced arrived gs s) {m : Imu} (hm : m ∈ s.imuBuffer) :
    m ∈ arrived := by
  by_cases hwait : s.lidarMeasures.lioVioFlg = .wait
  · rwa [← (h.waits hwait).2]
  · obtain ⟨start, hsliced, -⟩ := h.sliced hwait
    rw [hsliced.waiting] at hm
    exact List.mem_of_mem_filter hm

lemma ImuSliced.lio {updateTime imgTime : ℚ} {taken : List (CloudPtr × ℚ)}
    {split : LIVMapper.Split} {obs : Option LIVMapper} (h : ImuSliced arrived gs s)
    (himg : ImgOrdered cfg s) (cut : LIVMapper.LioCut cfg s updateTime imgTime taken split)
    (hpass : ev.isPass = true) (hinc : Increasing Imu.time arrived)
    (hen : s.pImu.imuEn = true) (hC : KeepsUpdateTime ⟨s, ev, obs, u⟩)
    (hhandled : LIVMapper.Handled
      ((s.setUpdateTime updateTime).emitLio (imgTime + cfg.exposureTimeInit) split) u) :
    ImuSliced arrived
      (gs ++ [(s.setUpdateTime updateTime).emitLio (imgTime + cfg.exposureTimeInit) split]) u := by
  have hflg := hhandled.group.flg
  have hend := hhandled.group.propEndTime
  have hbuf := hhandled.buffers.imu
  have hlast := lastLioUpdateTime_handled hhandled hen (.inl rfl)
  rw [LIVMapper.emitLio_propEndTime] at hend hlast
  have hafter : updateTime < imgTime + cfg.exposureTimeInit := by
    have := cut.after
    linarith
  have hreached : ∃ m ∈ arrived, imgTime + cfg.exposureTimeInit ≤ m.time := by
    obtain ⟨m, hm, hle⟩ := cut.imu
    exact ⟨m, h.mem_arrived (List.mem_of_getLast? hm), hle⟩
  refine ⟨?_, ?_, ?_⟩
  · rw [hflg]
    exact nofun
  · intro _
    rw [hend, hbuf, List.flatMap_append, List.flatMap_singleton, groupImu,
      LIVMapper.emitLio_lastMeasure]
    rcases cut.flg with hwait | hvio
    · -- the first slice begins at the update time
      obtain ⟨rfl, hwaiting⟩ := h.waits hwait
      refine ⟨updateTime, ?_, ?_⟩
      · rw [← hwaiting] at hinc hreached ⊢
        exact Sliced.first Imu.time hinc hafter hreached
      · intro g hg _
        rw [List.mem_singleton.mp hg, cutTime, LIVMapper.emitLio_lastMeasure]
        exact hafter
    · have hne : s.lidarMeasures.lioVioFlg ≠ .wait := by simp [hvio]
      obtain ⟨start, hsliced, hstart⟩ := h.sliced hne
      have hle := himg.ahead hne imgTime (List.mem_of_head? cut.image)
      have hlow := updateTime_le cut.update hpass hvio hC (h.update hne)
      refine ⟨start, hsliced.cut hinc hlow hle hreached, ?_⟩
      intro g hg hlio
      rcases List.mem_append.mp hg with hg | hg
      · exact hstart g hg hlio
      · rw [List.mem_singleton.mp hg, cutTime, LIVMapper.emitLio_lastMeasure]
        exact hsliced.lt.trans_le hle
  · intro _
    rw [hend]
    rcases hlast with hsame | hnow
    · rw [hsame]
      exact hafter.le
    · exact hnow.le

lemma ImuSliced.vio {imgTime : ℚ} {img : Mat} {imgs : List Mat} {times : List ℚ}
    (h : ImuSliced arrived gs s) (hcut : AtCut cfg s)
    (flg : s.lidarMeasures.lioVioFlg = .lio) (image : s.imgTimeBuffer.head? = some imgTime)
    (hen : s.pImu.imuEn = true) (hhandled : LIVMapper.Handled
      (s.emitVio (imgTime + cfg.exposureTimeInit) img imgs times) u) :
    ImuSliced arrived
      (gs ++ [s.emitVio (imgTime + cfg.exposureTimeInit) img imgs times]) u := by
  have hflg := hhandled.group.flg
  have hend := hhandled.group.propEndTime
  have hbuf := hhandled.buffers.imu
  have hlast := lastLioUpdateTime_handled hhandled hen (.inr rfl)
  have hne : s.lidarMeasures.lioVioFlg ≠ .wait := by simp [flg]
  -- the group ends where the LIO group before it was cut, and takes no sample
  rw [LIVMapper.emitVio_propEndTime, hcut flg imgTime image] at hend hlast
  obtain ⟨start, hsliced, hstart⟩ := h.sliced hne
  refine ⟨?_, ?_, ?_⟩
  · rw [hflg]
    exact nofun
  · intro _
    rw [hend, hbuf, List.flatMap_append, List.flatMap_singleton, groupImu,
      LIVMapper.emitVio_lastMeasure, List.append_nil]
    refine ⟨start, hsliced, fun g hg hlio => ?_⟩
    rcases List.mem_append.mp hg with hg | hg
    · exact hstart g hg hlio
    · rw [List.mem_singleton.mp hg] at hlio
      cases hlio
  · intro _
    rw [hend]
    rcases hlast with hsame | hnow
    · rw [hsame]
      exact h.update hne
    · exact hnow.le

end Slices

/-- The samples accepted in a run are sliced by its groups. -/
lemma imuSliced_of_run {cfg : Config} {tr : List NodeTurn} {t : LIVMapper}
    (hmode : cfg.slamMode = .livo) (h : NodeRun cfg tr t)
    (hinc : Increasing Imu.time (tr.flatMap acceptedImu))
    (hC : ∀ x ∈ tr, NoImageBetween cfg x ∧ KeepsUpdateTime x) :
    ImuSliced (tr.flatMap acceptedImu) (groups tr) t := by
  have himages := (imgOrdered_of_run hmode h).2
  have hcuts := (atCut_of_run hmode h fun x hx => (hC x hx).1).2
  have hen := imuEn_of_buffered h
  refine h.history (P := fun tr s => Increasing Imu.time (tr.flatMap acceptedImu) →
      ImuSliced (tr.flatMap acceptedImu) (groups tr) s)
    (C := fun x => ImgOrdered cfg x.pre ∧ AtCut cfg x.pre ∧ KeepsUpdateTime x ∧
      (x.pre.imuBuffer ≠ [] → cfg.imuEn = true ∧ x.pre.pImu.imuEn = true))
    (fun x hx => ⟨(himages x hx).1, (hcuts x hx).1, (hC x hx).2, hen x hx⟩) ?_ ?_ hinc
  · intro _
    exact ⟨fun _ => ⟨rfl, rfl⟩, fun hne => absurd rfl hne, fun hne => absurd rfl hne⟩
  · rintro tr s ev obs u hsteps ⟨himg, hcut, hupdate, himuEn⟩ ih hinc
    rw [List.flatMap_append, List.flatMap_singleton] at hinc ⊢
    have hsliced := ih (List.pairwise_append.mp hinc).1
    rw [groups_snoc]
    cases obs with
    | none =>
        rw [Option.toList_none, List.append_nil]
        exact hsliced.quiet hmode hsteps hupdate hinc
    | some g =>
        obtain ⟨hgroup, hhandled⟩ := hsteps.livoGroup hmode
        obtain ⟨est, rfl, -, -⟩ := hsteps.of_group
        rw [acceptedImu_group hsteps, List.append_nil] at hinc ⊢
        have hsen := (himuEn hgroup.imuBuffer_ne_nil).2
        cases hgroup with
        | lio cut => exact hsliced.lio himg cut rfl hinc hsen hupdate hhandled
        | vio flg image => exact hsliced.vio hcut flg image hsen hhandled

/-- **Every accepted IMU sample is delivered once, in order, and none is lost between cuts.**  In a
run of `LIVO` mode with increasing IMU stamps, in which no image is accepted between a LIO group
and its VIO group and no call re-initialises the update time beyond the last group: the samples
of the groups, one group after the other, are a subsequence of the accepted ones with increasing
stamps; those of a group lie after the update time it was cut with, up to the cut; and every
accepted sample from one cut to another is among them. -/
theorem imu_delivered_once {cfg : Config} {tr : List NodeTurn} {t : LIVMapper}
    (hmode : cfg.slamMode = .livo) (h : NodeRun cfg tr t)
    (hinc : Increasing Imu.time (tr.flatMap acceptedImu))
    (hC : ∀ x ∈ tr, NoImageBetween cfg x ∧ KeepsUpdateTime x) :
    ((groups tr).flatMap groupImu).Sublist (tr.flatMap acceptedImu) ∧
      Increasing Imu.time ((groups tr).flatMap groupImu) ∧
      (∀ g ∈ groups tr, ∀ m ∈ groupImu g,
        g.lidarMeasures.lastLioUpdateTime < m.time ∧ m.time ≤ cutTime g) ∧
      ∀ g ∈ lioGroups tr, ∀ g' ∈ lioGroups tr, ∀ m ∈ tr.flatMap acceptedImu,
        cutTime g ≤ m.time → m.time ≤ cutTime g' → m ∈ (groups tr).flatMap groupImu := by
  have himu := imuSliced_of_run hmode h hinc hC
  have hcuts := cutsOrdered_of_run hmode h
  have hsub : ((groups tr).flatMap groupImu).Sublist (tr.flatMap acceptedImu) := by
    by_cases hwait : t.lidarMeasures.lioVioFlg = .wait
    · rw [(himu.waits hwait).1]
      exact List.nil_sublist _
    · obtain ⟨start, hsliced, -⟩ := himu.sliced hwait
      exact hsliced.sublist
  refine ⟨hsub, List.Pairwise.sublist hsub hinc, ?_, ?_⟩
  · intro g hg
    obtain ⟨x, hx, hobs⟩ := List.mem_filterMap.mp hg
    have hsteps := (h.taken x hx).steps
    rw [hobs] at hsteps
    exact groupImu_bounds (hsteps.livoGroup hmode).1
  · intro g hg g' hg' m hm hfrom hto
    have hne : t.lidarMeasures.lioVioFlg ≠ .wait := by
      intro hwait
      rw [hcuts.waits hwait] at hg
      cases hg
    obtain ⟨start, hsliced, hstart⟩ := himu.sliced hne
    obtain ⟨hgroup, hlio⟩ := List.mem_filter.mp hg
    have hafter := hstart g hgroup (by simpa using hlio)
    exact hsliced.mem_delivered hm (hafter.trans_le hfrom) (hto.trans (hcuts.upTo g' hg'))

/-- As `lioHalf`, with an IMU sample on either side of the cut at 1.05 s. -/
def slicedHalf : List Event :=
  [.scanAt .livox 1000 hundredMs, .imuAt 1040, .imuAt 1080, .imgAt 1050,
    .scanAt .livox 1100 hundredMs, .pass {}]

/-- An image at 1.10 s replaces the one at 1.05 s before the VIO half: the sample at 1.08 s is
accepted, lies between the cuts at 1.05 s and 1.16 s, and reaches no group. -/
theorem imu_sample_lost :
    let r := nodeTrace oneSampleConfig (slicedHalf ++ [.imgAt 1100, .imuAt 1120, .imuAt 1210,
      .pass {}, .imgAt 1160, .pass {}])
    Increasing Imu.time (r.1.flatMap acceptedImu) ∧
      ¬∀ g ∈ lioGroups r.1, ∀ g' ∈ lioGroups r.1, ∀ m ∈ r.1.flatMap acceptedImu,
        cutTime g ≤ m.time → m.time ≤ cutTime g' → m ∈ (groups r.1).flatMap groupImu := by
  unfold Increasing
  decide +kernel

/-- With the images in the order of the groups it reaches the second LIO group. -/
theorem imu_sample_delivered :
    let r := nodeTrace oneSampleConfig (slicedHalf ++ [.pass {}, .imgAt 1150, .imuAt 1120,
      .imuAt 1200, .pass {}])
    (lioGroups r.1).length = 2 ∧
      ∀ g ∈ lioGroups r.1, ∀ g' ∈ lioGroups r.1, ∀ m ∈ r.1.flatMap acceptedImu,
        cutTime g ≤ m.time → m.time ≤ cutTime g' → m ∈ (groups r.1).flatMap groupImu :=
  ⟨by decide +kernel, (imu_delivered_once (by decide) (nodeRun_nodeTrace oneSampleConfig _)
    (by unfold Increasing; decide +kernel) (by decide +kernel)).2.2.2⟩

end FastLivo2
