import FastLivo2.ImuOdometry

/-!
# The history of measurement groups

`sync_packages` appends each group it hands out to `measures`, and everything downstream reads the
last one.  The groups before it are of no use to anyone, so what the history is for asks for one
group, or two while a LIO group waits for its image.

Only `case LIVO` clears the history, before its VIO group (`HistoryCycles`).  In the other two modes
nothing does, and after a run it holds every group handed out (`measures_length_of_run`).

The samples `imu_prop_callback` replays are another matter.  They come off the front of a buffer
that the gate of `imu_cbk` keeps in order, so that what is left is from the last update on, in every
run.
-/

namespace FastLivo2

namespace LIVMapper

/-! ## What a call appends -/

/-- Outside `LIVO` mode a call that hands out a group appends it, and no other call touches the
history. -/
lemma syncPackages_measures {cfg : Config} {s t : LIVMapper} {b : Bool}
    (hmode : cfg.slamMode ≠ .livo) (h : s.syncPackages cfg = .ok (b, t)) :
    t.lidarMeasures.measures.length = s.lidarMeasures.measures.length + b.toNat := by
  cases hm : cfg.slamMode with
  | livo => exact absurd hm hmode
  | onlyLio =>
      cases syncPackages_onlyLio hm h with
      | idle => rfl
      | small => rfl
      | wait latched => cases latched <;> rfl
      | take latched =>
          rw [emitScan, List.length_append]
          cases latched <;> rfl
  | onlyLo =>
      cases syncPackages_onlyLo hm h with
      | idle => rfl
      | latched => exact List.length_append
      | take => exact List.length_append

/-- What a `LIVO` run keeps: there is room for a LIO group unless one waits for its image. -/
structure HistoryCycles (s : LIVMapper) : Prop where
  short : s.lidarMeasures.measures.length ≤ 2
  room : s.lidarMeasures.lioVioFlg ≠ .lio → s.lidarMeasures.measures.length ≤ 1

lemma HistoryCycles.congr {s t : LIVMapper} (h : s.HistoryCycles)
    (hmeasures : t.lidarMeasures.measures = s.lidarMeasures.measures)
    (hflg : t.lidarMeasures.lioVioFlg = s.lidarMeasures.lioVioFlg) : t.HistoryCycles := by
  refine ⟨?_, ?_⟩
  · rw [hmeasures]
    exact h.short
  · rw [hmeasures, hflg]
    exact h.room

lemma HistoryCycles.sync {cfg : Config} {s t : LIVMapper} {b : Bool} (h : s.HistoryCycles)
    (hmode : cfg.slamMode = .livo) (hsync : s.syncPackages cfg = .ok (b, t)) :
    t.HistoryCycles := by
  cases syncPackages_livo hmode hsync with
  | idle => exact h
  | wait => exact h.congr rfl rfl
  | throwImage => exact h.congr rfl rfl
  | lio cut =>
      have hwaits : s.lidarMeasures.lioVioFlg ≠ .lio := by
        rcases cut.flg with hflg | hflg <;> rw [hflg] <;> exact nofun
      refine ⟨?_, fun hflg => absurd rfl hflg⟩
      rw [emitLio, List.length_append]
      exact Nat.succ_le_succ (h.room hwaits)
  | vio => exact ⟨Nat.le_succ 1, fun _ => le_refl 1⟩

end LIVMapper

open LIVMapper

variable {cfg : Config} {tr : List NodeTurn} {t : LIVMapper}

/-! ## The history of a run -/

/-- Only a pass of the loop touches the bundle, and the processing of a group leaves its history
alone. -/
lemma LIVMapper.Steps.history {s u : LIVMapper} {ev : Event} {obs : Option LIVMapper}
    (h : Steps cfg s ev obs u) :
    (obs = none ∧ u.lidarMeasures = s.lidarMeasures) ∨
      ∃ v, s.syncPackages cfg = .ok (obs.isSome, v) ∧ (∀ g ∈ obs, g = v) ∧
        u.lidarMeasures.measures = v.lidarMeasures.measures ∧
        u.lidarMeasures.lioVioFlg = v.lidarMeasures.lioVioFlg := by
  cases h with
  | pclCbk driver msg => exact .inl ⟨rfl, (lidarCbk_frame cfg driver s msg).meas⟩
  | imuCbk cbk => exact .inl ⟨rfl, (imuCbk_frame cbk).meas⟩
  | imgCbk msg => exact .inl ⟨rfl, (imgCbk_frame cfg s msg).meas⟩
  | imuPropCallback => exact .inl ⟨rfl, (imuPropCallback_frame cfg s).2.2⟩
  | idle sync => exact .inr ⟨u, sync, by simp, rfl, rfl⟩
  | group sync handled =>
      refine .inr ⟨_, sync, ?_, handled.group.measures, handled.group.flg⟩
      intro g hg
      exact (Option.mem_some_iff.mp hg).symm

/-- **Outside `LIVO` mode nothing is ever dropped from the history.** -/
theorem measures_length_of_run (h : NodeRun cfg tr t) (hmode : cfg.slamMode ≠ .livo) :
    t.lidarMeasures.measures.length = (groups tr).length := by
  refine h.history (P := fun tr s => s.lidarMeasures.measures.length = (groups tr).length)
    (C := fun _ => True) (fun _ _ => trivial) rfl ?_
  intro tr s ev obs u hsteps _ ih
  rw [groups_snoc, List.length_append, ← ih]
  rcases hsteps.history with ⟨rfl, hsame⟩ | ⟨v, hsync, -, hmeasures, -⟩
  · rw [hsame]
    rfl
  · rw [hmeasures, syncPackages_measures hmode hsync]
    cases obs <;> rfl

/-- The node has the property throughout a run: before and after each turn, and as the processing
of a group finds it. -/
def Throughout (P : LIVMapper → Prop) (tr : List NodeTurn) (t : LIVMapper) : Prop :=
  P t ∧ ∀ x ∈ tr, P x.pre ∧ P x.post ∧ ∀ g ∈ x.obs, P g

namespace Throughout

variable {P Q : LIVMapper → Prop}

lemma mono (h : Throughout P tr t) (hPQ : ∀ s, P s → Q s) : Throughout Q tr t := by
  refine ⟨hPQ t h.1, ?_⟩
  intro x hx
  obtain ⟨hpre, hpost, hobs⟩ := h.2 x hx
  exact ⟨hPQ _ hpre, hPQ _ hpost, fun g hg => hPQ g (hobs g hg)⟩

lemma snoc {s : LIVMapper} {ev : Event} {obs : Option LIVMapper} (h : Throughout P tr s)
    (ht : P t) (hobs : ∀ g ∈ obs, P g) : Throughout P (tr ++ [⟨s, ev, obs, t⟩]) t := by
  refine ⟨ht, ?_⟩
  intro x hx
  rcases List.mem_append.mp hx with hx | hx
  · exact h.2 x hx
  · obtain rfl := List.mem_singleton.mp hx
    exact ⟨h.1, ht, hobs⟩

end Throughout

/-- In `LIVO` mode the history keeps to its cycle. -/
lemma historyCycles_of_run (h : NodeRun cfg tr t) (hmode : cfg.slamMode = .livo) :
    Throughout HistoryCycles tr t := by
  refine h.history (P := Throughout HistoryCycles) (C := fun _ => True) (fun _ _ => trivial) ?_ ?_
  · exact ⟨⟨Nat.zero_le _, fun _ => Nat.zero_le _⟩, by simp⟩
  intro tr s ev obs u hsteps _ ih
  rcases hsteps.history with ⟨rfl, hsame⟩ | ⟨v, hsync, hobs, hmeasures, hflg⟩
  · exact ih.snoc (ih.1.congr (by rw [hsame]) (by rw [hsame])) (by simp)
  · have hv := ih.1.sync hmode hsync
    refine ih.snoc (hv.congr hmeasures hflg) ?_
    intro g hg
    rw [hobs g hg]
    exact hv

/-- Outside `LIVO` mode the history is at its longest at the end. -/
lemma longest_at_end (h : NodeRun cfg tr t) (hmode : cfg.slamMode ≠ .livo) :
    Throughout (fun s => s.lidarMeasures.measures.length ≤ t.lidarMeasures.measures.length)
      tr t := by
  refine h.history (P := fun tr t => Throughout (fun s => s.lidarMeasures.measures.length ≤
    t.lidarMeasures.measures.length) tr t) (C := fun _ => True) (fun _ _ => trivial) ?_ ?_
  · exact ⟨le_refl _, by simp⟩
  intro tr s ev obs u hsteps _ ih
  rcases hsteps.history with ⟨rfl, hsame⟩ | ⟨v, hsync, hobs, hmeasures, -⟩
  · rw [hsame]
    exact ih.snoc (by rw [hsame]) (by simp)
  · have hgrows : s.lidarMeasures.measures.length ≤ u.lidarMeasures.measures.length := by
      rw [hmeasures, syncPackages_measures hmode hsync]
      exact Nat.le_add_right _ _
    refine (ih.mono fun w hw => hw.trans hgrows).snoc (le_refl _) ?_
    intro g hg
    rw [hobs g hg, hmeasures]

/-! ## The buffer of the odometry -/

/-- In this turn the timer replays the buffer, for the first time after an update. -/
def UpdatesState (cfg : Config) (x : NodeTurn) : Prop :=
  Published cfg x ∧ x.pre.stateUpdateFlg = true

instance (cfg : Config) : DecidablePred (UpdatesState cfg) :=
  fun _ => inferInstanceAs (Decidable (_ ∧ _))

/-- What the replay leaves in the buffer is from the update on. -/
lemma recent_of_replay {x : NodeTurn} (h : NodeRun cfg tr x.pre)
    (hx : x.Taken (LIVMapper.step cfg)) (hupdates : UpdatesState cfg x) :
    ∀ imu ∈ x.post.propImuBuffer, x.post.latestEkfTime ≤ imu.time := by
  obtain ⟨s, ev, obs, u⟩ := x
  obtain ⟨⟨htick, hpub⟩, hflg⟩ := hupdates
  obtain rfl : ev = .imuPropCallback := by
    cases ev with
    | imuPropCallback => rfl
    | _ => cases htick
  have hpost : u = s.replayTick cfg := by
    have hsteps : Steps cfg s .imuPropCallback obs u := hx.steps
    cases hsteps
    rcases imuPropCallback_cases cfg s with ⟨hno, -⟩ | ⟨-, -, heq⟩ | ⟨-, hold, -⟩
    · exact absurd hpub hno
    · exact heq
    · exact absurd (hold.symm.trans hflg) Bool.false_ne_true
  have hordered : s.BufferOrdered := bufferOrdered_of_run h
  subst hpost
  intro imu himu
  change imu ∈ s.propImuBuffer.dropWhile (fun imu => decide (imu.time < s.latestEkfTime)) at himu
  rw [dropWhile_eq_filter Imu.time hordered.1 s.latestEkfTime] at himu
  exact of_decide_eq_true (List.mem_filter.mp himu).2

/-! ## Memory -/

/-- What the node keeps does not grow with the run: the history holds at most two groups at any
time, and the buffer of the odometry, once replayed, nothing from before the update. -/
structure MemoryBounded (cfg : Config) (tr : List NodeTurn) (t : LIVMapper) : Prop where
  measures : Throughout (fun s => s.lidarMeasures.measures.length ≤ 2) tr t
  imu : ∀ x ∈ tr, UpdatesState cfg x →
    ∀ imu ∈ x.post.propImuBuffer, x.post.latestEkfTime ≤ imu.time

/-- **When the memory of a run is bounded.**  The buffer of the odometry always is.  The history is
in `LIVO` mode, and otherwise only as long as no third group has been handed out. -/
theorem memoryBounded_iff (h : NodeRun cfg tr t) :
    MemoryBounded cfg tr t ↔ cfg.slamMode = .livo ∨ (groups tr).length ≤ 2 := by
  have himu : ∀ x ∈ tr, UpdatesState cfg x →
      ∀ imu ∈ x.post.propImuBuffer, x.post.latestEkfTime ≤ imu.time :=
    h.each fun tr x hrun hx => recent_of_replay hrun hx
  constructor
  · rintro ⟨hmeasures, -⟩
    by_cases hmode : cfg.slamMode = .livo
    · exact .inl hmode
    · right
      rw [← measures_length_of_run h hmode]
      exact hmeasures.1
  · intro hcond
    refine ⟨?_, himu⟩
    by_cases hmode : cfg.slamMode = .livo
    · exact (historyCycles_of_run h hmode).mono fun s hs => hs.short
    · have hlen := hcond.resolve_left hmode
      rw [← measures_length_of_run h hmode] at hlen
      exact (longest_at_end h hmode).mono fun s hs => hs.trans hlen

/-- Two groups, and a replay that leaves the last sample. -/
theorem memoryBounded_twoGroups :
    let r := nodeTrace odometryConfig (firstUpdate ++ [.imuPropCallback])
    (r.1.filter fun x => UpdatesState odometryConfig x).length = 1 ∧
      r.2.propImuBuffer.length = 1 ∧ MemoryBounded odometryConfig r.1 r.2 :=
  ⟨by decide +kernel, by decide +kernel,
    (memoryBounded_iff (nodeRun_nodeTrace odometryConfig _)).mpr (.inr (by decide +kernel))⟩

/-- Three scans, each with samples past its end. -/
def thirdGroup : List Event :=
  [.scanAt .livox 1000 hundredMs, restAt 1050, restAt 1110, .pass {},
    .scanAt .livox 1100 hundredMs, restAt 1150, restAt 1210, .pass {},
    .scanAt .livox 1200 hundredMs, restAt 1250, restAt 1310, .pass {}]

/-- In `ONLY_LIO` mode the history keeps all three groups. -/
theorem thirdGroup_not_bounded :
    let r := nodeTrace odometryConfig thirdGroup
    odometryConfig.slamMode = .onlyLio ∧ r.2.lidarMeasures.measures.length = 3 ∧
      ¬MemoryBounded odometryConfig r.1 r.2 := by
  have hmode : odometryConfig.slamMode = .onlyLio := by decide
  have hgroups : (groups (nodeTrace odometryConfig thirdGroup).1).length = 3 := by decide +kernel
  have hthree := measures_length_of_run (nodeRun_nodeTrace odometryConfig thirdGroup)
    (by simp [hmode])
  rw [hgroups] at hthree
  refine ⟨hmode, hthree, fun hbounded => ?_⟩
  have hshort : (nodeTrace odometryConfig thirdGroup).2.lidarMeasures.measures.length ≤ 2 :=
    hbounded.measures.1
  rw [hthree] at hshort
  exact absurd hshort (by decide)

end FastLivo2
