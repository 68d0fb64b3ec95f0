import FastLivo2.Run

/-!
# What `sync_packages` reads from the ends of the deques

The three guards at the top of `sync_packages` are conditioned on the enable flags; the branches
below them take `front()`, `back()` and `points.back()` unconditionally.  Whether that is safe
depends on what the callbacks can have put into the buffers with those flags, and on clouds
the preprocessing has emptied: `livox_pcl_cbk` refuses them, `standard_pcl_cbk` files them.

`BuffersOk` collects what holds of the buffers in every reachable state, and
`syncPackages_returns_iff` says for each mode when exactly a call on such buffers returns.
-/

namespace FastLivo2

/-! ## Ends of non-empty deques -/

lemma front_returns {α : Type*} {l : List α} (h : l ≠ []) : ∃ a, front l = .ok a := by
  obtain ⟨a, l', rfl⟩ := List.exists_cons_of_ne_nil h
  exact ⟨a, rfl⟩

lemma popFront_returns {α : Type*} {l : List α} (h : l ≠ []) : ∃ l', popFront l = .ok l' := by
  obtain ⟨a, l', rfl⟩ := List.exists_cons_of_ne_nil h
  exact ⟨l', rfl⟩

lemma back_returns {α : Type*} {l : List α} (h : l ≠ []) : ∃ a, back l = .ok a :=
  ⟨l.getLast h, back_eq_ok.mpr (List.getLast?_eq_some_getLast h)⟩

/-- A call that returns hands its result on. -/
lemma bind_returns {α β : Type} {x : Except Fault α} {f : α → Except Fault β} {a : α}
    (hx : x = .ok a) (hf : ∃ b, f a = .ok b) : ∃ b, (x >>= f) = .ok b := by
  obtain ⟨b, hb⟩ := hf
  exact ⟨b, bind_eq_ok.mpr ⟨a, hx, hb⟩⟩

namespace LIVMapper

/-! ## The invariant -/

/-- What holds of the buffers in every reachable state: no scan without a header time, no image
without its time; a disabled sensor leaves its buffer empty, and a disabled LiDAR all of them;
`ONLY_LO` latches and pops in one call, and `LIVO` never enters the `LO` state. -/
structure BuffersOk (cfg : Config) (s : LIVMapper) : Prop where
  scans : s.lidRawDataBuffer.length ≤ s.lidHeaderTimeBuffer.length
  images : s.imgBuffer.length = s.imgTimeBuffer.length
  lidarOff : cfg.lidarEn = false → s.lidRawDataBuffer = [] ∧ s.imuBuffer = [] ∧
    s.imgBuffer = [] ∧ s.lastTimestampLidar < 0
  imuOff : cfg.imuEn = false → s.imuBuffer = []
  onlyLo : cfg.slamMode = .onlyLo → s.lidarPushed = false
  livo : cfg.slamMode = .livo → s.lidarMeasures.lioVioFlg ≠ .lo

lemma buffersOk_initial (cfg : Config) : BuffersOk cfg cfg.initial where
  scans := le_rfl
  images := rfl
  lidarOff := fun _ => ⟨rfl, rfl, rfl, by norm_num [Config.initial]⟩
  imuOff := fun _ => rfl
  onlyLo := fun _ => rfl
  livo := fun _ => by simp [Config.initial]

section Steps

variable {cfg : Config} {s t : LIVMapper}

lemma BuffersOk.lidarCbk (h : BuffersOk cfg s) (driver : LidarDriver) (msg : LidarMsg) :
    BuffersOk cfg (LIVMapper.lidarCbk cfg driver s msg) := by
  rcases lidarCbk_cases cfg driver s msg with ⟨-, heq⟩ | ⟨-, hen, heq⟩ | ⟨hfiles, heq⟩
  · rwa [heq]
  · rw [heq, clearLoopBack_eq]
    refine ⟨?_, h.images, fun hoff => absurd hen (by simp [hoff]), h.imuOff, h.onlyLo, h.livo⟩
    show (if _ then _ else _ : List CloudPtr).length ≤ _
    split_ifs
    · exact Nat.zero_le _
    · exact h.scans
  · rw [heq]
    have hscans := h.scans
    refine ⟨?_, ?_, fun hoff => absurd hfiles.1 (by simp [hoff]), ?_, ?_, ?_⟩
    · rw [pushScan_lidRawDataBuffer, pushScan_lidHeaderTimeBuffer, clearLoopBack_eq]
      simp only [List.length_drop, List.length_append, List.length_singleton]
      split_ifs
      · simp only [List.length_nil]
        omega
      · omega
    · simpa only [pushScan, clearLoopBack_eq] using h.images
    · simpa only [pushScan, clearLoopBack_eq] using h.imuOff
    · simpa only [pushScan, clearLoopBack_eq] using h.onlyLo
    · simpa only [pushScan, clearLoopBack_eq] using h.livo

lemma BuffersOk.imuCbk {msg : Imu} (h : BuffersOk cfg s)
    (hcbk : LIVMapper.imuCbk cfg s msg = .ok t) : BuffersOk cfg t := by
  rcases imuCbk_cases hcbk with ⟨-, rfl⟩ | ⟨haccepts, stamp, himu, -, -, rfl⟩
  · exact h
  · have hlidar : ¬s.lastTimestampLidar < 0 := by
      intro hlt
      simp [acceptsImu, hlt] at haccepts
    exact ⟨h.scans, h.images, fun hoff => absurd (h.lidarOff hoff).2.2.2 hlidar,
      fun hoff => absurd himu (by simp [hoff]), h.onlyLo, h.livo⟩

lemma BuffersOk.imgCbk (h : BuffersOk cfg s) (msg : Image) :
    BuffersOk cfg (LIVMapper.imgCbk cfg s msg) := by
  rcases imgCbk_cases cfg s msg with ⟨-, n, heq⟩ | ⟨haccepts, n, heq⟩
  · rw [heq]
    exact ⟨h.scans, h.images, h.lidarOff, h.imuOff, h.onlyLo, h.livo⟩
  · have hlidar : ¬s.lastTimestampLidar < 0 := by
      intro hlt
      simp [acceptsImg, imgPasses, hlt] at haccepts
    have htime := pushImg_imgTimeBuffer (s := { s with frameCounter := n })
      (getImageFromMsg cfg msg) (imgTime cfg msg) h.images
    rw [heq]
    refine ⟨h.scans, ?_, fun hoff => absurd (h.lidarOff hoff).2.2.2 hlidar, h.imuOff, h.onlyLo,
      h.livo⟩
    rw [pushImg_imgBuffer, htime]
    rfl

/-- `ONLY_LO` clears the latch it sets. -/
lemma syncPackages_lidarPushed {b : Bool} (hmode : cfg.slamMode = .onlyLo)
    (hpushed : s.lidarPushed = false) (h : s.syncPackages cfg = .ok (b, t)) :
    t.lidarPushed = false := by
  cases syncPackages_onlyLo hmode h with
  | idle => exact hpushed
  | latched => rfl
  | take => rfl

lemma syncPackages_flg {b : Bool} (hmode : cfg.slamMode = .livo)
    (hflg : s.lidarMeasures.lioVioFlg ≠ .lo) (h : s.syncPackages cfg = .ok (b, t)) :
    t.lidarMeasures.lioVioFlg ≠ .lo := by
  cases syncPackages_livo hmode h with
  | idle => exact hflg
  | wait => exact hflg
  | throwImage => exact hflg
  | lio => exact nofun
  | vio => exact nofun

lemma BuffersOk.sync {b : Bool} (h : BuffersOk cfg s)
    (hsync : s.syncPackages cfg = .ok (b, t)) : BuffersOk cfg t := by
  have hframe := syncPackages_frame hsync
  obtain ⟨taken, hraw, hheader⟩ := hframe.pops
  refine ⟨?_, ?_, ?_, ?_, fun hmode => ?_, fun hmode => ?_⟩
  · have hscans := h.scans
    rw [hraw, hheader] at hscans
    simpa using hscans
  · rcases hframe.img with ⟨himg, htime⟩ | ⟨himg, htime⟩
    · rw [himg, htime]
      exact h.images
    · rw [himg, htime, List.length_tail, List.length_tail, h.images]
  · intro hoff
    obtain ⟨hnoraw, hnoimu, hnoimg, hlast⟩ := h.lidarOff hoff
    refine ⟨?_, ?_, ?_, hframe.lastLidar ▸ hlast⟩
    · rw [hnoraw] at hraw
      exact (List.append_eq_nil_iff.mp hraw.symm).2
    · exact List.suffix_nil.mp (hnoimu ▸ hframe.imu)
    · rcases hframe.img with ⟨himg, -⟩ | ⟨himg, -⟩
      · rw [himg, hnoimg]
      · rw [himg, hnoimg, List.tail_nil]
  · intro hoff
    exact List.suffix_nil.mp (h.imuOff hoff ▸ hframe.imu)
  · exact syncPackages_lidarPushed hmode (h.onlyLo hmode) hsync
  · exact syncPackages_flg hmode (h.livo hmode) hsync

lemma BuffersOk.sameBuffers (h : BuffersOk cfg s) (hsame : SameBuffers s t)
    (hflg : t.lidarMeasures.lioVioFlg = s.lidarMeasures.lioVioFlg) : BuffersOk cfg t where
  scans := by
    rw [hsame.raw, hsame.header]
    exact h.scans
  images := by
    rw [hsame.img, hsame.imgTime]
    exact h.images
  lidarOff := by
    rw [hsame.raw, hsame.imu, hsame.img, hsame.lastLidar]
    exact h.lidarOff
  imuOff := by
    rw [hsame.imu]
    exact h.imuOff
  onlyLo := by
    rw [hsame.pushed]
    exact h.onlyLo
  livo := by
    rw [hflg]
    exact h.livo

/-- Every event keeps the buffers in order. -/
lemma BuffersOk.steps {ev : Event} {obs : Option LIVMapper} (h : BuffersOk cfg s)
    (hsteps : Steps cfg s ev obs t) : BuffersOk cfg t := by
  cases hsteps with
  | pclCbk driver msg => exact h.lidarCbk driver msg
  | imuCbk cbk => exact h.imuCbk cbk
  | imgCbk msg => exact h.imgCbk msg
  | imuPropCallback =>
      obtain ⟨hsame, -, hmeas⟩ := imuPropCallback_frame cfg s
      exact h.sameBuffers hsame (by rw [hmeas])
  | idle sync => exact h.sync sync
  | group sync handled => exact (h.sync sync).sameBuffers handled.buffers handled.group.flg

end Steps

/-- **The buffers are in order in every reachable state.** -/
theorem buffersOk_of_run {cfg : Config} {tr : List NodeTurn} {t : LIVMapper}
    (h : NodeRun cfg tr t) :
    BuffersOk cfg t ∧ ∀ x ∈ tr, BuffersOk cfg x.pre ∧ BuffersOk cfg x.post :=
  h.invariant (I := BuffersOk cfg) (C := fun _ => True) (fun _ _ => trivial)
    (buffersOk_initial cfg) fun _ _ _ _ hsteps _ hpre => hpre.steps hsteps

/-! ## When a call returns -/

lemma initUpdateTime_returns {s : LIVMapper} (h : s.lidHeaderTimeBuffer ≠ []) :
    ∃ t, s.initUpdateTime = .ok t := by
  obtain ⟨time, htime⟩ := front_returns h
  unfold initUpdateTime
  split_ifs
  · rw [htime]
    exact ⟨_, rfl⟩
  · exact ⟨_, rfl⟩

section Returns

variable {cfg : Config} {s : LIVMapper}

lemma syncLivoLio_returns (hraw : s.lidRawDataBuffer ≠ [])
    (hscans : s.lidRawDataBuffer.length ≤ s.lidHeaderTimeBuffer.length) (himg : s.imgBuffer ≠ [])
    (himgTime : s.imgTimeBuffer ≠ []) (himu : s.imuBuffer ≠ [])
    (hnewest : ∀ scan ∈ s.lidRawDataBuffer.getLast?, scan.points ≠ []) :
    ∃ r, s.syncLivoLio cfg = .ok r := by
  have hheader : s.lidHeaderTimeBuffer ≠ [] := by
    intro hnil
    rw [hnil] at hscans
    exact hraw (List.length_eq_zero_iff.mp (Nat.le_zero.mp hscans))
  obtain ⟨imgTime, hfront⟩ := front_returns himgTime
  obtain ⟨u, hinit⟩ := initUpdateTime_returns hheader
  obtain ⟨updateTime, -, rfl⟩ := initUpdateTime_eq_ok hinit
  obtain ⟨lastHeader, hlastHeader⟩ := back_returns hheader
  obtain ⟨lastScan, hlastScan⟩ := back_returns hraw
  obtain ⟨lastPt, hlastPt⟩ := backPoint_ok (hnewest lastScan (back_eq_ok.mp hlastScan))
  obtain ⟨lastImu, hlastImu⟩ := back_returns himu
  unfold syncLivoLio
  refine bind_returns hfront (bind_returns hinit (bind_returns hlastHeader
    (bind_returns hlastScan (bind_returns hlastPt (bind_returns hlastImu ?_)))))
  dsimp only
  split_ifs
  · obtain ⟨imgBuffer, hbuf⟩ := popFront_returns himg
    obtain ⟨imgTimeBuffer, htime⟩ := popFront_returns himgTime
    exact bind_returns hbuf (bind_returns htime ⟨_, rfl⟩)
  · exact ⟨_, rfl⟩
  · obtain ⟨split, hsplit⟩ := splitScans_returns
      (s.setUpdateTime updateTime).lidarMeasures.lastLioUpdateTime
      (imgTime + cfg.exposureTimeInit) s.lidarMeasures.pclProcNext [] hscans
    exact bind_returns hsplit ⟨_, rfl⟩

lemma syncLivoVio_returns (himg : s.imgBuffer ≠ []) (himgTime : s.imgTimeBuffer ≠ [])
    (himu : s.imuBuffer ≠ []) : ∃ r, s.syncLivoVio cfg = .ok r := by
  obtain ⟨imgTime, hfront⟩ := front_returns himgTime
  obtain ⟨imu, hfrontImu⟩ := front_returns himu
  obtain ⟨img, hfrontImg⟩ := front_returns himg
  obtain ⟨imgBuffer, hbuf⟩ := popFront_returns himg
  obtain ⟨imgTimeBuffer, htime⟩ := popFront_returns himgTime
  unfold syncLivoVio
  exact bind_returns hfront (bind_returns hfrontImu (bind_returns hfrontImg
    (bind_returns hbuf (bind_returns htime ⟨_, rfl⟩))))

lemma syncOnlyLio_returns (hraw : s.lidRawDataBuffer ≠ [])
    (hscans : s.lidRawDataBuffer.length ≤ s.lidHeaderTimeBuffer.length) :
    ∃ r, s.syncOnlyLio cfg = .ok r := by
  have hheader : s.lidHeaderTimeBuffer ≠ [] := by
    intro hnil
    rw [hnil] at hscans
    exact hraw (List.length_eq_zero_iff.mp (Nat.le_zero.mp hscans))
  obtain ⟨u, hinit⟩ := initUpdateTime_returns hheader
  obtain ⟨updateTime, -, rfl⟩ := initUpdateTime_eq_ok hinit
  have hlatch : ∃ r, (s.setUpdateTime updateTime).latchScan = .ok r := by
    unfold latchScan
    split_ifs
    · exact ⟨_, rfl⟩
    · obtain ⟨lidar, hlidar⟩ := front_returns hraw
      refine bind_returns hlidar ?_
      split_ifs with hsmall
      · exact ⟨_, rfl⟩
      · obtain ⟨begTime, hbeg⟩ := front_returns hheader
        have hpoints : lidar.points ≠ [] := by
          intro hnil
          simp [hnil] at hsmall
        obtain ⟨lastPt, hlast⟩ := backPoint_ok hpoints
        exact bind_returns hbeg (bind_returns hlast ⟨_, rfl⟩)
  obtain ⟨⟨latched, v⟩, hv⟩ := hlatch
  unfold syncOnlyLio
  refine bind_returns hinit (bind_returns hv ?_)
  dsimp only
  split_ifs with hlatched
  · have hdeques : v.lidRawDataBuffer = s.lidRawDataBuffer ∧
        v.lidHeaderTimeBuffer = s.lidHeaderTimeBuffer := by
      rcases latchScan_cases hv with ⟨-, h⟩ | ⟨hfalse, -⟩
      · exact h.deques
      · exact absurd hlatched (by simp [hfalse])
    unfold takeScan
    split_ifs
    · exact ⟨_, rfl⟩
    · obtain ⟨raw, hpopRaw⟩ := popFront_returns (hdeques.1 ▸ hraw)
      obtain ⟨header, hpopHeader⟩ := popFront_returns (hdeques.2 ▸ hheader)
      exact bind_returns hpopRaw (bind_returns hpopHeader ⟨_, rfl⟩)
  · exact ⟨_, rfl⟩

lemma latchScanLo_returns
    (hscans : s.lidRawDataBuffer.length ≤ s.lidHeaderTimeBuffer.length)
    (holdest : ∀ scan ∈ s.lidRawDataBuffer.head?, scan.points ≠ []) :
    ∃ latched, s.latchScanLo = .ok latched := by
  unfold latchScanLo
  split_ifs with hpushed hempty
  · exact ⟨_, rfl⟩
  · exact ⟨_, rfl⟩
  · have hraw : s.lidRawDataBuffer ≠ [] := by simpa using hempty
    have hheader : s.lidHeaderTimeBuffer ≠ [] := by
      intro hnil
      rw [hnil] at hscans
      exact hraw (List.length_eq_zero_iff.mp (Nat.le_zero.mp hscans))
    obtain ⟨lidar, hlidar⟩ := front_returns hraw
    obtain ⟨begTime, hbeg⟩ := front_returns hheader
    obtain ⟨lastPt, hlast⟩ := backPoint_ok (holdest lidar (front_eq_ok.mp hlidar))
    exact bind_returns hlidar (bind_returns hbeg (bind_returns hlast ⟨_, rfl⟩))

lemma syncOnlyLo_returns (hpushed : s.lidarPushed = false)
    (hscans : s.lidRawDataBuffer.length ≤ s.lidHeaderTimeBuffer.length)
    (holdest : ∀ scan ∈ s.lidRawDataBuffer.head?, scan.points ≠ []) :
    ∃ r, s.syncOnlyLo = .ok r := by
  obtain ⟨latched, hlatch⟩ := latchScanLo_returns hscans holdest
  unfold syncOnlyLo
  refine bind_returns hlatch ?_
  rcases latchScanLo_cases hlatch with
    ⟨rfl, -⟩ | ⟨htrue, -⟩ | ⟨lidar, begTime, lastPt, -, hscan, htime, -, rfl⟩
  · exact ⟨_, rfl⟩
  · exact absurd htrue (by simp [hpushed])
  · obtain ⟨raw, hpopRaw⟩ := popFront_returns (List.ne_nil_of_mem (List.mem_of_head? hscan))
    obtain ⟨header, hpopHeader⟩ := popFront_returns (List.ne_nil_of_mem (List.mem_of_head? htime))
    exact bind_returns hpopRaw (bind_returns hpopHeader ⟨_, rfl⟩)

/-- The call reads an end that is not there.  In `LIVO` mode: the newest IMU sample when the IMU
is disabled, or, cutting a LIO group, the last point of the newest scan when that is empty.  In
`ONLY_LO` mode: the last point of the oldest scan when that is empty. -/
def ReadsEmpty (cfg : Config) (s : LIVMapper) : Prop :=
  match cfg.slamMode with
  | .onlyLio => False
  | .livo => s.lidRawDataBuffer ≠ [] ∧ s.imgBuffer ≠ [] ∧ (cfg.imuEn = false ∨
      (s.imuBuffer ≠ [] ∧ s.lidarMeasures.lioVioFlg ≠ .lio ∧
        ∃ scan ∈ s.lidRawDataBuffer.getLast?, scan.points = []))
  | .onlyLo => ∃ scan ∈ s.lidRawDataBuffer.head?, scan.points = []

/-- Behind the guards a call is its mode's branch. -/
lemma syncPackages_eq (hraw : s.lidRawDataBuffer = [] → cfg.lidarEn = false)
    (himg : s.imgBuffer = [] → cfg.imgEn = false)
    (himu : s.imuBuffer = [] → cfg.imuEn = false) :
    s.syncPackages cfg = match cfg.slamMode with
      | .onlyLio => s.syncOnlyLio cfg
      | .livo => s.syncLivo cfg
      | .onlyLo => s.syncOnlyLo := by
  have hguard : ∀ {α : Type} {l : List α} {en : Bool}, (l = [] → en = false) →
      ¬(l.isEmpty && en) = true := by
    intro α l en h
    cases l with
    | nil => simp [h rfl]
    | cons => simp
  unfold syncPackages
  refine (if_neg (hguard hraw)).trans ((if_neg (hguard himg)).trans
    ((if_neg (hguard himu)).trans ?_))
  cases cfg.slamMode <;> rfl

/-- A call that stops at a guard returns. -/
lemma syncPackages_returns_of_branch
    (h : (s.lidRawDataBuffer = [] → cfg.lidarEn = false) →
      (s.imgBuffer = [] → cfg.imgEn = false) → (s.imuBuffer = [] → cfg.imuEn = false) →
      ∃ r, s.syncPackages cfg = .ok r) : ∃ r, s.syncPackages cfg = .ok r := by
  by_contra hfault
  refine hfault (h (fun hraw => ?_) (fun himg => ?_) fun himu => ?_)
  · by_contra hen
    exact hfault ⟨_, if_pos (by simp [hraw, hen])⟩
  · by_contra hen
    refine hfault ?_
    unfold syncPackages
    split_ifs with hlidar hcam
    · exact ⟨_, rfl⟩
    · exact ⟨_, rfl⟩
    · exact ⟨_, rfl⟩
    · exact absurd hcam (by simp [himg, hen])
  · by_contra hen
    refine hfault ?_
    unfold syncPackages
    split_ifs with hlidar hcam hsamples
    · exact ⟨_, rfl⟩
    · exact ⟨_, rfl⟩
    · exact ⟨_, rfl⟩
    · exact absurd hsamples (by simp [himu, hen])

/-- In `ONLY_LIO` mode every call returns. -/
lemma BuffersOk.onlyLio_returns (h : BuffersOk cfg s) (hmode : cfg.slamMode = .onlyLio) :
    ∃ r, s.syncPackages cfg = .ok r := by
  refine syncPackages_returns_of_branch fun hraw himg himu => ?_
  rw [syncPackages_eq hraw himg himu, hmode]
  refine syncOnlyLio_returns (fun hnil => ?_) h.scans
  -- without a scan the LiDAR is disabled, and then no IMU message has been accepted either
  have hoff := (h.lidarOff (hraw hnil)).2.1
  have himuEn := (Config.slamMode_eq_onlyLio.mp hmode).2
  exact absurd (himu hoff) (by simp [himuEn])

/-- In `ONLY_LO` mode a call returns unless the oldest scan is empty. -/
lemma BuffersOk.onlyLo_returns_iff (h : BuffersOk cfg s) (hmode : cfg.slamMode = .onlyLo) :
    (∃ r, s.syncPackages cfg = .ok r) ↔ ¬∃ scan ∈ s.lidRawDataBuffer.head?, scan.points = [] := by
  obtain ⟨hnotLivo, himuEn⟩ := Config.slamMode_eq_onlyLo.mp hmode
  constructor
  · rintro ⟨⟨b, t⟩, hr⟩ ⟨scan, hscan, hpoints⟩
    have hraw : s.lidRawDataBuffer ≠ [] := List.ne_nil_of_mem (List.mem_of_head? hscan)
    have hlidar : cfg.lidarEn = true := by
      by_contra hoff
      exact hraw (h.lidarOff (by simpa using hoff)).1
    have himg : cfg.imgEn = false := by
      by_contra hon
      exact hnotLivo ⟨by simpa using hon, hlidar⟩
    rw [syncPackages_eq (fun hnil => absurd hnil hraw) (fun _ => himg) (fun _ => himuEn),
      hmode] at hr
    obtain ⟨latched, hlatched, -⟩ := bind_eq_ok.mp hr
    rcases latchScanLo_cases hlatched with
      ⟨-, hnil⟩ | ⟨hpushed, -⟩ | ⟨lidar, begTime, lastPt, -, hhead, -, hlast, -⟩
    · exact hraw hnil
    · rw [h.onlyLo hmode] at hpushed
      cases hpushed
    · obtain rfl : lidar = scan := Option.some.inj (hhead.symm.trans hscan)
      rw [hpoints] at hlast
      cases hlast
  · intro hnot
    refine syncPackages_returns_of_branch fun hraw himg himu => ?_
    rw [syncPackages_eq hraw himg himu, hmode]
    exact syncOnlyLo_returns (h.onlyLo hmode) h.scans fun scan hscan hpoints =>
      hnot ⟨scan, hscan, hpoints⟩

/-- A LIO group is not cut without an IMU sample, nor from an empty newest scan. -/
lemma syncLivoLio_not_returns (hbad : s.imuBuffer = [] ∨
      ∃ scan ∈ s.lidRawDataBuffer.getLast?, scan.points = []) {r : Bool × LIVMapper} :
    s.syncLivoLio cfg ≠ .ok r := by
  intro hok
  obtain ⟨_, -, hok⟩ := bind_eq_ok.mp hok
  obtain ⟨u, hu, hok⟩ := bind_eq_ok.mp hok
  obtain ⟨updateTime, -, rfl⟩ := initUpdateTime_eq_ok hu
  obtain ⟨_, -, hok⟩ := bind_eq_ok.mp hok
  obtain ⟨lastScan, hscan, hok⟩ := bind_eq_ok.mp hok
  obtain ⟨lastPt, hlast, hok⟩ := bind_eq_ok.mp hok
  obtain ⟨lastImu, hlastImu, -⟩ := bind_eq_ok.mp hok
  rcases hbad with hnil | ⟨scan, hnewest, hpoints⟩
  · have hback : back s.imuBuffer = .ok lastImu := hlastImu
    rw [hnil] at hback
    cases hback
  · obtain rfl : lastScan = scan :=
      Option.some.inj ((back_eq_ok.mp hscan).symm.trans hnewest)
    rw [hpoints] at hlast
    cases hlast

/-- A VIO group is not cut without an IMU sample. -/
lemma syncLivoVio_not_returns (hnil : s.imuBuffer = []) {r : Bool × LIVMapper} :
    s.syncLivoVio cfg ≠ .ok r := by
  intro hok
  obtain ⟨_, -, hok⟩ := bind_eq_ok.mp hok
  obtain ⟨_, hfront, -⟩ := bind_eq_ok.mp hok
  rw [hnil] at hfront
  cases hfront

/-- In `LIVO` mode a call behind the guards needs an IMU sample, and points in the newest scan to
cut a LIO group. -/
lemma BuffersOk.livo_returns_iff (h : BuffersOk cfg s) (hmode : cfg.slamMode = .livo) :
    (∃ r, s.syncPackages cfg = .ok r) ↔
      ¬(s.lidRawDataBuffer ≠ [] ∧ s.imgBuffer ≠ [] ∧ (cfg.imuEn = false ∨
        (s.imuBuffer ≠ [] ∧ s.lidarMeasures.lioVioFlg ≠ .lio ∧
          ∃ scan ∈ s.lidRawDataBuffer.getLast?, scan.points = []))) := by
  obtain ⟨himgEn, hlidarEn⟩ := Config.slamMode_eq_livo.mp hmode
  constructor
  · rintro ⟨⟨b, t⟩, hr⟩ ⟨hraw, himg, hbad⟩
    have himu : s.imuBuffer = [] → cfg.imuEn = false := by
      intro hnil
      rcases hbad with hoff | ⟨hne, -⟩
      · exact hoff
      · exact absurd hnil hne
    rw [syncPackages_eq (fun hnil => absurd hnil hraw) (fun hnil => absurd hnil himg) himu,
      hmode] at hr
    change s.syncLivo cfg = .ok (b, t) at hr
    -- only the branch of a VIO group does not read the newest scan
    have hlio : s.lidarMeasures.lioVioFlg ≠ .lio → s.syncLivoLio cfg ≠ .ok (b, t) := by
      intro hflg
      refine syncLivoLio_not_returns ?_
      rcases hbad with hoff | ⟨-, -, hnewest⟩
      · exact .inl (h.imuOff hoff)
      · exact .inr hnewest
    unfold syncLivo at hr
    split at hr
    · exact hlio (by simp_all) hr
    · exact hlio (by simp_all) hr
    · rcases hbad with hoff | ⟨-, hflg, -⟩
      · exact syncLivoVio_not_returns (h.imuOff hoff) hr
      · exact hflg ‹_›
    · exact h.livo hmode ‹_›
  · intro hnot
    refine syncPackages_returns_of_branch fun hraw himg himu => ?_
    have hraw' : s.lidRawDataBuffer ≠ [] := fun hnil => absurd (hraw hnil) (by simp [hlidarEn])
    have himg' : s.imgBuffer ≠ [] := fun hnil => absurd (himg hnil) (by simp [himgEn])
    have himgTime : s.imgTimeBuffer ≠ [] := by
      intro hnil
      have hlength := h.images
      rw [hnil, List.length_nil] at hlength
      exact himg' (List.length_eq_zero_iff.mp hlength)
    have himu' : s.imuBuffer ≠ [] := fun hnil => hnot ⟨hraw', himg', .inl (himu hnil)⟩
    have hlio : s.lidarMeasures.lioVioFlg ≠ .lio → ∃ r, s.syncLivoLio cfg = .ok r :=
      fun hflg => syncLivoLio_returns hraw' h.scans himg' himgTime himu' fun scan hscan hpoints =>
        hnot ⟨hraw', himg', .inr ⟨himu', hflg, scan, hscan, hpoints⟩⟩
    rw [syncPackages_eq hraw himg himu, hmode]
    show ∃ r, s.syncLivo cfg = .ok r
    unfold syncLivo
    split
    · exact hlio (by simp_all)
    · exact hlio (by simp_all)
    · exact syncLivoVio_returns himg' himgTime himu'
    · exact ⟨_, rfl⟩

/-- **When a call on buffers in order returns**: exactly when it does not read an end that is not
there. -/
theorem BuffersOk.returns_iff (h : BuffersOk cfg s) :
    (∃ r, s.syncPackages cfg = .ok r) ↔ ¬s.ReadsEmpty cfg := by
  unfold ReadsEmpty
  cases hmode : cfg.slamMode with
  | onlyLio => exact iff_of_true (h.onlyLio_returns hmode) (fun hf => hf)
  | livo => exact h.livo_returns_iff hmode
  | onlyLo => exact h.onlyLo_returns_iff hmode

end Returns

/-! ## Clouds with points -/

/-- Every buffered cloud has points. -/
def CloudsNonempty (s : LIVMapper) : Prop := s.AllScans fun ptr => ptr.points ≠ []

lemma newCloud_nonempty {s : LIVMapper} {driver : LidarDriver} {msg : LidarMsg} {time : ℚ}
    (h : msg.points ≠ []) : (s.newCloud driver msg time).points ≠ [] := by
  intro hnil
  have hlength := congrArg List.length hnil
  rw [newCloud, List.length_mapIdx, List.length_nil] at hlength
  exact h (List.length_eq_zero_iff.mp hlength)

end LIVMapper

/-- The turn brings no cloud that the preprocessing left empty through `standard_pcl_cbk`. -/
def BringsPoints (x : NodeTurn) : Prop :=
  ∀ msg, x.event = .pclCbk .standard msg → msg.points ≠ []

lemma cloudsNonempty_of_run {cfg : Config} {tr : List NodeTurn} {t : LIVMapper}
    (h : NodeRun cfg tr t) (hbrings : ∀ x ∈ tr, BringsPoints x) : t.CloudsNonempty := by
  refine (h.allScans hbrings ?_).1
  intro s driver msg obs u hpoints hfiles
  refine LIVMapper.newCloud_nonempty ?_
  cases driver with
  | standard => exact hpoints msg rfl
  | livox => exact fun hnil => hfiles.2 ⟨rfl, hnil⟩

/-- **When `sync_packages` reads past an end.**  In every reachable state, for every combination
of the enable flags, a call returns if and only if it does not read an end that is not there.
In particular every call of a run returns if the camera and the LiDAR are not used without the
IMU and, outside `ONLY_LIO`, `standard_pcl_cbk` never brings an empty cloud. -/
theorem syncPackages_returns_iff {cfg : Config} {tr : List NodeTurn} {t : LIVMapper}
    (h : NodeRun cfg tr t) :
    ((∃ r, t.syncPackages cfg = .ok r) ↔ ¬t.ReadsEmpty cfg) ∧
      (¬(cfg.imgEn = true ∧ cfg.lidarEn = true ∧ cfg.imuEn = false) →
        cfg.slamMode = .onlyLio ∨ (∀ x ∈ tr, BringsPoints x) →
        ∃ r, t.syncPackages cfg = .ok r) := by
  have hiff := (LIVMapper.buffersOk_of_run h).1.returns_iff
  refine ⟨hiff, fun hflags hclouds => hiff.mpr ?_⟩
  have hnonempty : cfg.slamMode ≠ .onlyLio → t.CloudsNonempty := fun hmode =>
    cloudsNonempty_of_run h (hclouds.resolve_left hmode)
  unfold LIVMapper.ReadsEmpty
  cases hmode : cfg.slamMode with
  | onlyLio => exact fun hf => hf
  | livo =>
      obtain ⟨himg, hlidar⟩ := Config.slamMode_eq_livo.mp hmode
      rintro ⟨-, -, himu | ⟨-, -, scan, hscan, hpoints⟩⟩
      · exact hflags ⟨himg, hlidar, himu⟩
      · exact hnonempty (by simp [hmode]) scan (List.mem_of_getLast? hscan) hpoints
  | onlyLo =>
      rintro ⟨scan, hscan, hpoints⟩
      exact hnonempty (by simp [hmode]) scan (List.mem_of_head? hscan) hpoints

/-- An empty cloud from `standard_pcl_cbk`, and the camera and the LiDAR without the IMU. -/
theorem syncPackages_faults :
    faultOf ((nodeTrace {} [.scanAt .standard 1000 [], .imuAt 1000, .imgAt 1000]).2.syncPackages
      {}) = some .emptyCloud ∧
    faultOf ((nodeTrace { imuEn := false } [.scanAt .livox 1000 [{}], .imgAt 1000]).2.syncPackages
      { imuEn := false }) = some .emptyDeque := by
  decide +kernel

/-- A run with points in its scan. -/
theorem syncPackages_returns :
    ∃ r, (nodeTrace {} [.scanAt .standard 1000 [{}], .imuAt 1000, .imgAt 1000]).2.syncPackages {} =
      .ok r := by
  refine (syncPackages_returns_iff (nodeRun_nodeTrace {} _)).2 (by decide) (.inr ?_)
  intro x hx msg hev
  have hmem := event_mem_of_trace hx
  rw [hev] at hmem
  simp only [Event.scanAt, Event.imuAt, Event.imgAt, List.mem_cons, Event.pclCbk.injEq,
    List.not_mem_nil, reduceCtorEq, or_false, true_and] at hmem
  simp [hmem]

end FastLivo2
