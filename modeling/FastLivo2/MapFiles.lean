import FastLivo2.LivoCycle
import FastLivo2.LivoRuns

/-!
# The files of a run

What is published over a run of the node is what its files hold and what still waits, and the
shutdown writes the rest exactly when the interval asks for one file in the end (`saved_of_run`).
The shutdown picks the cloud by the camera flag alone where the calls pick it by the mode; the two
differ for a camera without a LiDAR, but then no call is made.

In `LIVO` mode no file replaces another (`files_of_run`).  Both halves of a cycle end at the same
image, so both calls may name a file by the same time; but a call by a scan that writes leaves no
scan counted, and the call of its image counts none.  Between cycles the images are at least a
twentieth of a second apart, and the names tell microseconds apart.
-/

namespace FastLivo2

/-! ## Names -/

/-- The nearest microsecond is half a microsecond away at most. -/
lemma abs_fixed6_sub (t : ℚ) : |(fixed6 t : ℚ) - t * 1000000| ≤ 1 / 2 := by
  have hle := Int.floor_le (t * 1000000)
  have hlt := Int.lt_floor_add_one (t * 1000000)
  unfold fixed6
  dsimp only
  split_ifs with hlow hhigh heven
  · rw [abs_le]
    constructor <;> linarith
  · push_cast
    rw [abs_le]
    constructor <;> linarith
  · rw [abs_le]
    constructor <;> linarith
  · push_cast
    rw [abs_le]
    constructor <;> linarith

/-- Times a twentieth of a second apart have different names. -/
lemma fixed6_lt {t t' : ℚ} (h : t + 1 / 20 ≤ t') : fixed6 t < fixed6 t' := by
  have hleft := (abs_le.mp (abs_fixed6_sub t)).2
  have hright := (abs_le.mp (abs_fixed6_sub t')).1
  have hcast : (fixed6 t : ℚ) < fixed6 t' := by linarith
  exact_mod_cast hcast

/-- Each of the names is one of a time up to `bound`. -/
def Upto (names : List ℤ) (bound : ℚ) : Prop := ∀ n ∈ names, ∃ t ≤ bound, n = fixed6 t

lemma Upto.mono {names : List ℤ} {bound bound' : ℚ} (h : Upto names bound) (hle : bound ≤ bound') :
    Upto names bound' := by
  intro n hn
  obtain ⟨t, ht, rfl⟩ := h n hn
  exact ⟨t, ht.trans hle, rfl⟩

lemma Upto.not_mem {names : List ℤ} {bound t : ℚ} (h : Upto names bound)
    (hlt : bound + 1 / 20 ≤ t) : fixed6 t ∉ names := by
  intro hmem
  obtain ⟨t', ht', heq⟩ := h _ hmem
  exact absurd heq (fixed6_lt (by linarith)).ne'

lemma Upto.append {names : List ℤ} {bound : ℚ} (h : Upto names bound) :
    Upto (names ++ [fixed6 bound]) bound := by
  intro n hn
  rcases List.mem_append.mp hn with hn | hn
  · exact h n hn
  · exact ⟨bound, le_rfl, List.mem_singleton.mp hn⟩

/-! ## Images are apart -/

/-- An image that waits after a cycle is well past its end. -/
def LIVMapper.ImgApart (cfg : Config) (s : LIVMapper) : Prop :=
  s.lidarMeasures.lioVioFlg = .vio → ∀ time ∈ s.imgTimeBuffer,
    ImuProcess.propEndTime s.lidarMeasures + 1 / 20 ≤ time + cfg.exposureTimeInit

lemma LIVMapper.apart_of_acceptsImg {cfg : Config} {s : LIVMapper} {msg : Image}
    (h : s.acceptsImg cfg msg = true) :
    s.lastTimestampImg + 1 / 20 ≤ LIVMapper.imgTime cfg msg := by
  simp only [LIVMapper.acceptsImg, LIVMapper.imgPasses, Bool.and_eq_true, Bool.not_eq_true',
    decide_eq_false_iff_not, not_lt] at h
  linarith [h.2.2.2.2.2]

lemma imgApart_of_run {cfg : Config} {tr : List NodeTurn} {t : LIVMapper}
    (hmode : cfg.slamMode = .livo) (h : NodeRun cfg tr t) :
    ∀ x ∈ tr, x.pre.ImgApart cfg := by
  have hok := (LIVMapper.buffersOk_of_run h).2
  have hordered := (imgOrdered_of_run hmode h).2
  have hall := h.invariant (I := LIVMapper.ImgApart cfg)
    (C := fun x => LIVMapper.BuffersOk cfg x.pre ∧ ImgOrdered cfg x.pre)
    (fun x hx => ⟨(hok x hx).1, (hordered x hx).1⟩) (fun hflg => by cases hflg) ?_
  · exact fun x hx => (hall.2 x hx).1
  rintro s ev obs u hsteps ⟨hbuffers, himg⟩ hpre
  cases obs with
  | none =>
      have hgroup := (hsteps.quietBundle hmode).group
      intro hflg
      rw [hgroup.propEndTime]
      rw [hgroup.flg] at hflg
      cases hsteps.quietImages hmode with
      | same _ time _ =>
          rw [time]
          exact hpre hflg
      | dropped _ _ time _ =>
          rw [time]
          exact fun a ha => hpre hflg a (List.mem_of_mem_tail ha)
      | filed _ accepts time _ =>
          rw [time hbuffers.images]
          intro a ha
          have happart := LIVMapper.apart_of_acceptsImg accepts
          have hended := himg.ended (by simp [hflg])
          rw [List.mem_singleton.mp ha]
          linarith
  | some g =>
      obtain ⟨hgroup, hhandled⟩ := hsteps.livoGroup hmode
      have hflg := hhandled.group.flg
      cases hgroup with
      | lio cut =>
          intro hvio
          rw [hflg] at hvio
          cases hvio
      | vio flg image mat imu =>
          intro _ a ha
          have hbuf : u.imgTimeBuffer = [] := by
            rw [hhandled.buffers.imgTime]
            exact congrArg List.tail (himg.eq_singleton image)
          rw [hbuf] at ha
          cases ha

/-! ## The output of a turn -/

/-- Without a camera and a LiDAR together a group takes a scan. -/
lemma LIVMapper.raw_ne_nil_of_group {cfg : Config} {s g : LIVMapper} (hmode : cfg.slamMode ≠ .livo)
    (h : s.syncPackages cfg = .ok (true, g)) : s.lidRawDataBuffer ≠ [] := by
  cases hslam : cfg.slamMode with
  | livo => exact absurd hslam hmode
  | onlyLio =>
      have hcase := LIVMapper.syncPackages_onlyLio hslam h
      generalize hb : true = b at hcase
      cases hcase with
      | idle => cases hb
      | small => cases hb
      | wait => cases hb
      | take latched raw header =>
          rw [latched.deques.1] at raw
          exact raw
  | onlyLo =>
      have hcase := LIVMapper.syncPackages_onlyLo hslam h
      generalize hb : true = b at hcase
      cases hcase with
      | idle => cases hb
      | latched _ raw _ => exact raw
      | take _ scan _ _ => exact List.ne_nil_of_mem (List.mem_of_head? scan)

namespace LivoNode

variable {L : LivoLibs} {cfg : LivoConfig} {S S' : LivoNode} {tr : List LivoTurn}

/-- A turn leaves the output, or hands out a group and ends by publishing. -/
lemma output_of_step {ev : LivoEvent} {obs : Option LIVMapper}
    (h : S.step L cfg ev = .ok (S', obs)) :
    S'.output = S.output ∨ ∃ g t world s v, obs = some g ∧
      S.node.syncPackages cfg.toConfig = .ok (true, g) ∧
      t.lidarMeasures = S'.node.lidarMeasures ∧ S'.output = S.publish L cfg t world s v := by
  cases steps_of_step h with
  | callback => exact .inl rfl
  | idle => exact .inl rfl
  | @group g t est S' sync imu estimates =>
      have hmeas := (LIVMapper.stateEstimationAndMapping_frame cfg.toConfig t est).2.2
      cases estimates with
      | skip => exact .inl rfl
      | frame => exact .inr ⟨g, t, _, _, _, rfl, sync, hmeas.symm, rfl⟩
      | scan => exact .inr ⟨g, t, _, _, _, rfl, sync, hmeas.symm, rfl⟩

/-- What every call of `publish_frame_world` keeps holds of the output of a run. -/
lemma output_invariant {I : MapOutput → Prop} (h : LivoRun L cfg tr S) (h₀ : I cfg.output.initial)
    (hstep : ∀ (inp : PublishInput) (m : MapOutput), I m →
      I (m.publishFrameWorld L.toVioLibs cfg.slamMode cfg.output inp)) : I S.output := by
  refine (h.invariant (I := fun S : LivoNode => I S.output) (C := fun _ => True) h₀
    (fun x hx _ hpre => ?_) fun _ _ => trivial).1
  rcases output_of_step hx with heq | ⟨g, t, world, s, v, -, -, -, heq⟩
  · rw [heq]
    exact hpre
  · rw [heq]
    exact hstep _ _ hpre

/-- Without a LiDAR no group is ever handed out, and so nothing published. -/
lemma output_of_lidarOff (hlidar : cfg.lidarEn = false) (h : LivoRun L cfg tr S) :
    S.output = cfg.output.initial := by
  have hempty : ∀ x ∈ tr, x.pre.node.lidRawDataBuffer = [] :=
    pre_of_run (I := fun s => s.lidRawDataBuffer = []) (fun loop t hloop y hy =>
      (((LIVMapper.buffersOk_of_run hloop).2 y hy).1.lidarOff hlidar).1) h
  have hmode : cfg.slamMode ≠ .livo := fun hlivo =>
    absurd (Config.slamMode_eq_livo.mp hlivo).2 (by simp [hlidar])
  refine (h.invariant (I := fun S : LivoNode => S.output = cfg.output.initial)
    (C := fun x => x.pre.node.lidRawDataBuffer = []) rfl (fun x hx hraw hpre => ?_) hempty).1
  rcases output_of_step hx with heq | ⟨g, t, world, s, v, -, hsync, -, -⟩
  · rw [heq, hpre]
  · exact absurd hraw (LIVMapper.raw_ne_nil_of_group hmode hsync)

/-- **What is published is saved.**  Over a run with the saving on, the points of the messages are
those of the files, in order, and then those that wait.  With an interval of zero or less no file is
written before the shutdown, and after it the raw files hold all points of all messages exactly when
the interval is negative or nothing waits. -/
theorem saved_of_run (hen : cfg.output.pcdSaveEn = true) (htype : cfg.output.pcdSaveType = 0)
    (h : LivoRun L cfg tr S) :
    (S.output.rgbSaved ++ S.output.pclWaitSave = S.output.rgbPublished ∧
      S.output.intensitySaved ++ S.output.pclWaitSaveIntensity = S.output.intensityPublished) ∧
    (cfg.output.pcdSaveInterval ≤ 0 → S.output.files = []) ∧
    (((S.output.savePCD cfg.imgEn cfg.output).rawFiles.flatMap (fun f => f.2.rgbPoints) =
        S.output.rgbPublished ∧
      (S.output.savePCD cfg.imgEn cfg.output).rawFiles.flatMap (fun f => f.2.intensityPoints) =
        S.output.intensityPublished) ↔
      cfg.output.pcdSaveInterval < 0 ∨
        (S.output.pclWaitSave = [] ∧ S.output.pclWaitSaveIntensity = [])) := by
  have hbalanced : S.output.Balanced cfg.slamMode cfg.output :=
    output_invariant h (MapOutput.balanced_initial _ _) fun inp m hm =>
      hm.publishFrameWorld hen htype inp
  have hsaved : S.output.pcdSaved = false :=
    output_invariant (I := fun m => m.pcdSaved = false) h rfl fun inp m hm =>
      (MapOutput.publishFrameWorld_pcdSaved inp).trans hm
  refine ⟨⟨hbalanced.rgb, hbalanced.intensity⟩, hbalanced.unsaved,
    hbalanced.savePCD_complete hen htype hsaved ?_ ?_⟩
  · exact fun hmode => (Config.slamMode_eq_livo.mp hmode).1
  · intro hmode himg
    -- the camera flag alone picks the wrong cloud only where no scan ever comes
    have hlidar : cfg.lidarEn = false := by
      by_contra hon
      exact hmode (Config.slamMode_eq_livo.mpr ⟨himg, by simpa using hon⟩)
    rw [output_of_lidarOff hlidar h]
    rfl

/-- Settings for a LiDAR alone, and to save the map in the end. -/
def savedConfig : LivoConfig where
  imgEn := false
  imuEn := false
  vio := stillConfig true false
  output := { pcdSaveEn := true }

/-- Three scans, each with the pass that publishes it. -/
def savedScans : List LivoEvent :=
  [.pclCbk .standard ⟨100000000, [wallPoint 0 (1 / 10) (1 / 10), wallPoint 50 (2 / 10) (1 / 10)]⟩,
    .pass,
    .pclCbk .standard ⟨200000000, [wallPoint 0 (1 / 10) (2 / 10), wallPoint 30 (2 / 10) (2 / 10),
      wallPoint 60 (3 / 10) (2 / 10)]⟩, .pass,
    .pclCbk .standard ⟨300000000, [wallPoint 0 (1 / 10) (3 / 10)]⟩, .pass]

/-- The points of the scans wait for the shutdown, which writes all of them. -/
theorem saved_of_run_savedScans :
    let S := (trace (LivoNode.step axisLibs savedConfig) savedScans savedConfig.start).2
    S.output.published.length = 3 ∧ S.output.intensityPublished.length = 6 ∧
      S.output.files = [] ∧
      (S.output.savePCD savedConfig.imgEn savedConfig.output).rawFiles.flatMap
        (fun f => f.2.intensityPoints) = S.output.intensityPublished := by
  have hsaved := saved_of_run (L := axisLibs) rfl rfl (Exec.of_trace savedScans savedConfig.start)
  exact ⟨by decide +kernel, by decide +kernel, hsaved.2.1 (by decide),
    (hsaved.2.2.mpr (.inl (by decide))).2⟩

/-! ## No file replaces another -/

/-- The two kinds of turn that hand out a group in `LIVO` mode, and the ends of the groups: a cycle
ends well after the one before it, and its image no earlier than its scan. -/
inductive Cycle (s t : LIVMapper) : Prop
  | lio (flg : s.lidarMeasures.lioVioFlg = .wait ∨ s.lidarMeasures.lioVioFlg = .vio)
      (flg' : t.lidarMeasures.lioVioFlg = .lio)
      (apart : s.lidarMeasures.lioVioFlg = .vio → ImuProcess.propEndTime s.lidarMeasures + 1 / 20 ≤
        ImuProcess.propEndTime t.lidarMeasures) : Cycle s t
  | vio (flg : s.lidarMeasures.lioVioFlg = .lio) (flg' : t.lidarMeasures.lioVioFlg = .vio)
      (upTo : ImuProcess.propEndTime s.lidarMeasures ≤ ImuProcess.propEndTime t.lidarMeasures) :
      Cycle s t

lemma cycle_of_group {s t g : LIVMapper} (himg : ImgOrdered cfg.toConfig s)
    (happart : s.ImgApart cfg.toConfig) (hgroup : LIVMapper.LivoGroup cfg.toConfig s g)
    (hhandled : LIVMapper.Handled g t) : Cycle s t := by
  have hflg := hhandled.group.flg
  have hend := hhandled.group.propEndTime
  cases hgroup with
  | lio cut =>
      rw [LIVMapper.emitLio_propEndTime] at hend
      refine .lio cut.flg hflg fun hvio => ?_
      rw [hend]
      exact happart hvio _ (List.mem_of_head? cut.image)
  | vio flg image mat imu =>
      rw [LIVMapper.emitVio_propEndTime] at hend
      refine .vio flg hflg ?_
      rw [hend]
      exact himg.ahead (by simp [flg]) _ (List.mem_of_head? image)

/-- What a turn does to the bundle and the output in `LIVO` mode: both stay, or it hands out a
group of a cycle and may publish under the time the group ends. -/
lemma cycle_of_step (hmode : cfg.slamMode = .livo) {x : LivoTurn}
    (hx : x.Taken (LivoNode.step L cfg)) (himg : ImgOrdered cfg.toConfig x.pre.node)
    (happart : x.pre.node.ImgApart cfg.toConfig) :
    (ImuProcess.SameGroup x.pre.node.lidarMeasures x.post.node.lidarMeasures ∧
      x.post.output = x.pre.output) ∨
    Cycle x.pre.node x.post.node ∧ (x.post.output = x.pre.output ∨ ∃ inp : PublishInput,
      inp.flg = x.post.node.lidarMeasures.lioVioFlg ∧
      inp.updateTime = ImuProcess.propEndTime x.post.node.lidarMeasures ∧
      x.post.output =
        x.pre.output.publishFrameWorld L.toVioLibs cfg.slamMode cfg.output inp) := by
  obtain ⟨y, hy, hpre, ⟨est, -⟩, hobs, hpost⟩ := loopTurn hx
  have hsteps := hy.steps
  rw [hpre, hobs, hpost] at hsteps
  have houtput := output_of_step hx
  cases hgroup : x.obs with
  | none =>
      rw [hgroup] at hsteps houtput
      refine .inl ⟨(hsteps.quietBundle hmode).group, ?_⟩
      rcases houtput with heq | ⟨g, t, world, s, v, hsome, -⟩
      · exact heq
      · cases hsome
  | some g =>
      rw [hgroup] at hsteps
      obtain ⟨hlivo, hhandled⟩ := hsteps.livoGroup hmode
      have hcycle := cycle_of_group himg happart hlivo hhandled
      refine .inr ⟨hcycle, ?_⟩
      rcases houtput with heq | ⟨g', t, world, s, v, -, -, hmeas, heq⟩
      · exact .inl heq
      · refine .inr ⟨publishInput L cfg t world s v, ?_, ?_, heq⟩
        · rw [← hmeas]
          rfl
        · unfold PublishInput.updateTime ImuProcess.propEndTime publishInput
          rw [hmeas]
          cases hcycle with
          | lio _ flg' => simp [flg']
          | vio _ flg' => simp [flg']

/-- Files and images are named by times up to the end of the last group, no two by the same name.
In the middle of a cycle a file may be named by that end, but then no scan is counted. -/
structure NamesApart (files images : List ℤ) (scanWaitNum : ℤ) (meas : LidarMeasureGroup) :
    Prop where
  files_nodup : files.Nodup
  images_nodup : images.Nodup
  waits : meas.lioVioFlg = .wait → files = [] ∧ images = []
  files_upTo : Upto files (ImuProcess.propEndTime meas)
  images_upTo : Upto images (ImuProcess.propEndTime meas)
  files_lio : meas.lioVioFlg = .lio →
    scanWaitNum = 0 ∨ Upto files (ImuProcess.propEndTime meas - 1 / 20)
  images_lio : meas.lioVioFlg = .lio → Upto images (ImuProcess.propEndTime meas - 1 / 20)

/-- **One group** keeps the names apart: by a file at the end of the group, if its scan writes or
scans are counted, and by an image at the end of a visual one. -/
lemma NamesApart.cycle {s t : LIVMapper} {files files' images images' : List ℤ} {scans scans' : ℤ}
    (h : NamesApart files images scans s.lidarMeasures) (hcycle : Cycle s t)
    (hfiles : files' = files ∨ (t.lidarMeasures.lioVioFlg = .lio ∨ 0 < scans) ∧ scans' = 0 ∧
      files' = files ++ [fixed6 (ImuProcess.propEndTime t.lidarMeasures)])
    (himages : images' = images ∨ t.lidarMeasures.lioVioFlg = .vio ∧
      images' = images ++ [fixed6 (ImuProcess.propEndTime t.lidarMeasures)]) :
    NamesApart files' images' scans' t.lidarMeasures := by
  let T := ImuProcess.propEndTime t.lidarMeasures
  have happend : ∀ names : List ℤ, names.Nodup → Upto names (T - 1 / 20) →
      (names ++ [fixed6 T]).Nodup := by
    intro names hnodup hupTo
    refine List.nodup_append.mpr ⟨hnodup, List.nodup_singleton _, fun n hn n' hn' => ?_⟩
    rw [List.mem_singleton.mp hn']
    exact fun heq => hupTo.not_mem (t := T) (by linarith) (heq ▸ hn)
  cases hcycle with
  | lio flg flg' apart =>
      have hbefore : ∀ names : List ℤ, (s.lidarMeasures.lioVioFlg = .wait → names = []) →
          Upto names (ImuProcess.propEndTime s.lidarMeasures) → Upto names (T - 1 / 20) := by
        intro names hwait hupTo
        rcases flg with hflg | hflg
        · rw [hwait hflg]
          exact fun n hn => absurd hn List.not_mem_nil
        · exact hupTo.mono (by linarith [apart hflg])
      have hold := hbefore files (fun hwait => (h.waits hwait).1) h.files_upTo
      have hold' := hbefore images (fun hwait => (h.waits hwait).2) h.images_upTo
      have himages : images' = images := himages.resolve_right fun hvio => by
        simp [flg'] at hvio
      subst himages
      rcases hfiles with rfl | ⟨-, hscans, rfl⟩
      · exact ⟨h.files_nodup, h.images_nodup, by simp [flg'], hold.mono (by linarith),
          hold'.mono (by linarith), fun _ => .inr hold, fun _ => hold'⟩
      · exact ⟨happend _ h.files_nodup hold, h.images_nodup, by simp [flg'],
          (hold.mono (by linarith)).append, hold'.mono (by linarith), fun _ => .inl hscans,
          fun _ => hold'⟩
  | vio flg flg' upTo =>
      have hold' := (h.images_lio flg).mono (show _ ≤ T - 1 / 20 by linarith)
      obtain ⟨hnodup, hupTo⟩ : images'.Nodup ∧ Upto images' T := by
        rcases himages with rfl | ⟨-, rfl⟩
        · exact ⟨h.images_nodup, hold'.mono (by linarith)⟩
        · exact ⟨happend _ h.images_nodup hold', (hold'.mono (by linarith)).append⟩
      obtain ⟨hnodup', hupTo'⟩ : files'.Nodup ∧ Upto files' T := by
        rcases hfiles with rfl | ⟨hcounted, -, rfl⟩
        · exact ⟨h.files_nodup, h.files_upTo.mono upTo⟩
        · have hscans : 0 < scans := hcounted.resolve_left (by simp [flg'])
          have hold := ((h.files_lio flg).resolve_left hscans.ne').mono
            (show _ ≤ T - 1 / 20 by linarith)
          exact ⟨happend _ h.files_nodup hold, (hold.mono (by linarith)).append⟩
      exact ⟨hnodup', hnodup, by simp [flg'], hupTo', hupTo, by simp [flg'], by simp [flg']⟩

/-- The files are named by times, and the names are apart. -/
def Named (cfg : LivoConfig) (S : LivoNode) : Prop :=
  S.output.OneKind cfg.slamMode cfg.output ∧ ∃ names,
    S.output.files.map Prod.fst = names.map PcdName.time ∧
    NamesApart names (S.output.images.map Prod.fst) S.output.scanWaitNum S.node.lidarMeasures

/-- A bundle that stays keeps the names apart. -/
lemma NamesApart.congr {files images : List ℤ} {scans : ℤ} {a b : LidarMeasureGroup}
    (h : NamesApart files images scans a) (hsame : ImuProcess.SameGroup a b) :
    NamesApart files images scans b := by
  obtain ⟨h₁, h₂, h₃, h₄, h₅, h₆, h₇⟩ := h
  rw [← hsame.flg] at h₃ h₆ h₇
  rw [← hsame.propEndTime] at h₄ h₅ h₆ h₇
  exact ⟨h₁, h₂, h₃, h₄, h₅, h₆, h₇⟩

/-- **One turn** keeps the names apart. -/
lemma Named.step (hmode : cfg.slamMode = .livo) {x : LivoTurn} (h : x.pre.Named cfg)
    (hx : x.Taken (LivoNode.step L cfg)) (himg : ImgOrdered cfg.toConfig x.pre.node)
    (happart : x.pre.node.ImgApart cfg.toConfig) : x.post.Named cfg := by
  obtain ⟨hone, names, hfiles, hnames⟩ := h
  rcases cycle_of_step hmode hx himg happart with
    ⟨hsame, houtput⟩ | ⟨hcycle, houtput | ⟨inp, hflg, htime, houtput⟩⟩
  · unfold Named
    rw [houtput]
    exact ⟨hone, names, hfiles, hnames.congr hsame⟩
  · unfold Named
    rw [houtput]
    exact ⟨hone, names, hfiles, hnames.cycle hcycle (.inl rfl) (.inl rfl)⟩
  · unfold Named
    rw [houtput]
    let out := x.pre.output.publishFrameWorld L.toVioLibs cfg.slamMode cfg.output inp
    have himages : out.images.map Prod.fst = x.pre.output.images.map Prod.fst ∨
        x.post.node.lidarMeasures.lioVioFlg = .vio ∧
        out.images.map Prod.fst = x.pre.output.images.map Prod.fst ++
          [fixed6 (ImuProcess.propEndTime x.post.node.lidarMeasures)] := by
      rcases MapOutput.publishFrameWorld_images inp with hnone | ⟨hvio, himage⟩
      · exact .inl (by rw [hnone])
      · exact .inr ⟨hflg ▸ hvio, by rw [himage, List.map_append, htime]; rfl⟩
    refine ⟨hone.publishFrameWorld inp, ?_⟩
    rcases MapOutput.publishFrameWorld_files (L := L.toVioLibs) hone inp with
      hnone | ⟨hcounted, hscans, cloud, hfile, -⟩
    · rw [hnone]
      exact ⟨names, hfiles, hnames.cycle hcycle (.inl rfl) himages⟩
    · refine ⟨names ++ [fixed6 inp.updateTime], ?_,
        hnames.cycle hcycle (.inr ⟨?_, hscans, ?_⟩) himages⟩
      · rw [hfile, List.map_append, List.map_append, hfiles]
        rfl
      · refine hcounted.imp_left fun hscan => ?_
        rw [PublishInput.isScan, hflg] at hscan
        refine hscan.resolve_right fun hlo => ?_
        cases hcycle with
        | lio _ flg' => simp [flg'] at hlo
        | vio _ flg' => simp [flg'] at hlo
      · rw [htime]

/-- **No file replaces another.**  In `LIVO` mode the files of the map written over a run have
different names, whatever the settings ask to save, and so have the images. -/
theorem files_of_run (hmode : cfg.slamMode = .livo) (h : LivoRun L cfg tr S) :
    (S.output.files.map Prod.fst).Nodup ∧ (S.output.images.map Prod.fst).Nodup := by
  have himg := pre_of_run (I := ImgOrdered cfg.toConfig) (fun loop t hloop y hy =>
    ((imgOrdered_of_run hmode hloop).2 y hy).1) h
  have happart := pre_of_run (I := LIVMapper.ImgApart cfg.toConfig) (fun loop t hloop =>
    imgApart_of_run hmode hloop) h
  have hnames : S.Named cfg := by
    refine (h.invariant (I := Named cfg)
      (C := fun x => ImgOrdered cfg.toConfig x.pre.node ∧ x.pre.node.ImgApart cfg.toConfig)
      ?_ (fun x hx hc hpre => hpre.step hmode hx hc.1 hc.2) fun x hx => ⟨himg x hx, happart x hx⟩).1
    refine ⟨MapOutput.oneKind_initial _ _, [], rfl, ?_⟩
    have hnone : ∀ bound, Upto [] bound := fun bound n hn => absurd hn List.not_mem_nil
    exact ⟨List.nodup_nil, List.nodup_nil, fun _ => ⟨rfl, rfl⟩, hnone _, hnone _, (nomatch ·),
      (nomatch ·)⟩
  obtain ⟨-, names, hfiles, hapart⟩ := hnames
  rw [hfiles]
  exact ⟨hapart.files_nodup.map fun a b hab => PcdName.time.inj hab, hapart.images_nodup⟩

/-- The settings of the wall, to save each scan in the frame of the IMU, and each image. -/
noncomputable def wallFiles : LivoConfig :=
  { wallConfig with
    output := { pubScanNum := 10, pcdSaveEn := true, pcdSaveType := 1, imgSaveEn := true } }

/-- The node before the second cycle. -/
noncomputable def firstCycle : List LivoTurn × LivoNode :=
  trace (LivoNode.step axisLibs wallFiles) wallEvents wallFiles.start

/-- Before the third: another scan, its samples and its image follow the second. -/
noncomputable def secondCycle : List LivoTurn × LivoNode :=
  trace (LivoNode.step axisLibs wallFiles)
    [.pclCbk .livox ⟨1300000000, [wallPoint 10 (1 / 10) (1 / 10)]⟩, restSample 1240000000,
      restSample 1300000000, grayImage 1280000000] (firstCycle.2.afterCycle axisLibs wallFiles)

lemma firstCycle_ready : firstCycle.2.CycleReady axisLibs wallFiles where
  scan := by decide +kernel
  few := by decide +kernel
  frame := by decide +kernel
  image := by decide +kernel
  map := by decide +kernel

lemma secondCycle_ready : secondCycle.2.CycleReady axisLibs wallFiles where
  scan := by decide +kernel
  few := by decide +kernel
  frame := by decide +kernel
  image := by decide +kernel
  map := by decide +kernel

/-- Each of the two cycles writes its scan in its first half and its image in its second, and no
file replaces another. -/
theorem files_of_run_twoCycles :
    let S := secondCycle.2.afterCycle axisLibs wallFiles
    S.output.files.map Prod.fst = [.time 1160000, .time 1280000] ∧
      S.output.images.map Prod.fst = [1160000, 1280000] ∧
      (S.output.files.map Prod.fst).Nodup ∧ (S.output.images.map Prod.fst).Nodup := by
  obtain ⟨x₁, x₂, hfirst, -⟩ := firstCycle_ready.exec (Exec.of_trace _ _)
  obtain ⟨x₃, x₄, hsecond, -⟩ := secondCycle_ready.exec (hfirst.trans (Exec.of_trace _ _))
  exact ⟨by decide +kernel, by decide +kernel, files_of_run rfl hsecond⟩

end LivoNode

end FastLivo2
