import FastLivo2.BufferSafety
import FastLivo2.Lib.RunningMean

/-!
# The statistics of the IMU initialisation

`IMU_init` is to find gravity and the gyroscope's offset from a still IMU: the means of the samples
that come in until there are enough, `MAX_INI_COUNT`, however they are cut into batches.

Its first call resets the process, counter included (`Process2` hands the counter in by reference),
seeds the means with the first sample and then goes through the batch from that sample on.  The
seed is of no weight: the first turn of the loop takes all of the distance to its sample.  So
before each sample the counter is one ahead of the samples seen, and the loop is that of a running
mean (`Averages.sample`).
-/

namespace FastLivo2

namespace ImuProcess

/-! ## The samples seen -/

/-- The means and the counter stand for the samples seen. -/
structure Averages (p : ImuProcess) (seen : List Imu) : Prop where
  iterNum : p.initIterNum = seen.length + 1
  acc : RunningMean ℚ (seen.map Imu.linearAcceleration) p.meanAcc
  gyr : RunningMean ℚ (seen.map Imu.angularVelocity) p.meanGyr

namespace Averages

variable {p : ImuProcess} {seen : List Imu}

lemma sample (h : p.Averages seen) (imu : Imu) :
    (imuInitSample p imu).Averages (seen ++ [imu]) := by
  have hcount : (p.initIterNum : ℚ) = seen.length + 1 := by
    rw [h.iterNum]
    push_cast
    rfl
  refine ⟨?_, ?_, ?_⟩
  · show p.initIterNum + 1 = _
    rw [h.iterNum, List.length_append]
    rfl
  · have hnext := h.acc.next imu.linearAcceleration
    rwa [List.length_map, ← hcount, ← List.map_singleton, ← List.map_append] at hnext
  · have hnext := h.gyr.next imu.angularVelocity
    rwa [List.length_map, ← hcount, ← List.map_singleton, ← List.map_append] at hnext

/-- The loop over a batch. -/
lemma batch (h : p.Averages seen) (imu : List Imu) :
    (imu.foldl imuInitSample p).Averages (seen ++ imu) := by
  induction imu generalizing p seen with
  | nil => rwa [List.append_nil]
  | cons a imu ih =>
      rw [List.append_cons]
      exact ih (h.sample a)

end Averages

/-! ## One call -/

/-- What the initialisation works with. -/
structure InitRecord where
  meanAcc : V3D
  meanGyr : V3D
  initIterNum : ℤ
  maxIniCount : ℤ
  bFirstFrame : Bool
  imuNeedInit : Bool
  imuEn : Bool

def initRecord (p : ImuProcess) : InitRecord where
  meanAcc := p.meanAcc
  meanGyr := p.meanGyr
  initIterNum := p.initIterNum
  maxIniCount := p.maxIniCount
  bFirstFrame := p.bFirstFrame
  imuNeedInit := p.imuNeedInit
  imuEn := p.imuEn

/-- The batch `Process2` passes to `IMU_init`. -/
def passed (p : ImuProcess) (lidarMeas : LidarMeasureGroup) : Option (List Imu) :=
  if p.imuEn = true ∧ p.imuNeedInit = true ∧ lidarMeas.lastMeasure.imu ≠ [] then
    some lidarMeas.lastMeasure.imu
  else none

/-- The loop of `IMU_init` writes the means and the counter. -/
lemma foldl_imuInitSample_frame (p : ImuProcess) (imu : List Imu) :
    ∃ acc gyr n, imu.foldl imuInitSample p =
      { p with meanAcc := acc, meanGyr := gyr, initIterNum := n } := by
  induction imu generalizing p with
  | nil => exact ⟨p.meanAcc, p.meanGyr, p.initIterNum, rfl⟩
  | cons a imu ih =>
      obtain ⟨acc, gyr, n, heq⟩ := ih (imuInitSample p a)
      exact ⟨acc, gyr, n, heq⟩

/-- **What `IMU_init` does to the statistics**, in the first call and in the others. -/
theorem imuInit_averages {m : Libm} {p q : ImuProcess} {meas : MeasureGroup}
    {stat stat' : StatesGroup} {seen : List Imu} (hp : p.Averages seen)
    (hfirst : p.bFirstFrame = true → seen = []) (h : imuInit m p meas stat = .ok (q, stat')) :
    q.Averages (seen ++ meas.imu) ∧ q.bFirstFrame = false ∧ q.maxIniCount = p.maxIniCount ∧
      q.imuEn = p.imuEn := by
  rw [imuInit] at h
  obtain ⟨p₁, hp₁, h⟩ := bind_eq_ok.mp h
  obtain ⟨lastImu, -, h⟩ := bind_eq_ok.mp h
  have hstart : p₁.Averages seen ∧ p₁.bFirstFrame = false ∧ p₁.maxIniCount = p.maxIniCount ∧
      p₁.imuEn = p.imuEn := by
    unfold imuInitFirstFrame at hp₁
    split_ifs at hp₁ with hframe
    · obtain rfl := hfirst hframe
      split at hp₁
      · cases hp₁
      · obtain rfl := Except.ok.inj hp₁
        exact ⟨⟨rfl, .start ℚ _, .start ℚ _⟩, rfl, rfl, rfl⟩
    · obtain rfl := Except.ok.inj hp₁
      exact ⟨hp, by simpa using hframe, rfl, rfl⟩
  obtain ⟨hstart, hframe, hmax, hen⟩ := hstart
  have hbatch := hstart.batch meas.imu
  obtain ⟨acc, gyr, n, heq⟩ := foldl_imuInitSample_frame p₁ meas.imu
  obtain ⟨rfl, -⟩ := Prod.mk.inj (Except.ok.inj h)
  refine ⟨⟨hbatch.iterNum, hbatch.acc, hbatch.gyr⟩, ?_⟩
  rw [heq]
  exact ⟨hframe, hmax, hen⟩

/-- **What `Process2` does to the initialisation**: nothing, or it passes a batch to `IMU_init` and
sees whether there are enough samples. -/
theorem process2_cases {m : Libm} {p : ImuProcess} {meas : LidarMeasureGroup} {stat : StatesGroup}
    {cur : PointCloudXYZI} {r : Processed} (hen : p.imuEn = true)
    (h : process2 m p meas stat cur = .ok r) :
    (p.passed meas = none ∧ r.imu.initRecord = p.initRecord) ∨
    (p.passed meas = some meas.lastMeasure.imu ∧ p.imuNeedInit = true ∧
      meas.lastMeasure.imu ≠ [] ∧ ∃ q stat', imuInit m p meas.lastMeasure stat = .ok (q, stat') ∧
        r.imu = { q with imuNeedInit := decide (q.initIterNum ≤ q.maxIniCount) }) := by
  unfold process2 at h
  simp only [hen, Bool.not_true, Bool.false_eq_true, if_false] at h
  split_ifs at h with hinit hempty
  · obtain rfl := Except.ok.inj h
    exact .inl ⟨if_neg fun hp => hp.2.2 hempty, rfl⟩
  · split at h
    · cases h
    · rename_i q stat' heq
      obtain rfl := Except.ok.inj h
      exact .inr ⟨if_pos ⟨hen, hinit, hempty⟩, hinit, hempty, q, stat', heq, rfl⟩
  · obtain rfl := Except.ok.inj h
    exact .inl ⟨if_neg fun hp => hinit hp.2.1, rfl⟩

/-- With the IMU in use every call returns: `IMU_init` gets batches with a first and a last sample
only. -/
lemma process2_returns (m : Libm) {p : ImuProcess} (meas : LidarMeasureGroup) (stat : StatesGroup)
    (cur : PointCloudXYZI) (hen : p.imuEn = true) : ∃ r, process2 m p meas stat cur = .ok r := by
  have hinit : meas.lastMeasure.imu ≠ [] → ∃ q, imuInit m p meas.lastMeasure stat = .ok q := by
    intro hne
    obtain ⟨first, hfront⟩ := front_returns hne
    obtain ⟨last, hback⟩ := back_returns hne
    have hframe : ∃ p₁, imuInitFirstFrame p meas.lastMeasure = .ok p₁ := by
      unfold imuInitFirstFrame
      split_ifs
      · rw [hfront]
        exact ⟨_, rfl⟩
      · exact ⟨p, rfl⟩
    obtain ⟨p₁, hp₁⟩ := hframe
    exact bind_returns hp₁ (bind_returns hback ⟨_, rfl⟩)
  unfold process2
  simp only [hen, Bool.not_true, Bool.false_eq_true, if_false]
  split_ifs with hneeds hempty
  · exact ⟨_, rfl⟩
  · obtain ⟨q, hq⟩ := hinit hempty
    rw [hq]
    exact ⟨_, rfl⟩
  · exact ⟨_, rfl⟩

/-! ## From construction on -/

/-- The process as constructed, with whatever parameters, and the IMU in use. -/
structure Fresh (p : ImuProcess) : Prop where
  firstFrame : p.bFirstFrame = true
  iterNum : p.initIterNum = 1
  needInit : p.imuNeedInit = true
  en : p.imuEn = true

/-- The batches `bs` have been passed to `IMU_init`.  The means and the counter stand for their
samples, and the process is initialised by the first of them with which there are enough. -/
structure Statistics (bs : List (List Imu)) (p : ImuProcess) : Prop where
  nonempty : ∀ b ∈ bs, b ≠ []
  averages : p.Averages bs.flatten
  cleared : p.imuNeedInit = false ↔ bs ≠ [] ∧ p.maxIniCount ≤ bs.flatten.length
  earlier : ∀ bs' b, bs = bs' ++ [b] → bs' ≠ [] → bs'.flatten.length < p.maxIniCount

/-- What the calls keep. -/
structure Initialises (bs : List (List Imu)) (p : ImuProcess) : Prop
    extends p.Statistics bs where
  en : p.imuEn = true
  firstFrame : p.bFirstFrame = true → bs = []

lemma Fresh.initialises {p : ImuProcess} (h : p.Fresh) : p.Initialises [] where
  nonempty := by simp
  averages := ⟨h.iterNum, .start ℚ _, .start ℚ _⟩
  cleared := by simp [h.needInit]
  earlier := by simp
  en := h.en
  firstFrame := fun _ => rfl

namespace Initialises

variable {bs : List (List Imu)} {p q : ImuProcess}

lemma congr (h : p.Initialises bs) (hq : q.initRecord = p.initRecord) : q.Initialises bs := by
  have hacc : q.meanAcc = p.meanAcc := congrArg InitRecord.meanAcc hq
  have hgyr : q.meanGyr = p.meanGyr := congrArg InitRecord.meanGyr hq
  have hiter : q.initIterNum = p.initIterNum := congrArg InitRecord.initIterNum hq
  have hmax : q.maxIniCount = p.maxIniCount := congrArg InitRecord.maxIniCount hq
  have hneed : q.imuNeedInit = p.imuNeedInit := congrArg InitRecord.imuNeedInit hq
  have hen : q.imuEn = p.imuEn := congrArg InitRecord.imuEn hq
  have hframe : q.bFirstFrame = p.bFirstFrame := congrArg InitRecord.bFirstFrame hq
  refine ⟨⟨h.nonempty, ⟨?_, ?_, ?_⟩, ?_, ?_⟩, ?_, ?_⟩
  · exact hiter.trans h.averages.iterNum
  · rw [hacc]
    exact h.averages.acc
  · rw [hgyr]
    exact h.averages.gyr
  · rw [hneed, hmax]
    exact h.cleared
  · rw [hmax]
    exact h.earlier
  · exact hen.trans h.en
  · rw [hframe]
    exact h.firstFrame

/-- A call of `Process2`. -/
lemma call {m : Libm} {meas : LidarMeasureGroup} {stat : StatesGroup} {cur : PointCloudXYZI}
    {r : Processed} (h : p.Initialises bs) (hr : process2 m p meas stat cur = .ok r) :
    r.imu.Initialises (bs ++ (p.passed meas).toList) ∧ r.imu.maxIniCount = p.maxIniCount := by
  rcases process2_cases h.en hr with ⟨hpassed, hsame⟩ | ⟨hpassed, hneeds, hne, q, stat', hinit, heq⟩
  · rw [hpassed, Option.toList_none, List.append_nil]
    exact ⟨h.congr hsame, congrArg InitRecord.maxIniCount hsame⟩
  · have hfirst : p.bFirstFrame = true → bs.flatten = [] := fun hframe => by
      rw [h.firstFrame hframe, List.flatten_nil]
    obtain ⟨haverages, hframe, hmax, hen⟩ := imuInit_averages h.averages hfirst hinit
    have hflatten :
        (bs ++ [meas.lastMeasure.imu]).flatten = bs.flatten ++ meas.lastMeasure.imu := by
      rw [List.flatten_append, List.flatten_singleton]
    rw [hpassed, Option.toList_some, heq]
    refine ⟨⟨⟨?_, ?_, ?_, ?_⟩, hen.trans h.en, ?_⟩, hmax⟩
    · intro b hb
      rcases List.mem_append.mp hb with hb | hb
      · exact h.nonempty b hb
      · rwa [List.mem_singleton.mp hb]
    · rw [hflatten]
      exact ⟨haverages.iterNum, haverages.acc, haverages.gyr⟩
    · rw [hflatten]
      show decide (q.initIterNum ≤ q.maxIniCount) = false ↔ _ ∧ q.maxIniCount ≤ _
      rw [decide_eq_false_iff_not, haverages.iterNum]
      constructor
      · intro hmany
        exact ⟨by simp, by omega⟩
      · rintro ⟨-, hmany⟩
        omega
    · intro bs' b hbs hne'
      obtain ⟨rfl, -⟩ := List.append_inj' hbs rfl
      show _ < q.maxIniCount
      rw [hmax]
      by_contra hmany
      have hdone := h.cleared.mpr ⟨hne', not_lt.mp hmany⟩
      exact absurd (hneeds.symm.trans hdone) (by simp)
    · intro hframe'
      exact absurd (hframe'.symm.trans hframe) (by simp)

end Initialises

/-- What a call of `Process2` is given besides the process. -/
structure Process2Call where
  lidarMeas : LidarMeasureGroup
  stat : StatesGroup := {}
  curPclUn : PointCloudXYZI := []

/-- The process takes a call of `Process2`. -/
def take (m : Libm) (p : ImuProcess) (c : Process2Call) : Except Fault (ImuProcess × Processed) :=
  match process2 m p c.lidarMeas c.stat c.curPclUn with
  | .error f => .error f
  | .ok r => .ok (r.imu, r)

/-- The batches passed to `IMU_init`. -/
def batches (tr : List (Turn ImuProcess Process2Call Processed)) : List (List Imu) :=
  tr.filterMap fun x => x.pre.passed x.event.lidarMeas

lemma take_eq_ok {m : Libm} {p q : ImuProcess} {c : Process2Call} {r : Processed}
    (h : take m p c = .ok (q, r)) : process2 m p c.lidarMeas c.stat c.curPclUn = .ok r ∧
      q = r.imu := by
  unfold take at h
  split at h
  · cases h
  · rename_i heq
    obtain ⟨rfl, rfl⟩ := Prod.mk.inj (Except.ok.inj h)
    exact ⟨heq, rfl⟩

/-- What any number of calls keeps. -/
lemma initialises_of_exec {m : Libm} {p₀ p : ImuProcess}
    {tr : List (Turn ImuProcess Process2Call Processed)} (h₀ : p₀.Fresh)
    (h : Exec (take m) p₀ tr p) :
    p.Initialises (batches tr) ∧ p.maxIniCount = p₀.maxIniCount := by
  refine Exec.history (P := fun tr p => p.Initialises (batches tr) ∧
    p.maxIniCount = p₀.maxIniCount) (C := fun _ => True) ⟨h₀.initialises, rfl⟩ ?_ h
    fun _ _ => trivial
  rintro tr x - hx - ⟨hpre, hmax⟩
  obtain ⟨hcall, hpost⟩ := take_eq_ok hx
  obtain ⟨hstep, hsame⟩ := hpre.call hcall
  have hbatches : batches (tr ++ [x]) =
      batches tr ++ (x.pre.passed x.event.lidarMeas).toList := by
    rw [batches, batches, List.filterMap_append]
    cases hp : x.pre.passed x.event.lidarMeas <;> simp [hp]
  rw [hbatches, hpost]
  exact ⟨hstep, hsame.trans hmax⟩

/-- **The statistics of the initialisation.**  Any calls of `Process2` from construction on return,
and leave the means of the samples passed to `IMU_init`, one more than their number in the counter,
and an initialised process exactly if there have been enough, since the last batch. -/
theorem imuInit_statistics (m : Libm) {p₀ : ImuProcess} (h₀ : p₀.Fresh)
    (calls : List Process2Call) : ∃ tr p, run (take m) calls p₀ = .ok (tr, p) ∧
      p.maxIniCount = p₀.maxIniCount ∧ p.Statistics (batches tr) := by
  have hreturns : ∀ (p : ImuProcess) (c : Process2Call), p.imuEn = true →
      ∃ q r, take m p c = .ok (q, r) ∧ q.imuEn = true := by
    intro p c hen
    obtain ⟨r, hr⟩ := process2_returns m c.lidarMeas c.stat c.curPclUn hen
    refine ⟨r.imu, r, by rw [take, hr], ?_⟩
    cases process2_propagates hr with
    | noImu en en' => exact absurd (hen.symm.trans en) (by simp)
    | init en en' => exact en'
    | undistort en en' => exact en'
  obtain ⟨tr, p, hrun, -⟩ := run_returns hreturns calls h₀.en
  obtain ⟨hinit, hmax⟩ := initialises_of_exec h₀ (Exec.of_run hrun)
  exact ⟨tr, p, hrun, hmax, hinit.toStatistics⟩

/-- A process that is to see three samples. -/
def threeSamples : ImuProcess :=
  { lastPropEndTime := 0, timeLastScan := 0, lidarType := 0, maxIniCount := 3 }

/-- A batch of samples with the accelerations `as` along the vertical. -/
def liftBatch (as : List ℚ) : Process2Call where
  lidarMeas := { measures := [{ imu := as.map fun a => ⟨0, 0, ![0, 0, a]⟩ }] }

/-- Two samples and two more are enough; a third batch is not looked at. -/
theorem imuInit_statistics_fourSamples :
    let calls := [liftBatch [9, 10], liftBatch [11, 14], liftBatch [20]]
    (trace (take ⟨fun _ => 0, fun _ => 1, fun _ => 1⟩) calls threeSamples).2.meanAcc 2 = 11 ∧
      ∃ tr p, run (take ⟨fun _ => 0, fun _ => 1, fun _ => 1⟩) calls threeSamples = .ok (tr, p) ∧
        p.maxIniCount = 3 ∧ p.Statistics (batches tr) :=
  ⟨by decide +kernel, imuInit_statistics _ ⟨rfl, rfl, rfl, rfl⟩ _⟩

end ImuProcess

/-! ## In a run of the node -/

open LIVMapper

variable {cfg : Config} {tr : List NodeTurn} {s t g : LIVMapper}

/-- A group handed out goes through one call of `Process2`. -/
lemma process2_of_pass {est : Estimate} (h : s.step cfg (.pass est) = .ok (t, some g)) :
    ∃ p r stat cur, p.initRecord = g.pImu.initRecord ∧
      ImuProcess.process2 cfg.libm p g.lidarMeasures stat cur = .ok r ∧ t.pImu = r.imu := by
  have hfirst : g.handleFirstFrame.pImu.initRecord = g.pImu.initRecord ∧
      g.handleFirstFrame.lidarMeasures = g.lidarMeasures := by
    unfold handleFirstFrame
    split_ifs <;> exact ⟨rfl, rfl⟩
  simp only [LIVMapper.step, LIVMapper.pass] at h
  split at h
  · cases h
  · cases (Prod.mk.inj (Except.ok.inj h)).2
  · split at h
    · cases h
    · rename_i u hprocess
      obtain ⟨rfl, hg⟩ := Prod.mk.inj (Except.ok.inj h)
      obtain rfl := Option.some.inj hg
      rw [(stateEstimationAndMapping_frame cfg u est).2.1]
      unfold processImu at hprocess
      rw [hfirst.2] at hprocess
      split at hprocess
      · cases hprocess
      · rename_i r hr
        obtain rfl := Except.ok.inj hprocess
        refine ⟨_, r, _, _, hfirst.1, hr, ?_⟩
        split_ifs
        · exact (gravityAlignment_frame cfg _).2.1
        · rfl

lemma ImuProcess.passed_congr {p q : ImuProcess} (h : p.initRecord = q.initRecord)
    (meas : LidarMeasureGroup) : p.passed meas = q.passed meas := by
  have hneed : p.imuNeedInit = q.imuNeedInit := congrArg ImuProcess.InitRecord.imuNeedInit h
  have hen : p.imuEn = q.imuEn := congrArg ImuProcess.InitRecord.imuEn h
  rw [ImuProcess.passed, ImuProcess.passed, hneed, hen]

/-- **The initialisation of a run.**  In every run with the IMU in use the statistics are those of
the groups handed out. -/
theorem imuStatistics_of_run (h : NodeRun cfg tr t) (hen : cfg.imuEn = true) :
    t.pImu.Statistics ((groups tr).filterMap fun g => g.pImu.passed g.lidarMeasures) := by
  have hinitial : cfg.initialImu.Fresh := ⟨rfl, rfl, hen, hen⟩
  have hall := Exec.history (P := fun tr s => s.pImu.Initialises
    ((groups tr).filterMap fun g => g.pImu.passed g.lidarMeasures)) (C := fun _ => True)
    hinitial.initialises ?_ h fun _ _ => trivial
  · exact hall.toStatistics
  rintro tr ⟨s, ev, obs, u⟩ - hx - ih
  have hsteps : Steps cfg s ev obs u := hx.steps
  rw [groups_snoc, List.filterMap_append]
  cases obs with
  | none =>
      rw [Option.toList_none, List.filterMap_nil, List.append_nil]
      exact ih.congr (congrArg ImuProcess.initRecord hsteps.pImu)
  | some g =>
      obtain ⟨est, rfl, hsync, -⟩ := hsteps.of_group
      obtain ⟨p, r, stat, cur, hrecord, hr, hpost⟩ := process2_of_pass hx
      have hp : p.Initialises ((groups tr).filterMap fun g => g.pImu.passed g.lidarMeasures) := by
        refine ih.congr ?_
        rw [hrecord, (syncPackages_frame hsync).pImu]
      have hlast : (some g).toList.filterMap (fun g => g.pImu.passed g.lidarMeasures) =
          (p.passed g.lidarMeasures).toList := by
        rw [ImuProcess.passed_congr hrecord]
        cases hg : g.pImu.passed g.lidarMeasures <;> simp [hg]
      show u.pImu.Initialises _
      rw [hlast, hpost]
      exact (hp.call hr).1

end FastLivo2
