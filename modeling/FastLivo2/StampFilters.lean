import FastLivo2.Run

/-!
# The stamp filters of the callbacks, in the arithmetic of the code

`imu_cbk` and `img_cbk` judge a message by the stamps they remember and nothing else of the node,
and their comparisons are close enough for the rounding of doubles to matter.  So the filters are
a machine of their own here, over the rounding `fl` of an operation on doubles.  With no rounding
it is what the node does (`filters_of_exec`).
-/

namespace FastLivo2

/-- What the callbacks remember to judge the next message by. -/
structure StampFilters where
  lastTimestampLidar : ℚ := -1
  lastTimestampImu : ℚ := -1
  lastTimestampImg : ℚ := -1
  frameCounter : ℕ := 0

/-- A message for one of the callbacks. -/
inductive Arrival
  | pclCbk (driver : LidarDriver) (msg : LidarMsg)
  | imuCbk (msg : Imu)
  | imgCbk (msg : Image)

/-- The IMU message among the arrivals. -/
def Arrival.imuMsg : Arrival → Option Imu
  | .imuCbk msg => some msg
  | _ => none

/-- The image among the arrivals. -/
def Arrival.imgMsg : Arrival → Option Image
  | .imgCbk msg => some msg
  | _ => none

namespace StampFilters

/-! ## The callbacks -/

section Callbacks

variable (fl : ℚ → ℚ) (cfg : Config)

/-- `stamp2Sec`: the nanoseconds as a double, divided. -/
def stamp2Sec (stamp : Stamp) : ℚ := fl (fl stamp / 1000000000)

/-- Whole seconds and truncated nanoseconds. -/
def truncated (timestamp : ℚ) : Stamp :=
  (⌊timestamp⌋ * 1000000000 + ⌊fl (fl (timestamp - ⌊timestamp⌋) * 1000000000)⌋).toNat

/-- `sec2Stamp`. -/
def sec2Stamp (timestamp : ℚ) : Except Fault Stamp :=
  if 0 ≤ ⌊timestamp⌋ ∧ ⌊timestamp⌋ < 2147483648 then .ok (truncated fl timestamp)
  else .error .timeRange

/-- `cur_head_time`. -/
def headTime : LidarDriver → LidarMsg → ℚ
  | .standard, msg => fl (stamp2Sec fl msg.stamp + cfg.lidarTimeOffset)
  | .livox, msg => stamp2Sec fl msg.stamp

/-- `timestamp` in `imu_cbk`. -/
def imuTimestamp (s : StampFilters) (msgIn : Imu) : Except Fault ℚ :=
  match sec2Stamp fl (fl (stamp2Sec fl msgIn.stamp - cfg.imuTimeOffset)) with
  | .error f => .error f
  | .ok stamp =>
      .ok (if cfg.rosDriverFixEn then
        fl (stamp2Sec fl stamp +
          LIVMapper.stdRound (fl (s.lastTimestampLidar - stamp2Sec fl stamp)))
      else stamp2Sec fl stamp)

/-- `imu_cbk` compares a new stamp with the one remembered: neither a loop back nor a jump. -/
def ImuGate (last t : ℚ) : Prop :=
  ¬(0 < last ∧ t < last) ∧ ¬(0 < last ∧ fl (last + fl (1 / 5)) < t)

instance : DecidableRel (ImuGate fl) := fun last t =>
  inferInstanceAs (Decidable (¬(0 < last ∧ t < last) ∧ ¬(0 < last ∧ fl (last + fl (1 / 5)) < t)))

/-- `LIVMapper::imu_cbk`, and whether it pushes the message. -/
def imuCbk (s : StampFilters) (msgIn : Imu) : Except Fault (StampFilters × Bool) :=
  if !cfg.imuEn then .ok (s, false)
  else if s.lastTimestampLidar < 0 then .ok (s, false)
  else
    match s.imuTimestamp fl cfg msgIn with
    | .error f => .error f
    | .ok timestamp =>
        match sec2Stamp fl timestamp with
        | .error f => .error f
        | .ok _ =>
            if ImuGate fl s.lastTimestampImu timestamp then
              .ok ({ s with lastTimestampImu := timestamp }, true)
            else .ok (s, false)

/-- `msg_header_time`. -/
def imgTime (msg : Image) : ℚ := fl (stamp2Sec fl msg.stamp + cfg.imgTimeOffset)

/-- `img_cbk` compares a new stamp with the one remembered: neither a duplicate nor a loop back
nor too fast. -/
def ImgGate (last t : ℚ) : Prop :=
  ¬|fl (t - last)| < fl (1 / 1000) ∧ ¬t < last ∧ ¬fl (t - last) < fl (1 / 20)

instance : DecidableRel (ImgGate fl) := fun last t =>
  inferInstanceAs (Decidable
    (¬|fl (t - last)| < fl (1 / 1000) ∧ ¬t < last ∧ ¬fl (t - last) < fl (1 / 20)))

/-- The static counter skips three of four images of the 40 Hz camera. -/
def countFrame (s : StampFilters) : StampFilters :=
  if cfg.hiltiEn then { s with frameCounter := s.frameCounter + 1 } else s

/-- `LIVMapper::img_cbk`, and whether it pushes the image. -/
def imgCbk (s : StampFilters) (msg : Image) : StampFilters × Bool :=
  if !cfg.imgEn then (s, false)
  else
    let s := s.countFrame cfg
    if cfg.hiltiEn ∧ s.frameCounter % 4 ≠ 0 then (s, false)
    else if ¬s.lastTimestampLidar < 0 ∧ ImgGate fl s.lastTimestampImg (imgTime fl cfg msg) then
      ({ s with lastTimestampImg := imgTime fl cfg msg }, true)
    else (s, false)

/-- A callback takes its message, and shows whether it pushed it. -/
def step (s : StampFilters) : Arrival → Except Fault (StampFilters × Bool)
  | .pclCbk driver msg =>
      if LIVMapper.FilesScan cfg driver msg then
        .ok ({ s with lastTimestampLidar := headTime fl cfg driver msg }, true)
      else .ok (s, false)
  | .imuCbk msg => s.imuCbk fl cfg msg
  | .imgCbk msg => .ok (s.imgCbk fl cfg msg)

end Callbacks

end StampFilters

namespace LIVMapper

/-! ## The filters of the node -/

/-- Only the two callbacks move the remembered stamps. -/
lemma Steps.lastTimestamps {cfg : Config} {s t : LIVMapper} {ev : Event} {obs : Option LIVMapper}
    (h : Steps cfg s ev obs t) :
    ((∀ msg, ev ≠ .imuCbk msg) → t.lastTimestampImu = s.lastTimestampImu) ∧
      ((∀ msg, ev ≠ .imgCbk msg) → t.lastTimestampImg = s.lastTimestampImg) := by
  cases h with
  | pclCbk driver msg =>
      have hframe := lidarCbk_frame cfg driver s msg
      exact ⟨fun _ => hframe.lastImu, fun _ => hframe.lastImg⟩
  | imuCbk cbk => exact ⟨fun h => absurd rfl (h _), fun _ => (imuCbk_frame cbk).lastImg⟩
  | imgCbk msg => exact ⟨fun _ => (imgCbk_frame cfg s msg).lastImu, fun h => absurd rfl (h _)⟩
  | imuPropCallback =>
      have hframe := (imuPropCallback_frame cfg s).1
      exact ⟨fun _ => hframe.lastImu, fun _ => hframe.lastImg⟩
  | idle sync =>
      have hframe := syncPackages_frame sync
      exact ⟨fun _ => hframe.lastImu, fun _ => hframe.lastImg⟩
  | group sync handled =>
      have hframe := syncPackages_frame sync
      exact ⟨fun _ => handled.buffers.lastImu.trans hframe.lastImu,
        fun _ => handled.buffers.lastImg.trans hframe.lastImg⟩

/-- The stamps and the counter the node remembers. -/
@[simps]
def filters (s : LIVMapper) : StampFilters where
  lastTimestampLidar := s.lastTimestampLidar
  lastTimestampImu := s.lastTimestampImu
  lastTimestampImg := s.lastTimestampImg
  frameCounter := s.frameCounter

end LIVMapper

/-- The message a callback gets from an event. -/
def Event.arrival : Event → Option Arrival
  | .pclCbk driver msg => some (.pclCbk driver msg)
  | .imuCbk msg => some (.imuCbk msg)
  | .imgCbk msg => some (.imgCbk msg)
  | _ => none

/-- The node pushes the message. -/
def LIVMapper.pushes (cfg : Config) (s : LIVMapper) : Arrival → Bool
  | .pclCbk driver msg => decide (LIVMapper.FilesScan cfg driver msg)
  | .imuCbk msg => s.acceptsImu cfg msg
  | .imgCbk msg => s.acceptsImg cfg msg

namespace LIVMapper

variable {cfg : Config} {s t : LIVMapper}

lemma pclCbk_filters (driver : LidarDriver) (msg : LidarMsg) :
    s.filters.step id cfg (.pclCbk driver msg) =
      .ok ((lidarCbk cfg driver s msg).filters, decide (FilesScan cfg driver msg)) := by
  have hhead : StampFilters.headTime id cfg driver msg = headTime cfg driver msg := by
    cases driver <;> rfl
  rw [StampFilters.step, hhead]
  rcases lidarCbk_cases cfg driver s msg with ⟨hoff, heq⟩ | ⟨hskip, -, heq⟩ | ⟨hfiles, heq⟩
  · have hskip : ¬FilesScan cfg driver msg := fun h => by simp [h.1] at hoff
    rw [if_neg hskip, heq, decide_eq_false hskip]
  · rw [if_neg hskip, heq, clearLoopBack_eq, decide_eq_false hskip]
    rfl
  · rw [if_pos hfiles, heq, clearLoopBack_eq, decide_eq_true hfiles]
    rfl

/-- With no rounding `sec2Stamp` is exact. -/
lemma sec2Stamp_id (time : ℚ) : StampFilters.sec2Stamp id time = sec2Stamp time := by
  unfold StampFilters.sec2Stamp sec2Stamp StampFilters.truncated
  dsimp only [id]
  split_ifs with hsec
  · have hfrac : 0 ≤ ⌊(time - ⌊time⌋) * 1000000000⌋ :=
      Int.floor_nonneg.mpr (mul_nonneg (sub_nonneg.mpr (Int.floor_le time)) (by norm_num))
    have hwhole : ∀ {a b : ℤ}, 0 ≤ a → 0 ≤ b →
        (a * 1000000000 + b).toNat = a.toNat * 1000000000 + b.toNat := by
      intro a b ha hb
      omega
    exact congrArg Except.ok (hwhole hsec.1 hfrac)
  · rfl

lemma imuCbk_filters {msg : Imu} (h : imuCbk cfg s msg = .ok t) :
    s.filters.step id cfg (.imuCbk msg) = .ok (t.filters, s.acceptsImu cfg msg) := by
  have htime : s.filters.imuTimestamp id cfg msg = s.imuTimestamp cfg msg := by
    unfold StampFilters.imuTimestamp imuTimestamp
    rw [sec2Stamp_id]
    rfl
  have hgate : ∀ time, decide (StampFilters.ImuGate id s.lastTimestampImu time) =
      s.imuPasses time := by
    intro time
    rw [Bool.eq_iff_iff, decide_eq_true_iff]
    simp only [StampFilters.ImuGate, imuPasses, id, Bool.and_eq_true, Bool.not_eq_true',
      Bool.and_eq_false_iff, decide_eq_false_iff_not, not_and_or]
  rw [StampFilters.step, StampFilters.imuCbk, htime, filters_lastTimestampLidar,
    filters_lastTimestampImu]
  unfold imuCbk at h
  unfold acceptsImu
  split_ifs at h ⊢ with himu hunseen
  · obtain rfl := Except.ok.inj h
    have hoff : cfg.imuEn = false := by simpa using himu
    simp [hoff]
  · obtain rfl := Except.ok.inj h
    simp [hunseen]
  · have hon : cfg.imuEn = true := by simpa using himu
    cases htimestamp : s.imuTimestamp cfg msg with
    | error f => simp [htimestamp] at h
    | ok time =>
        rw [htimestamp] at h
        dsimp only at h ⊢
        rw [sec2Stamp_id]
        cases hstamp : sec2Stamp time with
        | error f => simp [hstamp] at h
        | ok stamp =>
            rw [hstamp] at h
            dsimp only at h ⊢
            have hpasses := hgate time
            have haccepts : (cfg.imuEn && (!decide (s.lastTimestampLidar < 0) &&
                s.imuPasses time)) = s.imuPasses time := by simp [hon, hunseen]
            rw [haccepts, ← hpasses]
            rw [← hpasses] at h
            by_cases hpass : StampFilters.ImuGate id s.lastTimestampImu time
            · rw [if_pos (decide_eq_true hpass)] at h
              obtain rfl := Except.ok.inj h
              rw [decide_eq_true hpass]
              exact if_pos hpass
            · rw [if_neg (by simpa using hpass)] at h
              obtain rfl := Except.ok.inj h
              rw [decide_eq_false hpass]
              exact if_neg hpass

lemma imgCbk_filters (msg : Image) : s.filters.step id cfg (.imgCbk msg) =
    .ok ((imgCbk cfg s msg).filters, s.acceptsImg cfg msg) := by
  have htime : StampFilters.imgTime id cfg msg = imgTime cfg msg := rfl
  have hgate : ∀ u : LIVMapper, u.imgPasses (imgTime cfg msg) =
      decide (¬u.lastTimestampLidar < 0 ∧
        StampFilters.ImgGate id u.lastTimestampImg (imgTime cfg msg)) := by
    intro u
    rw [Bool.eq_iff_iff, decide_eq_true_iff]
    simp only [StampFilters.ImgGate, imgPasses, id, Bool.and_eq_true, Bool.not_eq_true',
      decide_eq_false_iff_not]
    tauto
  have hcount : s.filters.countFrame cfg = (s.countFrame cfg).filters := by
    unfold StampFilters.countFrame countFrame
    split_ifs <;> rfl
  have haccepts : s.acceptsImg cfg msg = (cfg.imgEn &&
      (!decide (cfg.hiltiEn = true ∧ (s.countFrame cfg).frameCounter % 4 ≠ 0) &&
        (s.countFrame cfg).imgPasses (imgTime cfg msg))) := by
    unfold acceptsImg countFrame
    split_ifs with hhilti
    · simp [hhilti, imgPasses]
    · simp [hhilti]
  rw [StampFilters.step, StampFilters.imgCbk, htime, hcount, haccepts, hgate]
  unfold imgCbk
  dsimp only
  rw [hgate]
  cases cfg.imgEn with
  | false => rfl
  | true =>
      by_cases hskip : cfg.hiltiEn = true ∧ (s.countFrame cfg).frameCounter % 4 ≠ 0
      · simp only [Bool.not_true, Bool.false_eq_true, if_false, decide_eq_true hskip, Bool.true_and,
          Bool.false_and]
        rw [if_pos hskip, if_pos (by exact hskip)]
      · simp only [Bool.not_true, Bool.false_eq_true, if_false, decide_eq_false hskip,
          Bool.not_false, Bool.true_and, decide_eq_true_eq]
        rw [if_neg hskip, if_neg (by exact hskip)]
        simp only [filters_lastTimestampLidar, filters_lastTimestampImg]
        split_ifs with hpass
        · rw [decide_eq_true hpass]
          rfl
        · rw [decide_eq_false hpass]

end LIVMapper

/-- A turn of the filters. -/
abbrev FilterTurn := Turn StampFilters Arrival Bool

/-- What a turn of the node tells the filters, and whether it pushes the message. -/
def pushedArrival (cfg : Config) (x : NodeTurn) : Option (Arrival × Bool) :=
  x.event.arrival.map fun a => (a, x.pre.pushes cfg a)

/-- A callback's turn is one of the filters. -/
lemma LIVMapper.Steps.filters_of_arrival {cfg : Config} {s t : LIVMapper} {ev : Event}
    {obs : Option LIVMapper} (h : LIVMapper.Steps cfg s ev obs t) {a : Arrival}
    (ha : ev.arrival = some a) : s.filters.step id cfg a = .ok (t.filters, s.pushes cfg a) := by
  cases h with
  | pclCbk driver msg =>
      obtain rfl := Option.some.inj ha
      exact pclCbk_filters driver msg
  | imuCbk cbk =>
      obtain rfl := Option.some.inj ha
      exact imuCbk_filters cbk
  | imgCbk msg =>
      obtain rfl := Option.some.inj ha
      exact imgCbk_filters msg
  | imuPropCallback => cases ha
  | idle sync => cases ha
  | group sync handled => cases ha

/-- Whatever is no callback of a message leaves the filters as they are. -/
lemma LIVMapper.Steps.filters_of_none {cfg : Config} {s t : LIVMapper} {ev : Event}
    {obs : Option LIVMapper} (h : LIVMapper.Steps cfg s ev obs t) (ha : ev.arrival = none) :
    t.filters = s.filters := by
  have hsync : ∀ {b : Bool} {u : LIVMapper}, s.syncPackages cfg = .ok (b, u) →
      u.filters = s.filters := by
    intro b u hsync
    have hframe := syncPackages_frame hsync
    unfold LIVMapper.filters
    rw [hframe.lastLidar, hframe.lastImu, hframe.lastImg, hframe.frameCounter]
  have hsame : ∀ {u v : LIVMapper}, SameBuffers u v → v.filters = u.filters := by
    intro u v hsame
    unfold LIVMapper.filters
    rw [hsame.lastLidar, hsame.lastImu, hsame.lastImg, hsame.frameCounter]
  cases h with
  | pclCbk driver msg => cases ha
  | imuCbk cbk => cases ha
  | imgCbk msg => cases ha
  | imuPropCallback => exact hsame (imuPropCallback_frame cfg s).1
  | idle sync => exact hsync sync
  | group sync handled => exact (hsame handled.buffers).trans (hsync sync)

/-- **The filters are the node's.**  Every run of the node, in exact arithmetic, is a run of the
filters on its messages, which push what the node pushes. -/
theorem filters_of_exec {cfg : Config} {s t : LIVMapper} {tr : List NodeTurn}
    (h : Exec (LIVMapper.step cfg) s tr t) :
    ∃ tr' : List FilterTurn, Exec (StampFilters.step id cfg) s.filters tr' t.filters ∧
      tr'.map (fun y => (y.event, y.obs)) = tr.filterMap (pushedArrival cfg) := by
  have hlots : ∃ lots, List.Forall₂ (fun x lot =>
        lot.map (fun y => (y.event, y.obs)) = (pushedArrival cfg x).toList) tr lots ∧
      Exec (StampFilters.step id cfg) s.filters lots.flatten t.filters := by
    refine h.simulation LIVMapper.filters (C := fun _ => True) (fun x hx _ => ?_) fun _ _ => trivial
    cases ha : x.event.arrival with
    | none =>
        refine ⟨[], ?_, by simp [pushedArrival, ha]⟩
        rw [hx.steps.filters_of_none ha]
        exact .nil
    | some a =>
        refine ⟨[⟨x.pre.filters, a, x.pre.pushes cfg a, x.post.filters⟩], ?_,
          by simp [pushedArrival, ha]⟩
        exact Exec.nil.cons (x := ⟨_, a, _, _⟩) (hx.steps.filters_of_arrival ha)
  obtain ⟨lots, hlots, hexec⟩ := hlots
  refine ⟨lots.flatten, hexec, ?_⟩
  clear h hexec
  induction hlots with
  | nil => rfl
  | @cons x lot xs lots hx _ ih =>
      rw [List.flatten_cons, List.map_append, hx, ih]
      cases ha : pushedArrival cfg x <;> simp [ha]

end FastLivo2
