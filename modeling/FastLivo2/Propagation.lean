import FastLivo2.ImuProcess
import FastLivo2.Lib.Exec
import FastLivo2.Lib.Tiling

/-!
# The time covered by forward propagation

The forward loop of `UndistortPcl` walks over the pairs of consecutive samples in `v_imu`, the
last sample of the previous group followed by the window of this one, and integrates over a
`dt` that one of three branches chooses.  The steps should tile the interval from the end of
the previous propagation to the end of this one.

The branches overlap when the window is short.  The first pair starts at the end of the previous
propagation, the last pair runs to the end of this one, and a pair that is both takes only one
of the two corrections; with no pair at all nothing is integrated, yet the end still advances.
`undistortPcl_tiles_iff` says for each length of the window when the steps tile.
-/

namespace FastLivo2

namespace ImuProcess

/-! ## The step lengths -/

/-- The `dt` of each iteration of the forward loop. -/
def dts (p : ImuProcess) (meas : LidarMeasureGroup) : List ℚ :=
  (p.undistortSteps meas).map PropStep.dt

/-- The call belongs to a LIO or VIO group, and its window is sorted and lies after the end of
the previous propagation and up to the end of this one. -/
structure WindowIn (p : ImuProcess) (meas : LidarMeasureGroup) : Prop where
  flg : meas.lioVioFlg = .lio ∨ meas.lioVioFlg = .vio
  sorted : meas.lastMeasure.imu.Pairwise fun a b => a.time ≤ b.time
  inside : ∀ imu ∈ meas.lastMeasure.imu,
    p.lastPropEndTime < imu.time ∧ imu.time ≤ propEndTime meas

/-- When the steps cover the interval.  An empty window covers nothing; a single sample is
the end of the first step or the start of the last, not both; from two samples on it is enough
that the sample kept from before does not lie inside the interval. -/
def Covers (p : ImuProcess) (meas : LidarMeasureGroup) : Prop :=
  match meas.lastMeasure.imu with
  | [] => propEndTime meas = p.lastPropEndTime
  | [imu] => (p.lastImu.time < p.lastPropEndTime ∧ imu.time = propEndTime meas) ∨
      p.lastImu.time = p.lastPropEndTime
  | _ :: _ :: _ => p.lastImu.time ≤ p.lastPropEndTime

/-- From a head that is not before the start on, the steps are the gaps between the samples,
with the end of the propagation in place of the last one. -/
lemma propSteps_dt (begTime lastEnd endTime : ℚ) {head tail : Imu} {rest : List Imu}
    (h : ∀ imu ∈ head :: tail :: rest, begTime ≤ imu.time) :
    (propSteps begTime lastEnd endTime (head :: tail :: rest)).map PropStep.dt =
      gaps head.time ((tail :: rest).dropLast.map Imu.time ++ [endTime]) := by
  induction rest generalizing head tail with
  | nil =>
      have hhead : ¬stamp2Sec head.stamp < begTime := not_lt.mpr (h head (by simp))
      have htail : ¬stamp2Sec tail.stamp < begTime := not_lt.mpr (h tail (by simp))
      simp [propSteps, hhead, htail, gaps, Imu.time]
  | cons next rest ih =>
      have hhead : ¬stamp2Sec head.stamp < begTime := not_lt.mpr (h head (by simp))
      have htail : ¬stamp2Sec tail.stamp < begTime := not_lt.mpr (h tail (by simp))
      have hrest := ih fun imu himu => h imu (List.mem_cons_of_mem head himu)
      rw [propSteps, if_neg htail, if_neg hhead, if_pos (List.cons_ne_nil next rest),
        List.map_cons, hrest]
      simp [gaps, Imu.time]

/-- A head before the start gives a first step from the end of the previous propagation. -/
lemma propSteps_dt_before (begTime lastEnd endTime : ℚ) {head tail : Imu} {rest : List Imu}
    (hhead : head.time < begTime) (htail : begTime ≤ tail.time) :
    (propSteps begTime lastEnd endTime (head :: tail :: rest)).map PropStep.dt =
      (tail.time - lastEnd) ::
        (propSteps begTime lastEnd endTime (tail :: rest)).map PropStep.dt := by
  have htail' : ¬stamp2Sec tail.stamp < begTime := not_lt.mpr htail
  have hhead' : stamp2Sec head.stamp < begTime := hhead
  rw [propSteps, if_neg htail', if_pos hhead', List.map_cons]
  rfl

lemma sum_gaps_endTime (a endTime : ℚ) (ms : List ℚ) :
    (gaps a (ms ++ [endTime])).sum = endTime - a := by
  rw [sum_gaps, List.getLastD_concat]

lemma tiles_gaps_endTime {a endTime : ℚ} {ms : List ℚ}
    (h : (a :: (ms ++ [endTime])).IsChain (· ≤ ·)) :
    Tiles (gaps a (ms ++ [endTime])) a endTime := by
  have htiles := tiles_gaps h
  rwa [List.getLastD_concat] at htiles

/-- The marks of a window in order, closed by the end of the propagation. -/
lemma chain_window {start endTime : ℚ} {ws : List Imu}
    (hsorted : ws.Pairwise fun a b => a.time ≤ b.time) (hstart : ∀ imu ∈ ws, start ≤ imu.time)
    (hend : ∀ imu ∈ ws, imu.time ≤ endTime) (hle : start ≤ endTime) :
    (start :: (ws.dropLast.map Imu.time ++ [endTime])).IsChain (· ≤ ·) := by
  have hdrop : ws.dropLast.Pairwise fun a b => a.time ≤ b.time :=
    hsorted.sublist (List.dropLast_sublist ws)
  refine List.Pairwise.isChain (List.pairwise_cons.mpr ⟨?_, List.pairwise_append.mpr ⟨?_, ?_, ?_⟩⟩)
  · intro t ht
    rcases List.mem_append.mp ht with ht | ht
    · obtain ⟨imu, himu, rfl⟩ := List.mem_map.mp ht
      exact hstart imu (List.mem_of_mem_dropLast himu)
    · rwa [List.mem_singleton.mp ht]
  · exact List.pairwise_map.mpr hdrop
  · exact List.pairwise_singleton _ _
  · intro t ht u hu
    obtain ⟨imu, himu, rfl⟩ := List.mem_map.mp ht
    rw [List.mem_singleton.mp hu]
    exact hend imu (List.mem_of_mem_dropLast himu)

/-- A window whose kept sample is not before the start tiles exactly when that sample is the
start. -/
lemma tiles_from_head {start endTime : ℚ} {head w : Imu} {ws : List Imu}
    (hhead : start ≤ head.time) (hsorted : (w :: ws).Pairwise fun a b => a.time ≤ b.time)
    (hin : ∀ imu ∈ w :: ws, start < imu.time ∧ imu.time ≤ endTime) :
    Tiles ((propSteps start start endTime (head :: w :: ws)).map PropStep.dt) start endTime ↔
      head.time = start := by
  have hall : ∀ imu ∈ head :: w :: ws, start ≤ imu.time := by
    intro imu himu
    rcases List.mem_cons.mp himu with rfl | himu
    · exact hhead
    · exact (hin imu himu).1.le
  rw [propSteps_dt start start endTime hall]
  constructor
  · rintro ⟨-, hsum⟩
    rw [sum_gaps_endTime] at hsum
    linarith
  · intro hstart
    have hle : start ≤ endTime := (hin w (by simp)).1.le.trans (hin w (by simp)).2
    have hchain := chain_window hsorted (fun imu himu => (hin imu himu).1.le)
      (fun imu himu => (hin imu himu).2) hle
    rw [hstart]
    exact tiles_gaps_endTime hchain

/-- **When the steps of a call tile its interval.** -/
theorem undistortPcl_tiles_iff {p : ImuProcess} {meas : LidarMeasureGroup}
    (h : p.WindowIn meas) :
    Tiles (p.dts meas) p.lastPropEndTime (propEndTime meas) ↔ p.Covers meas := by
  obtain ⟨hflg, hsorted, hin⟩ := h
  have hdts : p.dts meas = (propSteps p.lastPropEndTime p.lastPropEndTime (propEndTime meas)
      (p.lastImu :: meas.lastMeasure.imu)).map PropStep.dt := by
    rw [dts, undistortSteps, if_pos hflg]
    rfl
  rw [hdts, Covers]
  rcases hws : meas.lastMeasure.imu with _ | ⟨w, _ | ⟨v, ws⟩⟩
  · exact tiles_nil
  · rw [hws] at hsorted hin
    have hw := hin w (by simp)
    rcases lt_or_ge p.lastImu.time p.lastPropEndTime with hlt | hge
    · rw [propSteps_dt_before _ _ _ hlt hw.1.le]
      simp only [propSteps, List.map_nil, tiles_singleton]
      constructor
      · rintro ⟨-, hsum⟩
        exact .inl ⟨hlt, by linarith⟩
      · rintro (⟨-, hend⟩ | heq)
        · exact ⟨by linarith, by linarith⟩
        · exact absurd heq hlt.ne
    · rw [tiles_from_head hge hsorted hin]
      simp [not_lt.mpr hge]
  · rw [hws] at hsorted hin
    have hw := hin w (by simp)
    rcases lt_or_ge p.lastImu.time p.lastPropEndTime with hlt | hge
    · -- the first step reaches the first sample, the gaps after it reach the end
      have hrest : ∀ imu ∈ w :: v :: ws, p.lastPropEndTime ≤ imu.time :=
        fun imu himu => (hin imu himu).1.le
      obtain ⟨hfirst, htail⟩ := List.pairwise_cons.mp hsorted
      have hchain := chain_window htail hfirst
        (fun imu himu => (hin imu (List.mem_cons_of_mem w himu)).2) hw.2
      have htiles : Tiles [w.time - p.lastPropEndTime] p.lastPropEndTime w.time :=
        tiles_singleton.mpr ⟨by linarith, rfl⟩
      have hgaps : Tiles (gaps w.time ((v :: ws).dropLast.map Imu.time ++ [propEndTime meas]))
          w.time (propEndTime meas) :=
        tiles_gaps_endTime hchain
      rw [propSteps_dt_before _ _ _ hlt hw.1.le, propSteps_dt _ _ _ hrest]
      exact iff_of_true (htiles.append hgaps) hlt.le
    · rw [tiles_from_head hge hsorted hin]
      exact ⟨fun h => h.le, fun h => le_antisymm h hge⟩

/-! ## Runs of calls -/

/-- One call of `UndistortPcl` as a step of the IMU process. -/
def undistortStep (m : Libm) (p : ImuProcess) (call : LidarMeasureGroup × StatesGroup) :
    Except Fault (ImuProcess × Processed) :=
  .ok ((undistortPcl m p call.1 call.2).imu, undistortPcl m p call.1 call.2)

/-- A call as a turn of a run. -/
def callTurn (m : Libm) (p : ImuProcess) (call : LidarMeasureGroup × StatesGroup) :
    Turn ImuProcess (LidarMeasureGroup × StatesGroup) Processed :=
  ⟨p, call, undistortPcl m p call.1 call.2, (undistortPcl m p call.1 call.2).imu⟩

lemma exec_callTurn (m : Libm) (p : ImuProcess) (call : LidarMeasureGroup × StatesGroup) :
    Exec (undistortStep m) p [callTurn m p call] (callTurn m p call).post := by
  have htaken : (callTurn m p call).Taken (undistortStep m) := rfl
  exact Exec.nil.snoc htaken

/-- The steps of a call of a run. -/
def callDts (x : Turn ImuProcess (LidarMeasureGroup × StatesGroup) Processed) : List ℚ :=
  x.pre.dts x.event.1

/-- The steps of a call of a run tile its interval. -/
def CallTiles (x : Turn ImuProcess (LidarMeasureGroup × StatesGroup) Processed) : Prop :=
  Tiles (callDts x) x.pre.lastPropEndTime (propEndTime x.event.1)

/-- Steps that tile each interval of a run tile the whole stretch. -/
lemma tiles_run {m : Libm} {p q : ImuProcess}
    {tr : List (Turn ImuProcess (LidarMeasureGroup × StatesGroup) Processed)}
    (h : Exec (undistortStep m) p tr q) (htiles : ∀ x ∈ tr, CallTiles x) :
    Tiles (tr.flatMap callDts) p.lastPropEndTime q.lastPropEndTime := by
  refine Exec.history
    (P := fun tr q => Tiles (tr.flatMap callDts) p.lastPropEndTime q.lastPropEndTime)
    (C := CallTiles) (tiles_nil.mpr rfl) ?_ h htiles
  intro tr x _ hx hc ih
  have hpost : x.post.lastPropEndTime = propEndTime x.event.1 := by
    obtain ⟨hpost, -⟩ := Prod.mk.inj (Except.ok.inj hx)
    rw [← hpost]
    rfl
  rw [List.flatMap_append, List.flatMap_singleton, hpost]
  exact ih.append hc

/-- **The integration steps of a run of `UndistortPcl` calls** tile the interval of every call
if and only if every call meets `Covers`, and then they tile the whole stretch, none of it
twice and none left out. -/
theorem run_tiles_iff {m : Libm} {p q : ImuProcess}
    {tr : List (Turn ImuProcess (LidarMeasureGroup × StatesGroup) Processed)}
    (h : Exec (undistortStep m) p tr q) (hwindow : ∀ x ∈ tr, x.pre.WindowIn x.event.1) :
    ((∀ x ∈ tr, CallTiles x) ↔ ∀ x ∈ tr, x.pre.Covers x.event.1) ∧
      ((∀ x ∈ tr, x.pre.Covers x.event.1) →
        Tiles (tr.flatMap callDts) p.lastPropEndTime q.lastPropEndTime) := by
  have hiff : (∀ x ∈ tr, CallTiles x) ↔ ∀ x ∈ tr, x.pre.Covers x.event.1 :=
    forall₂_congr fun x hx => undistortPcl_tiles_iff (hwindow x hx)
  exact ⟨hiff, fun hcovers => tiles_run h (hiff.mpr hcovers)⟩

/-! ## A sparse window -/

/-- A LIO group with samples at the given stamps. -/
def sampledGroup (endTime : ℚ) (stamps : List Stamp) : LidarMeasureGroup :=
  { lioVioFlg := .lio
    measures := [{ lioTime := endTime, imu := stamps.map fun stamp => { stamp := stamp } }] }

/-- The process after a first call that ended at 1.05 s, its last sample at 1.04 s. -/
def sampledProcess : ImuProcess :=
  (undistortPcl ⟨fun _ => 0, fun _ => 1, fun _ => 1⟩
    { lastPropEndTime := 0, timeLastScan := 0, lidarType := 0 }
    (sampledGroup (105 / 100) [1000000000, 1040000000]) {}).imu

lemma sampledProcess_lastPropEndTime : sampledProcess.lastPropEndTime = 105 / 100 := rfl

lemma sampledProcess_lastImu : sampledProcess.lastImu = { stamp := 1040000000 } := rfl

lemma sampledGroup_windowIn {endTime : ℚ} {stamps : List Stamp}
    (hsorted : stamps.Pairwise (· ≤ ·))
    (hin : ∀ stamp ∈ stamps, 105 / 100 < stamp2Sec stamp ∧ stamp2Sec stamp ≤ endTime) :
    sampledProcess.WindowIn (sampledGroup endTime stamps) where
  flg := .inl rfl
  sorted := List.pairwise_map.mpr (hsorted.imp stamp2Sec_le.mpr)
  inside := by
    intro imu himu
    obtain ⟨stamp, hstamp, rfl⟩ := List.mem_map.mp himu
    exact hin stamp hstamp

/-- One sample at 1.10 s in the window from 1.05 s to 1.12 s: the only step ends at the sample. -/
theorem sampledGroup_not_tiles :
    sampledProcess.WindowIn (sampledGroup (112 / 100) [1100000000]) ∧
      ¬Tiles (sampledProcess.dts (sampledGroup (112 / 100) [1100000000]))
        sampledProcess.lastPropEndTime (propEndTime (sampledGroup (112 / 100) [1100000000])) := by
  have hwindow : sampledProcess.WindowIn (sampledGroup (112 / 100) [1100000000]) :=
    sampledGroup_windowIn (by simp) (by norm_num [stamp2Sec])
  refine ⟨hwindow, ?_⟩
  rw [undistortPcl_tiles_iff hwindow]
  show ¬((sampledProcess.lastImu.time < sampledProcess.lastPropEndTime ∧
    stamp2Sec 1100000000 = 112 / 100) ∨
      sampledProcess.lastImu.time = sampledProcess.lastPropEndTime)
  rw [sampledProcess_lastPropEndTime, sampledProcess_lastImu]
  norm_num [Imu.time, stamp2Sec]

/-- A second sample at the end of the window closes the gap. -/
theorem sampledGroup_tiles :
    CallTiles (callTurn ⟨fun _ => 0, fun _ => 1, fun _ => 1⟩ sampledProcess
      (sampledGroup (112 / 100) [1100000000, 1120000000], {})) := by
  have hwindow : sampledProcess.WindowIn (sampledGroup (112 / 100) [1100000000, 1120000000]) :=
    sampledGroup_windowIn (by simp) (by norm_num [stamp2Sec])
  have hcovers : sampledProcess.Covers (sampledGroup (112 / 100) [1100000000, 1120000000]) := by
    show sampledProcess.lastImu.time ≤ sampledProcess.lastPropEndTime
    rw [sampledProcess_lastPropEndTime, sampledProcess_lastImu]
    norm_num [Imu.time, stamp2Sec]
  refine (run_tiles_iff (exec_callTurn _ _ _) ?_).1.mpr ?_ _ (List.mem_singleton_self _)
  · exact List.forall_mem_singleton.mpr hwindow
  · exact List.forall_mem_singleton.mpr hcovers

end ImuProcess

end FastLivo2
