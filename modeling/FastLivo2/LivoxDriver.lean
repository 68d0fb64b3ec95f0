import FastLivo2.LidarSampling
import FastLivo2.PollProgress

/-!
# The driver as a whole

The threads of the driver meet in its lidars: those of the SDK, which bring a lidar up and store
what it sends, and the two that publish.  The queues of a lidar are visited once it samples, and
whether it does is up to its settings (`LidarSampling`).  A step of `LivoxDriver` is a step of one
thread, and a run of it is at once one of each of its parts (`parts_of_exec`).

Each frame and each sample is published once and in order, and none of a lidar before that has
answered for all of its settings (`published_of_exec`): nothing ever of one without settings, or
without a place in the configuration.
-/

namespace FastLivo2

/-- What `PollingLidarPointCloudData` makes of the transfer format: `kPointCloud2Msg` is 0 and
`kLivoxCustomMsg` is 1. -/
def publishing (transferFormat : UInt8) : Publishing :=
  if transferFormat = 0 ∨ transferFormat = 1 then .all else .nothing

structure LivoxDriver (K I : Type) where
  lidars : LivoxLidars
  points : PollThreads (LidarDataQueue K) (PointPacket K × UInt64) (StoragePacket K)
  imu : PollThreads (List I × Option I) I I

/-- What may happen next. -/
inductive DriverEvent (K I : Type)
  | lidar (ev : LidarEvent)
  | storagePointData (data : PointPacket K) (baseTime : UInt64)
  | storageImuData (handle : UInt32) (data : I)
  /-- A step of `PushLidarData`. -/
  | pushLidarData
  /-- A step of `StorageImuData`, after it has found the lidar. -/
  | pushImuData
  /-- A step of `PointCloudDataPollThread`. -/
  | pollPoints
  /-- A step of `ImuDataPollThread`. -/
  | pollImu
  | requestExit
  | setValue

/-- What is seen of a step. -/
structure DriverSeen (K I : Type) where
  notices : List (Notice LidarRequest Answer) := []
  points : Option (PollSeen (PointPacket K × UInt64) (StoragePacket K)) := none
  imu : Option (PollSeen I I) := none

namespace LivoxDriver

variable {K I : Type}

/-- When the driver has been initialised; `n` slots are asked for the queue of a lidar. -/
def start (n : UInt32) (configs : List LidarSettings) : LivoxDriver K I where
  lidars := .start configs
  points := .start (LidarDataQueue.handoff n)
  imu := .start (HandoffQueue.locked I)

variable (n : UInt32) (transferFormat : UInt8)

/-- A step of the threads of the points. -/
def stepPoints (s : LivoxDriver K I) (ev : PollEvent (PointPacket K × UInt64)) :
    Except LidarFault (LivoxDriver K I × DriverSeen K I) :=
  match s.points.step (LidarDataQueue.handoff n) (publishing transferFormat) kMaxSourceLidar ev with
  | .error _ => .error .blocked
  | .ok (points, seen) => .ok ({ s with points := points }, { points := seen })

/-- A step of the threads of the IMU. -/
def stepImu (s : LivoxDriver K I) (ev : PollEvent I) :
    Except LidarFault (LivoxDriver K I × DriverSeen K I) :=
  match s.imu.step (HandoffQueue.locked I) .one kMaxSourceLidar ev with
  | .error _ => .error .blocked
  | .ok (imu, seen) => .ok ({ s with imu := imu }, { imu := seen })

/-- One step. -/
def step (s : LivoxDriver K I) :
    DriverEvent K I → Except LidarFault (LivoxDriver K I × DriverSeen K I)
  | .lidar ev =>
      match s.lidars.step ev with
      | .error fault => .error fault
      | .ok (lidars, notices) =>
          .ok ({ lidars := lidars
                 points := { s.points with sampling := lidars.samples }
                 imu := { s.imu with sampling := lidars.samples } }, { notices := notices })
  | .storagePointData data baseTime =>
      match s.lidars.getLidarDevice data.handle with
      | none => .ok (s, {})
      | some i => s.stepPoints n transferFormat (.arrive i (data, baseTime))
  | .storageImuData handle data =>
      match s.lidars.getLidarDevice handle with
      | none => .ok (s, {})
      | some i => s.stepImu (.arrive i data)
  | .pushLidarData => s.stepPoints n transferFormat .store
  | .pushImuData => s.stepImu .store
  | .pollPoints => s.stepPoints n transferFormat .poll
  | .pollImu => s.stepImu .poll
  | .requestExit =>
      .ok ({ s with
        points := { s.points with requestExit := true }
        imu := { s.imu with requestExit := true } }, {})
  | .setValue =>
      .ok ({ s with
        points := { s.points with exitSignal := true }
        imu := { s.imu with exitSignal := true } }, {})

/-! ## What the threads of a part do -/

section Part

variable {Q α β : Type} {H : HandoffQueue Q α β} {p : Publishing} {u u' : PollThreads Q α β}
  {seen : List (Option (PollSeen α β))} {o : Option (PollSeen α β)}

/-- The threads have come to `u`, and this was seen of them. -/
def Part (H : HandoffQueue Q α β) (p : Publishing) (seen : List (Option (PollSeen α β)))
    (u : PollThreads Q α β) : Prop :=
  ∃ tr, Exec (PollThreads.step H p kMaxSourceLidar) (.start H) tr u ∧ ∀ i,
    PollThreads.stored i tr = seen.flatMap (PollThreads.storedOf i) ∧
    PollThreads.taken i tr = seen.flatMap (PollThreads.takenOf i)

lemma Part.step (h : Part H p seen u) {ev : PollEvent α}
    (hstep : u.step H p kMaxSourceLidar ev = .ok (u', o)) : Part H p (seen ++ [o]) u' := by
  obtain ⟨tr, hexec, hseen⟩ := h
  refine ⟨tr ++ [⟨u, ev, o, u'⟩], hexec.snoc (x := ⟨u, ev, o, u'⟩) hstep, fun i => ?_⟩
  obtain ⟨hstored, htaken⟩ := hseen i
  constructor
  · unfold PollThreads.stored at hstored ⊢
    rw [List.flatMap_append, List.flatMap_append, hstored]
    rfl
  · unfold PollThreads.taken at htaken ⊢
    rw [List.flatMap_append, List.flatMap_append, htaken]
    rfl

lemma Part.still (h : Part H p seen u) : Part H p (seen ++ [none]) u := by
  obtain ⟨tr, hexec, hseen⟩ := h
  refine ⟨tr, hexec, fun i => ?_⟩
  rw [List.flatMap_append, List.flatMap_append]
  exact ⟨(hseen i).1.trans (List.append_nil _).symm, (hseen i).2.trans (List.append_nil _).symm⟩

/-- A lidar may come to sample. -/
lemma Part.follows (h : Part H p seen u) {samples : ℕ → Bool}
    (hsamples : samples = u.sampling ∨ ∃ i, samples = Function.update u.sampling i true) :
    Part H p (seen ++ [none]) { u with sampling := samples } := by
  rcases hsamples with rfl | ⟨i, rfl⟩
  · exact h.still
  · have hconnect : u.step H p kMaxSourceLidar (.connect i) =
        .ok ({ u with sampling := Function.update u.sampling i true }, none) := rfl
    exact h.step hconnect

lemma Part.requestExit (h : Part H p seen u) :
    Part H p (seen ++ [none]) { u with requestExit := true } := by
  have hstep : u.step H p kMaxSourceLidar .requestExit =
      .ok ({ u with requestExit := true }, none) := rfl
  exact h.step hstep

lemma Part.setValue (h : Part H p seen u) :
    Part H p (seen ++ [none]) { u with exitSignal := true } := by
  have hstep : u.step H p kMaxSourceLidar .setValue =
      .ok ({ u with exitSignal := true }, none) := rfl
  exact h.step hstep

end Part

/-! ## A run of the driver and its parts -/

variable {n transferFormat} {configs : List LidarSettings} {t : LivoxDriver K I}
  {tr : List (Turn (LivoxDriver K I) (DriverEvent K I) (DriverSeen K I))}

/-- What has become of the commands. -/
def notices (tr : List (Turn (LivoxDriver K I) (DriverEvent K I) (DriverSeen K I))) :
    List (Notice LidarRequest Answer) := tr.flatMap fun x => x.obs.notices

/-- What was seen of the frames. -/
def seenPoints (tr : List (Turn (LivoxDriver K I) (DriverEvent K I) (DriverSeen K I))) :
    List (Option (PollSeen (PointPacket K × UInt64) (StoragePacket K))) :=
  tr.map fun x => x.obs.points

/-- What was seen of the samples of the IMU. -/
def seenImu (tr : List (Turn (LivoxDriver K I) (DriverEvent K I) (DriverSeen K I))) :
    List (Option (PollSeen I I)) := tr.map fun x => x.obs.imu

/-- The parts of the driver. -/
structure Parts (n : UInt32) (transferFormat : UInt8) (configs : List LidarSettings)
    (tr : List (Turn (LivoxDriver K I) (DriverEvent K I) (DriverSeen K I)))
    (t : LivoxDriver K I) : Prop where
  lidars : LivoxLidars.Sound (.start configs) (notices tr) [] t.lidars
  samplesPoints : t.points.sampling = t.lidars.samples
  samplesImu : t.imu.sampling = t.lidars.samples
  points : Part (LidarDataQueue.handoff n) (publishing transferFormat) (seenPoints tr) t.points
  imu : Part (HandoffQueue.locked I) .one (seenImu tr) t.imu

lemma parts_start (configs : List LidarSettings) :
    Parts n transferFormat configs [] (start n configs : LivoxDriver K I) := by
  have hready := LivoxLidars.ready_start configs
  have hsamples : (fun _ => false) = (LivoxLidars.start configs).samples :=
    funext fun i => (hready.blank i).2.symm
  exact ⟨hready.sound, hsamples, hsamples, ⟨[], .nil, fun _ => ⟨rfl, rfl⟩⟩,
    ⟨[], .nil, fun _ => ⟨rfl, rfl⟩⟩⟩

lemma notices_snoc (x : Turn (LivoxDriver K I) (DriverEvent K I) (DriverSeen K I)) :
    notices (tr ++ [x]) = notices tr ++ x.obs.notices := by
  unfold notices
  rw [List.flatMap_append, List.flatMap_singleton]

lemma seenPoints_snoc (x : Turn (LivoxDriver K I) (DriverEvent K I) (DriverSeen K I)) :
    seenPoints (tr ++ [x]) = seenPoints tr ++ [x.obs.points] := List.map_append

lemma seenImu_snoc (x : Turn (LivoxDriver K I) (DriverEvent K I) (DriverSeen K I)) :
    seenImu (tr ++ [x]) = seenImu tr ++ [x.obs.imu] := List.map_append

variable {s s' : LivoxDriver K I} {seen : DriverSeen K I}

/-- A step of the threads of the points leaves the rest as it is. -/
lemma stepPoints_eq {ev : PollEvent (PointPacket K × UInt64)}
    (h : s.stepPoints n transferFormat ev = .ok (s', seen)) :
    ∃ points o, s.points.step (LidarDataQueue.handoff n) (publishing transferFormat)
      kMaxSourceLidar ev = .ok (points, o) ∧ s' = { s with points := points } ∧
      seen = { points := o } := by
  unfold stepPoints at h
  cases hstep : s.points.step (LidarDataQueue.handoff n) (publishing transferFormat)
      kMaxSourceLidar ev with
  | error fault =>
      rw [hstep] at h
      cases h
  | ok next =>
      rw [hstep] at h
      obtain ⟨rfl, rfl⟩ := Prod.mk.inj (Except.ok.inj h)
      exact ⟨_, _, rfl, rfl, rfl⟩

lemma stepImu_eq {ev : PollEvent I} (h : s.stepImu ev = .ok (s', seen)) :
    ∃ imu o, s.imu.step (HandoffQueue.locked I) .one kMaxSourceLidar ev = .ok (imu, o) ∧
      s' = { s with imu := imu } ∧ seen = { imu := o } := by
  unfold stepImu at h
  cases hstep : s.imu.step (HandoffQueue.locked I) .one kMaxSourceLidar ev with
  | error fault =>
      rw [hstep] at h
      cases h
  | ok next =>
      rw [hstep] at h
      obtain ⟨rfl, rfl⟩ := Prod.mk.inj (Except.ok.inj h)
      exact ⟨_, _, rfl, rfl, rfl⟩

/-- Lidars do not come to sample by a step of the threads. -/
lemma sampling_of_pollStep {Q α β : Type} {H : HandoffQueue Q α β} {p : Publishing}
    {u u' : PollThreads Q α β} {ev : PollEvent α} {o : Option (PollSeen α β)}
    (h : u.step H p kMaxSourceLidar ev = .ok (u', o)) (hev : ∀ i, ev ≠ .connect i) :
    u'.sampling = u.sampling := by
  cases PollThreads.steps_of_step h with
  | store step => cases step <;> rfl
  | poll step => cases step <;> rfl
  | connect => exact absurd rfl (hev _)
  | _ => rfl

/-- A step that the lidars have no part in. -/
lemma Parts.threads {x : Turn (LivoxDriver K I) (DriverEvent K I) (DriverSeen K I)}
    (h : Parts n transferFormat configs tr x.pre) (hlidars : x.post.lidars = x.pre.lidars)
    (hnotices : x.obs.notices = []) (hpoints : x.post.points.sampling = x.pre.points.sampling)
    (himu : x.post.imu.sampling = x.pre.imu.sampling)
    (hpart : Part (LidarDataQueue.handoff n) (publishing transferFormat)
      (seenPoints tr ++ [x.obs.points]) x.post.points)
    (hpart' : Part (HandoffQueue.locked I) .one (seenImu tr ++ [x.obs.imu]) x.post.imu) :
    Parts n transferFormat configs (tr ++ [x]) x.post where
  lidars := by
    rw [notices_snoc, hnotices, List.append_nil, hlidars]
    exact h.lidars
  samplesPoints := by rw [hpoints, hlidars, h.samplesPoints]
  samplesImu := by rw [himu, hlidars, h.samplesImu]
  points := by rwa [seenPoints_snoc]
  imu := by rwa [seenImu_snoc]

lemma Parts.stepPoints (h : Parts n transferFormat configs tr s) (ev : DriverEvent K I)
    {ev' : PollEvent (PointPacket K × UInt64)}
    (hstep : s.stepPoints n transferFormat ev' = .ok (s', seen)) (hev : ∀ i, ev' ≠ .connect i) :
    Parts n transferFormat configs (tr ++ [⟨s, ev, seen, s'⟩]) s' := by
  obtain ⟨points, o, htaken, rfl, rfl⟩ := stepPoints_eq hstep
  exact h.threads (x := ⟨s, ev, _, _⟩) rfl rfl (sampling_of_pollStep htaken hev) rfl
    (h.points.step htaken) h.imu.still

lemma Parts.stepImu (h : Parts n transferFormat configs tr s) (ev : DriverEvent K I)
    {ev' : PollEvent I} (hstep : s.stepImu ev' = .ok (s', seen)) (hev : ∀ i, ev' ≠ .connect i) :
    Parts n transferFormat configs (tr ++ [⟨s, ev, seen, s'⟩]) s' := by
  obtain ⟨imu, o, htaken, rfl, rfl⟩ := stepImu_eq hstep
  exact h.threads (x := ⟨s, ev, _, _⟩) rfl rfl rfl (sampling_of_pollStep htaken hev)
    h.points.still (h.imu.step htaken)

/-- What arrives of a lidar that there is not is left. -/
lemma Parts.still (h : Parts n transferFormat configs tr s) (ev : DriverEvent K I) :
    Parts n transferFormat configs (tr ++ [⟨s, ev, {}, s⟩]) s :=
  h.threads (x := ⟨s, ev, {}, s⟩) rfl rfl rfl rfl h.points.still h.imu.still

/-- A step of the lidars may let one more of them sample. -/
lemma Parts.lidar (h : Parts n transferFormat configs tr s) {ev : LidarEvent}
    {lidars : LivoxLidars} {o : List (Notice LidarRequest Answer)}
    (hstep : s.lidars.step ev = .ok (lidars, o)) (htrue : ∀ m ∈ o, LivoxLidars.Truthful m)
    {x : Turn (LivoxDriver K I) (DriverEvent K I) (DriverSeen K I)}
    (hobs : x.obs = { notices := o })
    (hpost : x.post =
      { lidars := lidars
        points := { s.points with sampling := lidars.samples }
        imu := { s.imu with sampling := lidars.samples } }) :
    Parts n transferFormat configs (tr ++ [x]) x.post := by
  have hsound := h.lidars.step (LivoxLidars.ready_start configs) htrue hstep
  have hsamples := h.lidars.samples_step hsound hstep
  rw [hpost]
  refine ⟨?_, rfl, rfl, ?_, ?_⟩
  · rwa [notices_snoc, hobs]
  · rw [seenPoints_snoc, hobs]
    exact h.points.follows (by rwa [h.samplesPoints])
  · rw [seenImu_snoc, hobs]
    exact h.imu.follows (by rwa [h.samplesImu])

/-- **One step** is one of each part, or of none. -/
lemma Parts.step {x : Turn (LivoxDriver K I) (DriverEvent K I) (DriverSeen K I)}
    (h : Parts n transferFormat configs tr x.pre)
    (hx : x.Taken (LivoxDriver.step n transferFormat))
    (htrue : ∀ m ∈ x.obs.notices, LivoxLidars.Truthful m) :
    Parts n transferFormat configs (tr ++ [x]) x.post := by
  obtain ⟨s, ev, seen, s'⟩ := x
  have hstep : s.step n transferFormat ev = .ok (s', seen) := hx
  cases ev with
  | lidar ev =>
      unfold LivoxDriver.step at hstep
      dsimp only at hstep
      cases htaken : s.lidars.step ev with
      | error fault =>
          rw [htaken] at hstep
          cases hstep
      | ok next =>
          rw [htaken] at hstep
          obtain ⟨rfl, rfl⟩ := Prod.mk.inj (Except.ok.inj hstep)
          exact h.lidar htaken htrue rfl rfl
  | storagePointData data baseTime =>
      unfold LivoxDriver.step at hstep
      dsimp only at hstep
      cases hindex : s.lidars.getLidarDevice data.handle with
      | none =>
          rw [hindex] at hstep
          obtain ⟨rfl, rfl⟩ := Prod.mk.inj (Except.ok.inj hstep)
          exact h.still _
      | some i =>
          rw [hindex] at hstep
          exact h.stepPoints _ hstep nofun
  | storageImuData handle data =>
      unfold LivoxDriver.step at hstep
      dsimp only at hstep
      cases hindex : s.lidars.getLidarDevice handle with
      | none =>
          rw [hindex] at hstep
          obtain ⟨rfl, rfl⟩ := Prod.mk.inj (Except.ok.inj hstep)
          exact h.still _
      | some i =>
          rw [hindex] at hstep
          exact h.stepImu _ hstep nofun
  | pushLidarData => exact h.stepPoints _ hstep nofun
  | pushImuData => exact h.stepImu _ hstep nofun
  | pollPoints => exact h.stepPoints _ hstep nofun
  | pollImu => exact h.stepImu _ hstep nofun
  | requestExit =>
      obtain ⟨rfl, rfl⟩ := Prod.mk.inj (Except.ok.inj hstep)
      exact h.threads rfl rfl rfl rfl h.points.requestExit h.imu.requestExit
  | setValue =>
      obtain ⟨rfl, rfl⟩ := Prod.mk.inj (Except.ok.inj hstep)
      exact h.threads rfl rfl rfl rfl h.points.setValue h.imu.setValue

lemma parts_of_exec (h : Exec (step n transferFormat) (start n configs) tr t)
    (htrue : ∀ x ∈ tr, ∀ m ∈ x.obs.notices, LivoxLidars.Truthful m) :
    Parts n transferFormat configs tr t := by
  refine h.history (P := fun tr t => Parts n transferFormat configs tr t)
    (C := fun x => ∀ m ∈ x.obs.notices, LivoxLidars.Truthful m) (parts_start configs) ?_ htrue
  exact fun tr x _ hx hc hpre => hpre.step hx hc

/-! ## What is published -/

/-- The frames of lidar `i` that were stored. -/
def pointsStored (i : ℕ) (tr : List (Turn (LivoxDriver K I) (DriverEvent K I) (DriverSeen K I))) :
    List (StoragePacket K) := (seenPoints tr).flatMap (PollThreads.storedOf i)

/-- Those that were published. -/
def pointsTaken (i : ℕ) (tr : List (Turn (LivoxDriver K I) (DriverEvent K I) (DriverSeen K I))) :
    List (StoragePacket K) := (seenPoints tr).flatMap (PollThreads.takenOf i)

/-- The samples of the IMU of lidar `i` that were stored. -/
def imuStored (i : ℕ) (tr : List (Turn (LivoxDriver K I) (DriverEvent K I) (DriverSeen K I))) :
    List I := (seenImu tr).flatMap (PollThreads.storedOf i)

/-- Those that were published. -/
def imuTaken (i : ℕ) (tr : List (Turn (LivoxDriver K I) (DriverEvent K I) (DriverSeen K I))) :
    List I := (seenImu tr).flatMap (PollThreads.takenOf i)

section Part

variable {Q α β : Type} {H : HandoffQueue Q α β} {p : Publishing} {u : PollThreads Q α β}
  {seen : List (Option (PollSeen α β))}

lemma Part.inOrder (h : Part H p seen u) (i : ℕ) :
    ∃ l, H.Holds (u.queue i) l ∧
      seen.flatMap (PollThreads.storedOf i) = seen.flatMap (PollThreads.takenOf i) ++ l := by
  obtain ⟨tr, hexec, hseen⟩ := h
  obtain ⟨l, hholds, horder⟩ := PollThreads.order_of_exec hexec
  refine ⟨l i, hholds i, ?_⟩
  rw [← (hseen i).1, ← (hseen i).2]
  exact horder i

lemma Part.sampling_of_taken (h : Part H p seen u) {i : ℕ}
    (htaken : seen.flatMap (PollThreads.takenOf i) ≠ []) : u.sampling i = true := by
  obtain ⟨tr, hexec, hseen⟩ := h
  refine PollThreads.sampling_of_taken hexec i ?_
  rwa [(hseen i).2]

end Part

/-- **Once, in order, and with all settings.**  Over every run the frames of a lidar that are stored
are those published, in order, and then those in its queue, and so are the samples of its IMU.  Of a
lidar of which anything is published, the configuration has the handle and a setting, and it has
answered for each of its settings. -/
theorem published_of_exec (h : Exec (step n transferFormat) (start n configs) tr t)
    (htrue : ∀ x ∈ tr, ∀ m ∈ x.obs.notices, LivoxLidars.Truthful m) (i : ℕ) :
    (∃ frames, (LidarDataQueue.handoff n).Holds (t.points.queue i) frames ∧
      pointsStored i tr = pointsTaken i tr ++ frames) ∧
    (∃ samples, (HandoffQueue.locked I).Holds (t.imu.queue i) samples ∧
      imuStored i tr = imuTaken i tr ++ samples) ∧
    (pointsTaken i tr ≠ [] ∨ imuTaken i tr ≠ [] →
      ∃ handle, (LivoxLidars.start configs).mapIndex handle = some i ∧
        (LivoxLidars.start configs).configured i ≠ [] ∧
        ∀ bit ∈ (LivoxLidars.start configs).configured i,
          LivoxLidars.Answered (notices tr) handle bit) := by
  have hparts := parts_of_exec h htrue
  refine ⟨hparts.points.inOrder i, hparts.imu.inOrder i, fun htaken => ?_⟩
  have hsampling : t.lidars.samples i = true := by
    rcases htaken with hpoints | himu
    · rw [← hparts.samplesPoints]
      exact hparts.points.sampling_of_taken hpoints
    · rw [← hparts.samplesImu]
      exact hparts.imu.sampling_of_taken himu
  by_cases hindex : ∃ handle, (LivoxLidars.start configs).mapIndex handle = some i
  · obtain ⟨handle, hi⟩ := hindex
    obtain ⟨hsetting, hall⟩ := (hparts.lidars.sampling_iff hi).mp hsampling
    exact ⟨handle, hi, hsetting, hall⟩
  · have hoff := (hparts.lidars.blank i fun handle hi => hindex ⟨handle, hi⟩).2
    cases hsampling.symm.trans hoff

/-- A lidar answers for its one setting, and then a sample of its IMU arrives. -/
def publishesOne : List (DriverEvent ℚ ℕ) :=
  let answer : List LidarEvent := [.call 0, .send 2 true, .addCommand 2 300, .handler 100 4 {}]
  (LivoxLidars.tellsOne ++ answer).map .lidar ++ .storageImuData 100 7 ::
    List.replicate 7 .pushImuData ++ List.replicate 6 .pollImu

/-- The sample is published, and the lidar has answered for the setting. -/
theorem published_of_exec_one :
    let run := trace (step 1 0) publishesOne (start 1 [LivoxLidars.oneSetting])
    imuTaken 0 run.1 = [7] ∧ ∃ handle,
      (LivoxLidars.start [LivoxLidars.oneSetting]).mapIndex handle = some 0 ∧
      ∀ bit ∈ (LivoxLidars.start [LivoxLidars.oneSetting]).configured 0,
        LivoxLidars.Answered (notices run.1) handle bit := by
  intro run
  have hexec : Exec (step 1 0) (start 1 [LivoxLidars.oneSetting]) run.1 run.2 :=
    Exec.of_trace publishesOne _
  have htaken : imuTaken 0 run.1 = [7] := by decide +kernel
  have hpublished : imuTaken 0 run.1 ≠ [] := by
    rw [htaken]
    exact List.cons_ne_nil _ _
  obtain ⟨handle, hi, -, hall⟩ :=
    (published_of_exec hexec (by decide +kernel) 0).2.2 (.inr hpublished)
  exact ⟨htaken, handle, hi, hall⟩

end LivoxDriver

end FastLivo2
