import FastLivo2.LidarMapping
import FastLivo2.VisualInvariant

/-!
# The node with its two maps

The run loop of `LIVMapper` with what the two estimators compute: a LiDAR pass runs
`LidarMapping.handleLIO`, a visual pass `VIOManager::processFrame` on the points of the last scan
and the voxel map, and both end by publishing.  In the model of the loop alone the outcome of a pass
is part of its event; here it is the code's.

`steps_of_step` says everything a turn can do.
-/

namespace FastLivo2

/-- `LIVMapper` with the voxel map, the visual manager and what it publishes and saves. -/
structure LivoNode where
  node : LIVMapper
  mapping : LidarMapping := {}
  vio : VIOManager := {}
  output : MapOutput := {}

/-- What drives it. -/
inductive LivoEvent
  | pclCbk (driver : LidarDriver) (msg : LidarMsg)
  | imuCbk (msg : Imu)
  | imgCbk (msg : Image)
  | imuPropCallback
  | pass

/-- The event of the loop alone, with an outcome for a pass. -/
def LivoEvent.toEvent (est : Estimate) : LivoEvent → Event
  | .pclCbk driver msg => .pclCbk driver msg
  | .imuCbk msg => .imuCbk msg
  | .imgCbk msg => .imgCbk msg
  | .imuPropCallback => .imuPropCallback
  | .pass => .pass est

/-- The ways a call can fail to return: in the node, or in the visual manager. -/
abbrev LivoFault := Fault ⊕ VioFault

namespace LivoNode

open Matrix

variable (L : LivoLibs) (cfg : LivoConfig)

/-- What `handleVIO` gives `processFrame`. -/
def frameInput (S : LivoNode) (t : LIVMapper) : FrameInput where
  img := L.grayImg (L.resizeImg t.lidarMeasures.lastMeasure.img)
  pg := S.mapping.pvList
  planeMap := S.mapping.voxelMap.voxelMap
  state := t.state
  statePropagat := t.statePropagat

/-- What `publish_frame_world` reads after an update to the state `s`, with the registered cloud
`world`.  The image, of the last visual frame in the code, is read in a visual update alone. -/
def publishInput (t : LIVMapper) (world : PointCloudXYZI) (s : StatesGroup) (v : VIOManager) :
    PublishInput where
  flg := t.lidarMeasures.lioVioFlg
  measure := t.lidarMeasures.lastMeasure
  world := world
  body := t.featsUndistort.map fun p => p.moveTo (cfg.extR *ᵥ p.position + cfg.extT)
  imgRgb := L.resizeImg t.lidarMeasures.lastMeasure.img
  frame := v.newFrame
  state := s

/-- The output after an update. -/
def publish (S : LivoNode) (t : LIVMapper) (world : PointCloudXYZI) (s : StatesGroup)
    (v : VIOManager) : MapOutput :=
  S.output.publishFrameWorld L.toVioLibs cfg.slamMode cfg.output (publishInput L cfg t world s v)

/-- What the estimator of a pass computes, and the maps after it; `t` is the node after
`processImu`. -/
def estimate (S : LivoNode) (t : LIVMapper) : Except VioFault (Estimate × LivoNode) :=
  match t.lidarMeasures.lioVioFlg with
  | .vio =>
      if t.pclWWaitPub = [] then .ok ({}, S)
      else
        match VIOManager.processFrame L.toVioLibs cfg.vio (S.frameInput L t) S.vio with
        | .error f => .error f
        | .ok (v, e) =>
            .ok ({ state := e.state },
              { S with vio := v, output := S.publish L cfg t t.pclWWaitPub e.state v })
  | .wait => .ok ({}, S)
  | _ =>
      if t.featsUndistort = [] then .ok ({}, S)
      else
        let r := S.mapping.handleLIO L cfg t.state t.statePropagat t.featsUndistort
        .ok (r.2,
          { S with mapping := r.1, output := S.publish L cfg t r.2.world r.2.state S.vio })

/-- One pass of the loop in `LIVMapper::run`. -/
def pass (S : LivoNode) : Except LivoFault (LivoNode × Option LIVMapper) :=
  match S.node.syncPackages cfg.toConfig with
  | .error f => .error (.inl f)
  | .ok (false, s) => .ok ({ S with node := s }, none)
  | .ok (true, s) =>
      match s.handleFirstFrame.processImu cfg.toConfig with
      | .error f => .error (.inl f)
      | .ok t =>
          match S.estimate L cfg t with
          | .error f => .error (.inr f)
          | .ok (est, S') =>
              .ok ({ S' with node := t.stateEstimationAndMapping cfg.toConfig est }, some s)

/-- A callback changes the node alone. -/
def callback (S : LivoNode) (ev : Event) : Except LivoFault (LivoNode × Option LIVMapper) :=
  match S.node.step cfg.toConfig ev with
  | .error f => .error (.inl f)
  | .ok (s, obs) => .ok ({ S with node := s }, obs)

/-- The node takes an event. -/
def step (S : LivoNode) : LivoEvent → Except LivoFault (LivoNode × Option LIVMapper)
  | .pass => S.pass L cfg
  | .pclCbk driver msg => S.callback cfg (.pclCbk driver msg)
  | .imuCbk msg => S.callback cfg (.imuCbk msg)
  | .imgCbk msg => S.callback cfg (.imgCbk msg)
  | .imuPropCallback => S.callback cfg .imuPropCallback

/-! ## What a turn does -/

/-- What the estimator of a pass does to the maps.  Where it has nothing to estimate from, the
mapping of the pass leaves the node. -/
inductive Estimates (S : LivoNode) (t : LIVMapper) : Estimate → LivoNode → Prop
  | skip (stays : ∀ est, t.stateEstimationAndMapping cfg.toConfig est = t) : Estimates S t {} S
  | frame {v : VIOManager} {e : VisualEkf} (flg : t.lidarMeasures.lioVioFlg = .vio)
      (returns :
        VIOManager.processFrame L.toVioLibs cfg.vio (S.frameInput L t) S.vio = .ok (v, e)) :
      Estimates S t { state := e.state }
        { S with vio := v, output := S.publish L cfg t t.pclWWaitPub e.state v }
  | scan {r : LidarMapping × Estimate}
      (flg : t.lidarMeasures.lioVioFlg = .lio ∨ t.lidarMeasures.lioVioFlg = .lo)
      (points : t.featsUndistort ≠ [])
      (result : S.mapping.handleLIO L cfg t.state t.statePropagat t.featsUndistort = r) :
      Estimates S t r.2
        { S with mapping := r.1, output := S.publish L cfg t r.2.world r.2.state S.vio }

/-- The ways the node takes an event. -/
inductive Steps (S : LivoNode) : LivoEvent → Option LIVMapper → LivoNode → Prop
  | callback {ev : LivoEvent} {s : LIVMapper} {obs : Option LIVMapper} (noPass : ev ≠ .pass)
      (node : S.node.step cfg.toConfig (ev.toEvent {}) = .ok (s, obs)) :
      Steps S ev obs { S with node := s }
  | idle {s : LIVMapper} (sync : S.node.syncPackages cfg.toConfig = .ok (false, s)) :
      Steps S .pass none { S with node := s }
  | group {s t : LIVMapper} {est : Estimate} {S' : LivoNode}
      (sync : S.node.syncPackages cfg.toConfig = .ok (true, s))
      (imu : s.handleFirstFrame.processImu cfg.toConfig = .ok t)
      (estimates : Estimates L cfg S t est S') :
      Steps S .pass (some s) { S' with node := t.stateEstimationAndMapping cfg.toConfig est }

variable {L cfg}

lemma estimates_of_estimate {S S' : LivoNode} {t : LIVMapper} {est : Estimate}
    (h : S.estimate L cfg t = .ok (est, S')) : Estimates L cfg S t est S' := by
  unfold estimate at h
  have hscan : ∀ r, S.mapping.handleLIO L cfg t.state t.statePropagat t.featsUndistort = r →
      t.lidarMeasures.lioVioFlg = .lio ∨ t.lidarMeasures.lioVioFlg = .lo →
      (if t.featsUndistort = [] then .ok ({}, S)
        else .ok (r.2, { S with
          mapping := r.1, output := S.publish L cfg t r.2.world r.2.state S.vio }) :
        Except VioFault (Estimate × LivoNode)) = .ok (est, S') → Estimates L cfg S t est S' := by
    intro r hr hflg h
    split_ifs at h with hpoints
    · obtain ⟨rfl, rfl⟩ := Prod.mk.inj (Except.ok.inj h)
      apply Estimates.skip
      intro est
      unfold LIVMapper.stateEstimationAndMapping LIVMapper.handleLIO
      rcases hflg with hflg | hflg <;> simp only [hflg, if_pos hpoints]
    · obtain ⟨rfl, rfl⟩ := Prod.mk.inj (Except.ok.inj h)
      exact .scan hflg hpoints hr
  cases hflg : t.lidarMeasures.lioVioFlg with
  | wait =>
      simp only [hflg] at h
      obtain ⟨rfl, rfl⟩ := Prod.mk.inj (Except.ok.inj h)
      apply Estimates.skip
      intro est
      unfold LIVMapper.stateEstimationAndMapping
      simp only [hflg]
  | vio =>
      simp only [hflg] at h
      split_ifs at h with hcloud
      · obtain ⟨rfl, rfl⟩ := Prod.mk.inj (Except.ok.inj h)
        apply Estimates.skip
        intro est
        unfold LIVMapper.stateEstimationAndMapping LIVMapper.handleVIO
        simp only [hflg, if_pos hcloud]
      · split at h
        · cases h
        · obtain ⟨rfl, rfl⟩ := Prod.mk.inj (Except.ok.inj h)
          exact .frame hflg ‹_›
  | lio =>
      simp only [hflg] at h
      exact hscan _ rfl (.inl hflg) h
  | lo =>
      simp only [hflg] at h
      exact hscan _ rfl (.inr hflg) h

/-- **What a turn does.** -/
theorem steps_of_step {S S' : LivoNode} {ev : LivoEvent} {obs : Option LIVMapper}
    (h : S.step L cfg ev = .ok (S', obs)) : Steps L cfg S ev obs S' := by
  have hcallback : ∀ ev' : LivoEvent, ev' ≠ .pass →
      S.callback cfg (ev'.toEvent {}) = .ok (S', obs) → Steps L cfg S ev' obs S' := by
    intro ev' hne h
    unfold callback at h
    split at h
    · cases h
    · obtain ⟨rfl, rfl⟩ := Prod.mk.inj (Except.ok.inj h)
      exact .callback hne ‹_›
  cases ev with
  | pass =>
      simp only [step, pass] at h
      split at h
      · cases h
      · obtain ⟨rfl, rfl⟩ := Prod.mk.inj (Except.ok.inj h)
        exact .idle ‹_›
      · split at h
        · cases h
        · split at h
          · cases h
          · rename_i hsync _ _ himu _ _ _ hestimate
            obtain ⟨rfl, rfl⟩ := Prod.mk.inj (Except.ok.inj h)
            exact .group hsync himu (estimates_of_estimate hestimate)
  | pclCbk driver msg => exact hcallback (.pclCbk driver msg) (by simp) h
  | imuCbk msg => exact hcallback (.imuCbk msg) (by simp) h
  | imgCbk msg => exact hcallback (.imgCbk msg) (by simp) h
  | imuPropCallback => exact hcallback .imuPropCallback (by simp) h

/-! ## Passes that return -/

section Passes

variable (L cfg) (S : LivoNode)

/-- The node of the loop after the propagation of its next pass, which hands out a group. -/
def processed : LIVMapper :=
  match S.node.syncPackages cfg.toConfig with
  | .ok (true, g) =>
      match g.handleFirstFrame.processImu cfg.toConfig with
      | .ok t => t
      | .error _ => g
  | _ => S.node

/-- The node after a scan. -/
def afterScan : LivoNode :=
  let t := S.processed cfg
  let r := S.mapping.handleLIO L cfg t.state t.statePropagat t.featsUndistort
  { S with
    node := t.stateEstimationAndMapping cfg.toConfig r.2
    mapping := r.1
    output := S.publish L cfg t r.2.world r.2.state S.vio }

/-- The node after a frame. -/
def afterFrame (r : VIOManager × VisualEkf) : LivoNode :=
  let t := S.processed cfg
  { S with
    node := t.stateEstimationAndMapping cfg.toConfig { state := r.2.state }
    vio := r.1
    output := S.publish L cfg t t.pclWWaitPub r.2.state r.1 }

/-- The next pass hands out a group, and its propagation returns a node with `P`. -/
def HandsOut (P : LIVMapper → Prop) : Prop :=
  ∃ g, S.node.syncPackages cfg.toConfig = .ok g ∧
    (g.1 = true ∧ ∃ t, g.2.handleFirstFrame.processImu cfg.toConfig = .ok t ∧ P t)

instance (P : LIVMapper → Prop) [DecidablePred P] : Decidable (S.HandsOut cfg P) :=
  inferInstanceAs (Decidable (∃ g, S.node.syncPackages cfg.toConfig = .ok g ∧
    (g.1 = true ∧ ∃ t, g.2.handleFirstFrame.processImu cfg.toConfig = .ok t ∧ P t)))

variable {L cfg S} {P : LIVMapper → Prop}

lemma HandsOut.processed (h : S.HandsOut cfg P) : P (S.processed cfg) ∧ ∃ g,
    S.node.syncPackages cfg.toConfig = .ok (true, g) ∧
      g.handleFirstFrame.processImu cfg.toConfig = .ok (S.processed cfg) := by
  obtain ⟨⟨b, g⟩, hsync, rfl, t, himu, hP⟩ := h
  have ht : S.processed cfg = t := by
    unfold LivoNode.processed
    rw [hsync]
    dsimp only
    rw [himu]
  rw [ht]
  exact ⟨hP, g, hsync, himu⟩

/-- A scan with points. -/
lemma step_scan (h : S.HandsOut cfg fun t => t.lidarMeasures.lioVioFlg = .lio ∧
    t.featsUndistort ≠ []) : ∃ g, S.step L cfg .pass = .ok (S.afterScan L cfg, some g) := by
  obtain ⟨⟨hflg, hpoints⟩, g, hsync, himu⟩ := h.processed
  refine ⟨g, ?_⟩
  simp only [step, pass, hsync, himu, estimate, hflg, if_neg hpoints]
  rfl

/-- A frame on a cloud that waits. -/
lemma step_frame {r : VIOManager × VisualEkf}
    (h : S.HandsOut cfg fun t => t.lidarMeasures.lioVioFlg = .vio ∧ t.pclWWaitPub ≠ [])
    (hr : VIOManager.processFrame L.toVioLibs cfg.vio (S.frameInput L (S.processed cfg)) S.vio =
      .ok r) : ∃ g, S.step L cfg .pass = .ok (S.afterFrame L cfg r, some g) := by
  obtain ⟨⟨hflg, hcloud⟩, g, hsync, himu⟩ := h.processed
  refine ⟨g, ?_⟩
  simp only [step, pass, hsync, himu, estimate, hflg, if_neg hcloud, hr]
  rfl

end Passes

end LivoNode

end FastLivo2
