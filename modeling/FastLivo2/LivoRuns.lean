import FastLivo2.FilterRuns
import FastLivo2.LivoNode

/-!
# Runs of the node with its two maps

A run of the node is at once a run of the loop alone, a run of the visual manager and a sequence of
calls on the voxel map (`refines_of_run`): each turn is one turn of the loop, at most one frame of
the visual manager, and the calls of at most one scan.

`Sound` is the invariant of all three.  The two estimators feed each other through it: the map of
planes is sound because the covariance of the filter is, the weights of the LiDAR update and the
normals of a visual frame are right because the map of planes is sound, and the covariance stays
positive definite because the weights are right (`sound_of_run`).
-/

namespace FastLivo2

/-- A turn of the node. -/
abbrev LivoTurn := Turn LivoNode LivoEvent (Option LIVMapper)

/-- The node as constructed, with two empty maps. -/
def LivoConfig.start (cfg : LivoConfig) : LivoNode where
  node := cfg.toConfig.initial
  output := cfg.output.initial

/-- A run of the node, from its start, through the turns `tr`. -/
abbrev LivoRun (L : LivoLibs) (cfg : LivoConfig) (tr : List LivoTurn) (S : LivoNode) : Prop :=
  Exec (LivoNode.step L cfg) cfg.start tr S

/-- What the settings and the mathematical library are relied on for: the exponential of a rotation
vector is invertible, the noise is positive, and each update has an iteration. -/
structure LivoConfig.Regular (cfg : LivoConfig) : Prop where
  exp : ∀ angvel dt, IsUnit (Exp cfg.libm angvel dt)
  gyrCov : 0 < cfg.gyrCov
  accCov : 0 < cfg.accCov
  invExpoCov : 0 < cfg.invExpoCov
  iteration : 0 < cfg.maxIterations
  updates : cfg.vio.Updates

namespace LivoNode

variable {L : LivoLibs} {cfg : LivoConfig} {S S' : LivoNode} {tr : List LivoTurn}

/-! ## The invariant -/

/-- The filter and the map of planes are sound. -/
structure Sound (S : LivoNode) : Prop where
  filter : S.node.FilterSound
  mapping : S.mapping.Sound

lemma diagonal_pos {c : ℚ} (h : 0 < c) (i : Fin 3) : 0 < ![c, c, c] i := by
  fin_cases i <;> exact h

lemma sound_start (hcfg : cfg.Regular) : cfg.start.Sound := by
  have hbias : (0 : ℚ) < 1 / 10000 := by norm_num
  refine ⟨⟨LidarUpdate.start_posDef, ?_⟩, ⟨fun _ => trivial, ?_⟩⟩
  · exact ⟨diagonal_pos hcfg.gyrCov, diagonal_pos hcfg.accCov, diagonal_pos hbias,
      diagonal_pos hbias, hcfg.invExpoCov⟩
  · exact fun pv hpv => absurd hpv List.not_mem_nil

/-- The estimators of a pass keep the maps sound, and give a positive definite covariance. -/
lemma Sound.estimates (hcfg : cfg.Regular) {t : LIVMapper} {est : Estimate} (h : S.mapping.Sound)
    (ht : t.FilterSound) (hest : Estimates L cfg S t est S') :
    est.state.cov.PosDef ∧ S'.mapping.Sound := by
  cases hest with
  | skip => exact ⟨LidarUpdate.start_posDef, h⟩
  | frame flg returns => exact ⟨VIOManager.processFrame_posDef hcfg.updates ht.cov returns, h⟩
  | scan flg points result =>
      obtain rfl := result
      exact (h.handleLIO ht.cov hcfg.iteration t.featsUndistort).symm

/-- **One turn** keeps the node sound. -/
lemma Sound.step (hcfg : cfg.Regular) {ev : LivoEvent} {obs : Option LIVMapper} (h : S.Sound)
    (hstep : S.step L cfg ev = .ok (S', obs)) : S'.Sound := by
  cases steps_of_step hstep with
  | callback noPass node =>
      refine ⟨h.filter.callback node ?_, h.mapping⟩
      cases ev with
      | pass => exact absurd rfl noPass
      | pclCbk driver msg => rfl
      | imuCbk msg => rfl
      | imgCbk msg => rfl
      | imuPropCallback => rfl
  | idle sync => exact ⟨h.filter.sync sync, h.mapping⟩
  | group sync imu estimates =>
      have ht := (h.filter.sync sync).handleFirstFrame.processImu hcfg.exp imu
      obtain ⟨hcov, hmapping⟩ := Sound.estimates hcfg h.mapping ht estimates
      exact ⟨ht.stateEstimationAndMapping hcov, hmapping⟩

/-- The node is sound at both ends of every turn, and at the end of a run. -/
lemma sound_turns (hcfg : cfg.Regular) (h : LivoRun L cfg tr S) :
    S.Sound ∧ ∀ x ∈ tr, x.pre.Sound ∧ x.post.Sound :=
  h.invariant (I := Sound) (C := fun _ => True) (sound_start hcfg)
    (fun _ hx _ hpre => hpre.step hcfg hx) fun _ _ => trivial

/-- **The covariance and the map over a run of the node.**  In every state reached the covariance
is positive definite, the covariances of the planes and points of the map are positive
semidefinite and the normals no longer than one.  So whatever scan comes next, and whatever state
the propagation leaves, its update replaces the covariance once, by the posterior of its last
matches. -/
theorem sound_of_run (hcfg : cfg.Regular) (h : LivoRun L cfg tr S) :
    S.Sound ∧ ∀ (s statePropagat : StatesGroup) (featsDownBody : List V3D), s.cov.PosDef →
      let m := S.mapping.ready L cfg s featsDownBody
      let u := lidarUpdate L cfg m.voxelMap.voxelMap statePropagat featsDownBody
      (u.stateEstimation L.toNumerics s).Posterior u s.cov := by
  have hsound := (sound_turns hcfg h).1
  refine ⟨hsound, fun s statePropagat featsDownBody hs => ?_⟩
  have hready : (S.mapping.ready L cfg s featsDownBody).Sound :=
    hsound.mapping.ready hs.posSemidef featsDownBody
  exact lidarUpdate_covariance hready.map hcfg.iteration hs

/-! ## A cycle -/

section Cycle

variable (L cfg S)

/-- What the visual pass after a scan of few points makes of a manager with an empty map. -/
def fewFrame : VIOManager × VisualEkf :=
  let inp := S.frameInput L (S.processed cfg)
  (S.vio.afterFew L.toVioLibs cfg.vio inp, { state := inp.state, G := S.vio.G, HTH := S.vio.HTH })

/-- The node after the two passes of a cycle. -/
def afterCycle : LivoNode :=
  (S.afterScan L cfg).afterFrame L cfg ((S.afterScan L cfg).fewFrame L cfg)

/-- The two passes of the next cycle hand out a scan of few points and an image of the camera's
size, to a manager with an empty map. -/
structure CycleReady : Prop where
  scan : S.HandsOut cfg fun t => t.lidarMeasures.lioVioFlg = .lio ∧ t.featsUndistort ≠ []
  few : (L.filterSurf (S.processed cfg).featsUndistort).length ≤ 10
  frame : (S.afterScan L cfg).HandsOut cfg fun t =>
    t.lidarMeasures.lioVioFlg = .vio ∧ t.pclWWaitPub ≠ []
  image :
    let img := ((S.afterScan L cfg).frameInput L ((S.afterScan L cfg).processed cfg)).img
    0 < img.rows ∧ 0 < img.cols ∧ img.rows = L.cam.height ∧ img.cols = L.cam.width
  map : S.vio.featMap.size ≤ 0

variable {L cfg S}

lemma CycleReady.exec (h : S.CycleReady L cfg) (hrun : LivoRun L cfg tr S) :
    ∃ x₁ x₂, LivoRun L cfg (tr ++ [x₁] ++ [x₂]) (S.afterCycle L cfg) ∧
      x₁.pre = S ∧ x₁.post = S.afterScan L cfg := by
  obtain ⟨g₁, hscan⟩ := step_scan (L := L) h.scan
  have hpg : (S.afterScan L cfg).mapping.pvList.length ≤ 10 :=
    (LidarMapping.handleLIO_length _ _ _ _).trans h.few
  obtain ⟨g₂, hframe⟩ := step_frame (L := L) h.frame
    (VIOManager.processFrame_few h.image h.map hpg)
  let x₁ : LivoTurn := ⟨S, .pass, some g₁, S.afterScan L cfg⟩
  let x₂ : LivoTurn := ⟨S.afterScan L cfg, .pass, some g₂, S.afterCycle L cfg⟩
  exact ⟨x₁, x₂, (hrun.snoc (x := x₁) hscan).snoc (x := x₂) hframe, rfl, rfl⟩

end Cycle

/-! ## Two cycles on a wall -/

/-- Libraries for a vehicle at rest, with the axes for the directions of a spread along them. -/
noncomputable def axisLibs : LivoLibs where
  toVioLibs := stillLibs
  exp := VoxelMapManager.blindLibm.exp
  evecs := fun _ => 1
  evals := fun C => ![C 0 0, C 1 1, C 2 2]
  div := fun x y => x / y
  filterSurf := fun pcl => pcl
  resizeImg := fun img => img
  grayImg := fun img => img
  sqrt_nonneg := squareRoot_nonneg
  exp_pos := VoxelMapManager.blindLibm.exp_pos
  div_eq := fun _ _ _ => rfl
  evecs_unit := fun _ i => by
    show (1 : M3D).col i ⬝ᵥ (1 : M3D).col i = 1
    fin_cases i <;> decide +kernel

/-- Settings for a camera, a LiDAR and an IMU that two samples initialise. -/
noncomputable def wallConfig : LivoConfig where
  imuIntFrame := 1
  libm := stillLibs.toLibm
  vio := stillConfig true false

lemma wallConfig_regular : wallConfig.Regular where
  exp := fun angvel dt => by simp [Exp, wallConfig, stillLibs]
  gyrCov := one_pos
  accCov := one_pos
  invExpoCov := by decide +kernel
  iteration := by decide
  updates := ⟨by decide +kernel, by decide, by decide, by decide⟩

/-- A point on a wall ahead of the vehicle. -/
def wallPoint (curvature x y : ℚ) : PointType :=
  { x := x, y := y, z := 5 / 4, curvature := curvature }

/-- A sample of an IMU at rest. -/
def restSample (stamp : Stamp) : LivoEvent :=
  .imuCbk { stamp := stamp, linearAcceleration := ![0, 0, gMS2] }

/-- An image of one gray. -/
def grayImage (stamp : Stamp) : LivoEvent :=
  .imgCbk { stamp := stamp, height := 40, width := 40, data := List.replicate 1600 7 }

/-- Scans of the wall, with two images: the first cycle initialises the IMU. -/
def wallEvents : List LivoEvent :=
  [.pclCbk .livox ⟨1000000000, [wallPoint 0 (1 / 10) (1 / 10), wallPoint 100 (1 / 10) (1 / 10)]⟩,
    .pclCbk .livox ⟨1100000000, [wallPoint 10 (1 / 10) (2 / 10), wallPoint 20 (1 / 10) (3 / 10),
      wallPoint 30 (2 / 10) (1 / 10), wallPoint 40 (2 / 10) (2 / 10),
      wallPoint 50 (2 / 10) (3 / 10), wallPoint 100 (1 / 10) (1 / 10)]⟩,
    .pclCbk .livox ⟨1200000000, [wallPoint 10 (1 / 10) (1 / 10), wallPoint 100 (1 / 10) (1 / 10)]⟩,
    restSample 1020000000, restSample 1100000000, restSample 1180000000, grayImage 1040000000,
    .pass, .pass, grayImage 1160000000]

/-- The node after these events: the IMU is initialised, and the second cycle due. -/
noncomputable def wallRun : List LivoTurn × LivoNode :=
  trace (LivoNode.step axisLibs wallConfig) wallEvents wallConfig.start

/-- The scan of the second cycle, and the state the propagation leads to. -/
noncomputable def wallScan : LIVMapper := wallRun.2.processed wallConfig

/-- Its update, on the map that it builds. -/
noncomputable def wallUpdate : LidarUpdate :=
  let places := wallScan.featsUndistort.map PointType.position
  let m := wallRun.2.mapping.ready axisLibs wallConfig wallScan.state places
  lidarUpdate axisLibs wallConfig m.voxelMap.voxelMap wallScan.statePropagat places

lemma wallRun_ready : wallRun.2.CycleReady axisLibs wallConfig where
  scan := by decide +kernel
  few := by decide +kernel
  frame := by decide +kernel
  image := by decide +kernel
  map := by decide +kernel

/-- Two cycles on a wall: the second propagates the filter, makes a plane of the six points of its
scan and starts its update with a match for each of them; the update replaces the covariance by
the posterior of its last matches, and after the image the node is sound. -/
theorem sound_of_run_wall :
    wallRun.1.length = 10 ∧ wallScan.pImu.imuNeedInit = false ∧
    (wallUpdate.buildResidualList (wallUpdate.refreshed
      (wallUpdate.start wallScan.state))).2.length = 6 ∧
    (wallUpdate.stateEstimation axisLibs.toNumerics wallScan.state).Posterior wallUpdate
      wallScan.state.cov ∧
    (wallRun.2.afterCycle axisLibs wallConfig).vio.frameCounter = 1 ∧
    (wallRun.2.afterCycle axisLibs wallConfig).Sound := by
  have hrun : LivoRun axisLibs wallConfig wallRun.1 wallRun.2 := Exec.of_trace _ _
  obtain ⟨x₁, x₂, hcycle, -⟩ := wallRun_ready.exec hrun
  have hsound := sound_of_run wallConfig_regular hrun
  have hcov : wallScan.state.cov.PosDef := by
    obtain ⟨-, g, hsync, himu⟩ := wallRun_ready.scan.processed
    exact ((hsound.1.filter.sync hsync).handleFirstFrame.processImu wallConfig_regular.exp himu).cov
  have hpost := hsound.2 wallScan.state wallScan.statePropagat
    (wallScan.featsUndistort.map PointType.position) hcov
  exact ⟨by decide +kernel, by decide +kernel, by decide +kernel, hpost, by decide +kernel,
    (sound_of_run wallConfig_regular hcycle).1⟩

/-! ## The three views of a run -/

/-- The turn of the loop alone that a turn of the node is. -/
structure LoopTurn (x : LivoTurn) (y : NodeTurn) : Prop where
  pre : y.pre = x.pre.node
  event : ∃ est, y.event = x.event.toEvent est
  obs : y.obs = x.obs
  post : y.post = x.post.node

/-- The frames of a turn: none, or one on the points and the map of planes the turn finds. -/
inductive FramesOf (L : LivoLibs) (x : LivoTurn) :
    List (Turn VIOManager FrameInput VisualEkf) → Prop
  | none (stays : x.post.vio = x.pre.vio) : FramesOf L x []
  | one {t : LIVMapper} {e : VisualEkf} (flg : t.lidarMeasures.lioVioFlg = .vio) :
      FramesOf L x [⟨x.pre.vio, x.pre.frameInput L t, e, x.post.vio⟩]

/-- The calls of a turn on the voxel map: none, or those of a scan. -/
inductive CallsOf (L : LivoLibs) (cfg : LivoConfig) (x : LivoTurn) : List VoxelMapCall → Prop
  | none (stays : x.post.mapping = x.pre.mapping) : CallsOf L cfg x []
  | scan (inputPoints : List PointWithVar) (inited : x.post.mapping.lidarMapInited = true) :
      CallsOf L cfg x
        ((if x.pre.mapping.lidarMapInited then []
          else [.build (fitPlane L cfg) inputPoints]) ++
          .update (x.post.mapping.pvList.map fun pv => (pv, fitPlane L cfg)) ::
          if cfg.mapSlidingEn then [.slide x.post.mapping.positionLast] else [])

variable {x : LivoTurn}

/-- A turn of the node is one of the loop. -/
lemma loopTurn (hx : x.Taken (LivoNode.step L cfg)) :
    ∃ y : NodeTurn, y.Taken (LIVMapper.step cfg.toConfig) ∧ LoopTurn x y := by
  obtain ⟨S, ev, obs, S'⟩ := x
  have hstep : S.step L cfg ev = .ok (S', obs) := hx
  cases steps_of_step hstep with
  | callback noPass node =>
      exact ⟨⟨S.node, ev.toEvent {}, obs, _⟩, node, rfl, ⟨{}, rfl⟩, rfl, rfl⟩
  | @idle s sync =>
      refine ⟨⟨S.node, .pass {}, none, s⟩, ?_, rfl, ⟨{}, rfl⟩, rfl, rfl⟩
      show S.node.pass cfg.toConfig {} = .ok (s, none)
      unfold LIVMapper.pass
      rw [sync]
  | @group s t est S' sync imu estimates =>
      refine ⟨⟨S.node, .pass est, some s, _⟩, ?_, rfl, ⟨est, rfl⟩, rfl, rfl⟩
      show S.node.pass cfg.toConfig est = .ok (t.stateEstimationAndMapping cfg.toConfig est, some s)
      unfold LIVMapper.pass
      rw [sync]
      simp only [imu]

/-- The loop alone makes the turns of a run. -/
lemma loop_of_run (h : LivoRun L cfg tr S) :
    ∃ loop, List.Forall₂ LoopTurn tr loop ∧ NodeRun cfg.toConfig loop S.node := by
  refine h.lockstep LivoNode.node fun x hx => ?_
  obtain ⟨y, htaken, hy⟩ := loopTurn hx
  exact ⟨y, htaken, hy.pre, hy.post, hy⟩

/-- What a run of the loop alone establishes before each of its turns holds in a run. -/
lemma pre_of_run {I : LIVMapper → Prop}
    (hI : ∀ loop t, NodeRun cfg.toConfig loop t → ∀ y ∈ loop, I y.pre)
    (h : LivoRun L cfg tr S) : ∀ x ∈ tr, I x.pre.node := by
  obtain ⟨loop, hturns, hloop⟩ := loop_of_run h
  intro x hx
  obtain ⟨i, hi, rfl⟩ := List.getElem_of_mem hx
  have hi' : i < loop.length := hturns.length_eq ▸ hi
  have hturn : LoopTurn tr[i] loop[i] := hturns.get hi hi'
  rw [← hturn.pre]
  exact hI loop S.node hloop _ (List.getElem_mem hi')

/-- The frame of a turn is one of the visual manager. -/
lemma framesOf (hx : x.Taken (LivoNode.step L cfg)) :
    ∃ lot, Exec (VIOManager.frameStep L.toVioLibs cfg.vio) x.pre.vio lot x.post.vio ∧
      FramesOf L x lot := by
  obtain ⟨S, ev, obs, S'⟩ := x
  have hstep : S.step L cfg ev = .ok (S', obs) := hx
  cases steps_of_step hstep with
  | callback noPass node => exact ⟨[], .nil, .none rfl⟩
  | idle sync => exact ⟨[], .nil, .none rfl⟩
  | group sync imu estimates =>
      cases estimates with
      | skip => exact ⟨[], .nil, .none rfl⟩
      | scan => exact ⟨[], .nil, .none rfl⟩
      | @frame v e flg returns =>
          have hframe : (⟨S.vio, S.frameInput L _, e, v⟩ : Turn _ _ _).Taken
              (VIOManager.frameStep L.toVioLibs cfg.vio) := returns
          exact ⟨_, .cons hframe .nil, .one flg⟩

/-- The map is there once a scan has been matched. -/
lemma ready_lidarMapInited (m : LidarMapping) (s : StatesGroup) (featsDownBody : List V3D) :
    (m.ready L cfg s featsDownBody).lidarMapInited = true := by
  unfold LidarMapping.ready
  split_ifs with hinit
  · exact hinit
  · rfl

/-- The first scan builds the map. -/
lemma ready_voxelMap (m : LidarMapping) (s : StatesGroup) (featsDownBody : List V3D) :
    (m.ready L cfg s featsDownBody).voxelMap =
      (if m.lidarMapInited then [] else [VoxelMapCall.build (fitPlane L cfg)
        (featsDownBody.map (buildPoint L cfg s))]).foldl (VoxelMapManager.call cfg.voxel)
          m.voxelMap := by
  unfold LidarMapping.ready
  split_ifs <;> rfl

/-- The calls of a turn lead from its map to its map. -/
lemma callsOf (hx : x.Taken (LivoNode.step L cfg)) : ∃ calls, CallsOf L cfg x calls ∧
    x.post.mapping.voxelMap =
      calls.foldl (VoxelMapManager.call cfg.voxel) x.pre.mapping.voxelMap := by
  obtain ⟨S, ev, obs, S'⟩ := x
  have hstep : S.step L cfg ev = .ok (S', obs) := hx
  cases steps_of_step hstep with
  | callback noPass node => exact ⟨[], .none rfl, rfl⟩
  | idle sync => exact ⟨[], .none rfl, rfl⟩
  | @group s t est S' sync imu estimates =>
      cases estimates with
      | skip => exact ⟨[], .none rfl, rfl⟩
      | frame => exact ⟨[], .none rfl, rfl⟩
      | scan flg points result =>
          obtain rfl := result
          let places := (L.filterSurf t.featsUndistort).map PointType.position
          refine ⟨_, .scan (places.map (buildPoint L cfg t.state))
            (ready_lidarMapInited S.mapping t.state places), ?_⟩
          rw [List.foldl_append, List.foldl_cons, ← ready_voxelMap]
          by_cases hsliding : cfg.mapSlidingEn = true
          · rw [if_pos hsliding]
            exact if_pos hsliding
          · rw [if_neg hsliding]
            exact if_neg hsliding

/-- The call builds the map. -/
def builds : VoxelMapCall → Bool
  | .build _ _ => true
  | _ => false

/-- A turn that finds the map built does not build it again, and one that calls leaves it built. -/
lemma CallsOf.builds {calls : List VoxelMapCall} (h : CallsOf L cfg x calls) :
    (∀ c ∈ calls.tail, LivoNode.builds c = false) ∧
      (x.pre.mapping.lidarMapInited = true → ∀ c ∈ calls, LivoNode.builds c = false) ∧
      (x.post.mapping.lidarMapInited = false ↔
        x.pre.mapping.lidarMapInited = false ∧ calls = []) := by
  cases h with
  | none stays =>
      rw [stays]
      exact ⟨by simp, by simp, by simp⟩
  | scan inputPoints inited =>
      have hrest : ∀ c ∈ VoxelMapCall.update (x.post.mapping.pvList.map fun pv =>
          (pv, fitPlane L cfg)) ::
            if cfg.mapSlidingEn then [VoxelMapCall.slide x.post.mapping.positionLast] else [],
          LivoNode.builds c = false := by
        intro c hc
        rcases List.mem_cons.mp hc with rfl | hc
        · rfl
        · split_ifs at hc
          · rw [List.mem_singleton.mp hc]
            rfl
          · exact absurd hc List.not_mem_nil
      refine ⟨?_, fun hpre => ?_, by simp [inited]⟩
      · by_cases hpre : x.pre.mapping.lidarMapInited = true
        · rw [if_pos hpre]
          exact fun c hc => hrest c (List.mem_of_mem_tail hc)
        · rw [if_neg hpre]
          exact hrest
      · rw [if_pos hpre]
        exact hrest

/-- The calls of a run. -/
lemma calls_of_run (h : LivoRun L cfg tr S) : ∃ calls, List.Forall₂ (CallsOf L cfg) tr calls ∧
    S.mapping.voxelMap = VoxelMapManager.after cfg.voxel calls.flatten ∧
    (∀ c ∈ calls.flatten.tail, builds c = false) ∧
    (S.mapping.lidarMapInited = false ↔ calls.flatten = []) := by
  refine Exec.history (P := fun tr S => ∃ calls, List.Forall₂ (CallsOf L cfg) tr calls ∧
    S.mapping.voxelMap = VoxelMapManager.after cfg.voxel calls.flatten ∧
    (∀ c ∈ calls.flatten.tail, builds c = false) ∧
    (S.mapping.lidarMapInited = false ↔ calls.flatten = [])) (C := fun _ => True)
    ⟨[], .nil, rfl, by simp, iff_of_true rfl rfl⟩ ?_ h fun _ _ => trivial
  rintro tr x - hx - ⟨calls, hcalls, hmap, htail, hinit⟩
  obtain ⟨lot, hlot, hpost⟩ := callsOf hx
  obtain ⟨hlotTail, hlotBuilt, hlotInit⟩ := hlot.builds
  refine ⟨calls ++ [lot], List.rel_append hcalls (.cons hlot .nil), ?_, ?_, ?_⟩
  · rw [hpost, hmap, List.flatten_append, List.flatten_singleton]
    unfold VoxelMapManager.after
    rw [List.foldl_append]
  · rw [List.flatten_append, List.flatten_singleton]
    by_cases hpre : x.pre.mapping.lidarMapInited = true
    · intro c hc
      rw [List.tail_append] at hc
      split_ifs at hc
      · exact hlotTail c hc
      · rcases List.mem_append.mp hc with hc | hc
        · exact htail c hc
        · exact hlotBuilt hpre c hc
    · rw [hinit.mp (by simpa using hpre), List.nil_append]
      exact hlotTail
  · rw [hlotInit, hinit, List.flatten_append, List.flatten_singleton, List.append_eq_nil_iff]

/-- The frame of a turn on a sound node has normals no longer than one. -/
lemma FramesOf.unitNormals {frames : List (Turn VIOManager FrameInput VisualEkf)}
    (h : FramesOf L x frames) (hsound : x.pre.Sound) : ∀ y ∈ frames, y.event.UnitNormals := by
  cases h with
  | none => exact fun y hy => absurd hy List.not_mem_nil
  | one flg =>
      intro y hy
      rw [List.mem_singleton.mp hy]
      refine ⟨hsound.mapping.normals, fun pw position d leaves hfind _ => ?_⟩
      exact ((hsound.mapping.map position).findCorrespond hfind).plane.normal

/-- The frames of a run. -/
lemma frames_of_run (h : LivoRun L cfg tr S) :
    ∃ frames, List.Forall₂ (FramesOf L) tr frames ∧
      Exec (VIOManager.frameStep L.toVioLibs cfg.vio) {} frames.flatten S.vio :=
  h.simulation LivoNode.vio (C := fun _ => True) (fun _ hx _ => framesOf hx) fun _ _ => trivial

/-- The frames of a run on sound nodes have normals no longer than one. -/
lemma unitNormals_of_frames {frames : List (List (Turn VIOManager FrameInput VisualEkf))}
    (h : List.Forall₂ (FramesOf L) tr frames) (hsound : ∀ x ∈ tr, x.pre.Sound) :
    ∀ y ∈ frames.flatten, y.event.UnitNormals := by
  induction h with
  | nil => exact fun y hy => absurd hy List.not_mem_nil
  | @cons x lot tr frames hx h ih =>
      intro y hy
      rw [List.flatten_cons, List.mem_append] at hy
      rcases hy with hy | hy
      · exact hx.unitNormals (hsound x List.mem_cons_self) y hy
      · exact ih (fun x hx => hsound x (List.mem_cons_of_mem _ hx)) y hy

/-- **A run of the node is a run of each of its parts.**  It is a run of the loop alone; a run of
the visual manager, of frames whose normals are no longer than one when the settings are regular;
and a sequence of calls on the voxel map, of which only the first builds it, and all fit their
planes by `init_plane`. -/
theorem refines_of_run (h : LivoRun L cfg tr S) :
    (∃ loop, List.Forall₂ LoopTurn tr loop ∧ NodeRun cfg.toConfig loop S.node) ∧
    (∃ frames, List.Forall₂ (FramesOf L) tr frames ∧
      Exec (VIOManager.frameStep L.toVioLibs cfg.vio) {} frames.flatten S.vio ∧
      (cfg.Regular → ∀ y ∈ frames.flatten, y.event.UnitNormals)) ∧
    ∃ calls, List.Forall₂ (CallsOf L cfg) tr calls ∧
      S.mapping.voxelMap = VoxelMapManager.after cfg.voxel calls.flatten ∧
      (∀ c ∈ calls.flatten.tail, builds c = false) ∧
      (S.mapping.lidarMapInited = false ↔ calls.flatten = []) := by
  obtain ⟨frames, hframes, hexec⟩ := frames_of_run h
  refine ⟨loop_of_run h, ⟨frames, hframes, hexec, fun hcfg => ?_⟩, calls_of_run h⟩
  exact unitNormals_of_frames hframes fun x hx => ((sound_turns hcfg h).2 x hx).1

/-- The run through both cycles is one of the loop; it has a frame, and its scan makes calls on an
empty map. -/
theorem refines_of_run_wall : ∃ tr,
    (∃ loop, List.Forall₂ LoopTurn tr loop ∧
      NodeRun wallConfig.toConfig loop (wallRun.2.afterCycle axisLibs wallConfig).node) ∧
    (∃ frames, List.Forall₂ (FramesOf axisLibs) tr frames ∧ frames.flatten ≠ [] ∧
      Exec (VIOManager.frameStep axisLibs.toVioLibs wallConfig.vio) {} frames.flatten
        (wallRun.2.afterCycle axisLibs wallConfig).vio ∧
      ∀ y ∈ frames.flatten, y.event.UnitNormals) ∧
    ∃ calls, List.Forall₂ (CallsOf axisLibs wallConfig) tr calls ∧ calls.flatten ≠ [] ∧
      (wallRun.2.afterCycle axisLibs wallConfig).mapping.voxelMap =
        VoxelMapManager.after wallConfig.voxel calls.flatten ∧
      ∀ c ∈ calls.flatten.tail, builds c = false := by
  have hcount : (wallRun.2.afterCycle axisLibs wallConfig).vio.frameCounter = 1 := by
    decide +kernel
  have hinited : (wallRun.2.afterCycle axisLibs wallConfig).mapping.lidarMapInited = true := by
    decide +kernel
  obtain ⟨x₁, x₂, hcycle, -⟩ := wallRun_ready.exec (Exec.of_trace _ _)
  obtain ⟨hloop, ⟨frames, hframes, hexec, hunit⟩, calls, hcalls, hmap, htail, hinit⟩ :=
    refines_of_run hcycle
  refine ⟨_, hloop, ⟨frames, hframes, fun hnil => ?_, hexec, hunit wallConfig_regular⟩, calls,
    hcalls, fun hnil => ?_, hmap, htail⟩
  · rw [hexec.pre_head.1 hnil] at hcount
    cases hcount
  · rw [hinit.mpr hnil] at hinited
    cases hinited

end LivoNode

end FastLivo2
