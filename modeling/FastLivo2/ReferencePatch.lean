import FastLivo2.VisualRun

/-!
# The reference pointer

`precomputeReferencePatches` follows `ref_patch` for every point of the submap, whatever the
settings.  With `normal_en` the retrieval has just chosen a reference for each of these points, so
the pointer is good.  Without it a reference can only come from `updateReferencePatch`, which works
on the submaps of earlier frames, and the first frame that has a submap already follows the
pointers its points were born with.  So the pointers are good exactly when `normal_en` is on or
nothing is followed (`referencesAssigned_iff`).
-/

namespace FastLivo2

/-! ## Assigned references -/

/-- `ref_patch` has been assigned, and points to an observation of the point. -/
def VisualPoint.RefAssigned (pt : VisualPoint) : Prop := ∃ ftr ∈ pt.obs, pt.refPatch = .to ftr.addr

/-- A point has a reference when it says so. -/
lemma VisualPoint.Wf.refAssigned {pt : VisualPoint} {frames ftrs : ℕ} (h : pt.Wf frames ftrs)
    (hhas : pt.hasRefPatch = true) : pt.RefAssigned := by
  obtain ⟨addr, haddr, heq⟩ := h.ref_mem hhas
  obtain ⟨ftr, hftr, rfl⟩ := List.mem_map.mp haddr
  exact ⟨ftr, hftr, heq⟩

/-- The pointer can be followed when it has been assigned. -/
lemma VisualPoint.derefPatch_returns_iff {pt : VisualPoint} :
    (∃ ftr, pt.derefPatch = .ok ftr) ↔ pt.RefAssigned := by
  constructor
  · rintro ⟨ftr, hftr⟩
    exact ⟨ftr, VIOManager.mem_of_derefPatch hftr⟩
  · rintro ⟨ftr, hftr, heq⟩
    have hfound : (pt.obs.find? fun g => decide (g.addr = ftr.addr)).isSome := by
      apply List.find?_isSome.mpr
      exact ⟨ftr, hftr, by simp⟩
    obtain ⟨g, hg⟩ := Option.isSome_iff_exists.mp hfound
    exact ⟨g, by rw [derefPatch, heq]; simp only [hg]⟩

namespace VIOManager

variable {L : VioLibs} {cfg : VioConfig} {inp : FrameInput} {v w : VIOManager}

/-- Every pointer of the submap has been assigned. -/
def ReferencesAssigned (w : VIOManager) : Prop :=
  ∀ e ∈ w.submap.entries, ∃ pt, w.point e.point = .ok pt ∧ pt.RefAssigned

/-- The update of a frame calls `precomputeReferencePatches` on a submap that is not empty. -/
def FollowsReferences (cfg : VioConfig) (w : VIOManager) : Prop :=
  cfg.inverseCompositionEn = true ∧ 0 < cfg.patchPyrimidLevel ∧ 0 < cfg.maxIterations ∧
    w.totalPoints ≠ 0

lemma precompute_returns_iff :
    (∃ pts, w.precomputeReferencePatches = .ok pts) ↔ w.ReferencesAssigned := by
  unfold precomputeReferencePatches ReferencesAssigned
  rw [mapM_returns_iff]
  refine forall_congr' fun e => forall_congr' fun _ => ?_
  constructor
  · rintro ⟨b, hb⟩
    obtain ⟨pt, hpt, hb⟩ := vio_bind_eq_ok.mp hb
    obtain ⟨ftr, hftr, -⟩ := vio_bind_eq_ok.mp hb
    exact ⟨pt, hpt, VisualPoint.derefPatch_returns_iff.mp ⟨ftr, hftr⟩⟩
  · rintro ⟨pt, hpt, href⟩
    obtain ⟨ftr, hftr⟩ := VisualPoint.derefPatch_returns_iff.mpr href
    exact ⟨_, vio_bind_eq_ok.mpr ⟨pt, hpt, vio_bind_eq_ok.mpr ⟨ftr, hftr, rfl⟩⟩⟩

/-- **The update follows the references.**  A frame that gets past its update, and whose update
follows them, has found every one assigned. -/
theorem referencesAssigned_of_update {e : VisualEkf} (hfollow : w.FollowsReferences cfg)
    (h : computeJacobianAndUpdateEKF L cfg inp w = .ok (v, e)) : w.ReferencesAssigned := by
  obtain ⟨hinv, hlevels, hiter, htotal⟩ := hfollow
  unfold computeJacobianAndUpdateEKF at h
  dsimp only at h
  rw [if_neg htotal] at h
  obtain ⟨e', he', -⟩ := vio_bind_eq_ok.mp h
  unfold updateLevels at he'
  rw [if_pos hinv] at he'
  have hne : levels cfg ≠ [] := by
    intro hnil
    have hlen := congrArg List.length hnil
    simp only [levels, List.length_reverse, List.length_range, List.length_nil] at hlen
    omega
  obtain ⟨level, rest, hcons⟩ := List.exists_cons_of_ne_nil hne
  rw [hcons, List.foldlM_cons] at he'
  obtain ⟨e₁, he₁, -⟩ := vio_bind_eq_ok.mp he'
  rw [if_neg (by omega)] at he₁
  obtain ⟨pts, hpts, -⟩ := vio_bind_eq_ok.mp he₁
  exact precompute_returns_iff.mp ⟨pts, hpts⟩

/-! ## Without normals -/

/-- The settings under which pointers are followed that the retrieval has not set. -/
def Careless (cfg : VioConfig) : Prop :=
  cfg.normalEn = false ∧ cfg.inverseCompositionEn = true ∧ 0 < cfg.patchPyrimidLevel ∧
    0 < cfg.maxIterations

lemma unassigned_rule (hcfg : cfg.normalEn = false) (frame : ℕ) :
    BirthRule L cfg inp frame (fun _ => True) fun _ pt => pt.refPatch = .unassigned where
  mono := fun _ _ h => h
  refer := fun hn => absurd (hcfg.symm.trans hn) Bool.false_ne_true
  born := fun _ _ _ _ _ _ => rfl

/-- A submap whose points were never given a reference. -/
lemma totalPoints_eq_zero_of_unassigned (hv : ∀ pt ∈ v.points, pt.refPatch = .unassigned)
    (hcfg : cfg.normalEn = false) (hw : beginFrame L cfg inp v = .ok w)
    (hall : w.ReferencesAssigned) : w.totalPoints = 0 := by
  have hb := beginFrame_begun hw
  rcases hb.submap with ⟨hzero, -⟩ | ⟨htotal, -, -⟩
  · exact hzero
  rw [htotal]
  apply List.length_eq_zero_iff.mpr
  apply List.eq_nil_iff_forall_not_mem.mpr
  intro e he
  obtain ⟨pt, hpt, ftr, -, href⟩ := hall e he
  have hpoints : ∀ pt ∈ w.points, pt.refPatch = .unassigned :=
    hb.referred.forall_mem (fun hn => absurd (hcfg.symm.trans hn) Bool.false_ne_true) hv
  have hbare := hpoints pt (List.mem_of_getElem? (point_eq_ok.mp hpt))
  rw [hbare] at href
  cases href

/-- Under such settings no run ever gives a point a reference. -/
lemma unassigned_of_run (hcfg : Careless cfg)
    {tr : List (Turn VIOManager FrameInput VisualEkf)} (h : Exec (frameStep L cfg) {} tr v) :
    ∀ pt ∈ v.points, pt.refPatch = .unassigned := by
  obtain ⟨hnormal, hinv, hlevels, hiter⟩ := hcfg
  refine (h.invariant (I := fun v : VIOManager => ∀ pt ∈ v.points, pt.refPatch = .unassigned)
    (C := fun _ => True) (fun pt hpt => by cases hpt) (fun x hx _ hpre => ?_)
    fun _ _ => trivial).1
  have hframe : processFrame L cfg x.event x.pre = .ok (x.post, x.obs) := hx
  obtain ⟨v₁, v₂, hmiddle, hupdate, href⟩ := processFrame_calls hframe
  have hmid := (unassigned_rule hnormal x.pre.frameCounter).middleFrame
    ⟨fun _ _ => trivial, fun _ _ => trivial, trivial, fun _ _ => trivial⟩ hmiddle hpre
  -- the submap is empty, or the update would not have returned
  have htotal : v₁.totalPoints = 0 := by
    obtain ⟨w, tFW, G, HTH, hw, ⟨u, hu⟩, -, hgen⟩ := middleFrame_calls hmiddle
    rw [(generate_rest hgen).1.totalPoints]
    show w.totalPoints = 0
    by_contra hne
    have hfollow : w.FollowsReferences cfg := ⟨hinv, hlevels, hiter, hne⟩
    exact hne (totalPoints_eq_zero_of_unassigned hpre hnormal hw
      (referencesAssigned_of_update hfollow hu))
  have hsame : v₂ = v₁ := by
    unfold updateVisualMapPoints at hupdate
    rw [if_pos htotal] at hupdate
    exact (Except.ok.inj hupdate).symm
  unfold updateReferencePatch at href
  rw [hsame, if_pos htotal] at href
  rw [← Except.ok.inj href]
  exact hmid

/-! ## The pointers that are followed -/

/-- **References are assigned when they are followed** in a frame of any run, exactly when
`normal_en` is on or the frame follows none. -/
theorem referencesAssigned_iff {tr : List (Turn VIOManager FrameInput VisualEkf)}
    (h : Exec (frameStep L cfg) {} tr v) (hw : beginFrame L cfg inp v = .ok w) :
    (w.FollowsReferences cfg → w.ReferencesAssigned) ↔
      cfg.normalEn = true ∨ cfg.inverseCompositionEn = false ∨ cfg.patchPyrimidLevel = 0 ∨
        cfg.maxIterations = 0 ∨ w.totalPoints = 0 := by
  have hb := beginFrame_begun hw
  constructor
  · intro hall
    by_contra hnone
    push Not at hnone
    obtain ⟨hnormal, hinv, hlevels, hiter, htotal⟩ := hnone
    have hnormal : cfg.normalEn = false := by simpa using hnormal
    have hinv : cfg.inverseCompositionEn = true := by simpa using hinv
    have hfollow : w.FollowsReferences cfg := ⟨hinv, by omega, by omega, htotal⟩
    have hv := unassigned_of_run ⟨hnormal, hinv, by omega, by omega⟩ h
    exact htotal (totalPoints_eq_zero_of_unassigned hv hnormal hw (hall hfollow))
  · rintro hsafe ⟨hinv, hlevels, hiter, htotal⟩ e he
    have hnormal : cfg.normalEn = true := by
      rcases hsafe with hnormal | hno | hno | hno | hno
      · exact hnormal
      · exact absurd (hno.symm.trans hinv) Bool.false_ne_true
      · omega
      · omega
      · exact absurd hno htotal
    rcases hb.submap with ⟨hzero, -⟩ | ⟨-, hok, -⟩
    · exact absurd hzero htotal
    have hlt := hok.valid e he
    have hget := List.getElem?_eq_getElem hlt
    refine ⟨w.points[e.point], point_eq_ok.mpr hget, ?_⟩
    have hwf := hb.referred.forall_mem (fun _ pt ftr hpt hftr => hpt.setRef hftr) (points_wf h)
    exact (hwf _ (List.getElem_mem hlt)).refAssigned (hok.hasRef hnormal e he _ hget)

end VIOManager

/-! ## A camera at rest -/

/-- Libraries for a camera that does not turn, forty pixels wide, looking along the third axis at
one bright pixel. -/
noncomputable def stillLibs : VioLibs where
  sin := fun _ => 0
  cos := fun _ => 1
  sqrt := squareRoot
  acos := fun _ => 0
  inverse := fun A => A⁻¹
  inverse_mul := inv_mul_of_isUnit
  cam := { width := 40, height := 40, fx := 20, fy := 20
           world2cam := fun p => ![20 * p 0 / p 2 + 20, 20 * p 1 / p 2 + 20]
           cam2world := fun px => ![(px 0 - 20) / 20, (px 1 - 20) / 20, 1] }
  shiTomasiScore := fun _ _ _ => 65025 / 64
  toRotation := fun _ => 1
  hashOrder := fun l => l
  hashOrder_perm := fun _ => List.Perm.refl _
  indeterminate := fun _ _ => 0

/-- Small patches on one level. -/
def stillConfig (normalEn inverseCompositionEn : Bool) : VioConfig where
  gridSizeParam := 20
  patchSize := 2
  patchPyrimidLevel := 1
  normalEn := normalEn
  inverseCompositionEn := inverseCompositionEn

/-- A frame of the camera at rest: one bright pixel, and some points straight ahead. -/
def stillFrame (points : ℕ) : FrameInput where
  img := { rows := 40, cols := 40, data := (List.replicate 1600 0).set 697 255 }
  pg := List.replicate points { pointW := ![0, 0, 1], normal := ![0, 0, 1] }

namespace VIOManager

/-- The manager after some frames of the camera at rest. -/
noncomputable def afterStill (normalEn inverseCompositionEn : Bool) (inps : List FrameInput) :
    VIOManager :=
  (trace (frameStep stillLibs (stillConfig normalEn inverseCompositionEn)) inps {}).2

/-- The second frame retrieves the point that the first one made; with `normal_en` only it has a
reference by then. -/
lemma stillFrame_retrieved (normalEn inverseCompositionEn : Bool) : ∃ w,
    beginFrame stillLibs (stillConfig normalEn inverseCompositionEn) (stillFrame 11)
      (afterStill normalEn inverseCompositionEn [stillFrame 11]) = .ok w ∧
    w.totalPoints = 1 ∧
    w.submap.entries.map (fun e => (w.points[e.point]?).map VisualPoint.refPatch) =
      [some (if normalEn then .to 0 else .unassigned)] := by
  revert normalEn inverseCompositionEn
  decide +kernel

/-- With `normal_en` the second frame follows a reference, and finds it assigned. -/
theorem referencesAssigned_iff_still : ∃ w,
    beginFrame stillLibs (stillConfig true true) (stillFrame 11)
      (afterStill true true [stillFrame 11]) = .ok w ∧
    w.FollowsReferences (stillConfig true true) ∧ w.ReferencesAssigned := by
  obtain ⟨w, hw, htotal, -⟩ := stillFrame_retrieved true true
  have hfollow : w.FollowsReferences (stillConfig true true) :=
    ⟨rfl, by decide, by decide, by omega⟩
  exact ⟨w, hw, hfollow, (referencesAssigned_iff (Exec.of_trace _ _) hw).mpr (.inl rfl) hfollow⟩

/-- Without it the second frame follows the pointer its point was born with. -/
theorem references_not_assigned : ¬ ∀ (L : VioLibs) (cfg : VioConfig) (inp : FrameInput)
    (tr : List (Turn VIOManager FrameInput VisualEkf)) (v w : VIOManager),
    Exec (frameStep L cfg) {} tr v → beginFrame L cfg inp v = .ok w →
    w.FollowsReferences cfg → w.ReferencesAssigned := by
  intro hall
  obtain ⟨w, hw, htotal, href⟩ := stillFrame_retrieved false true
  have hassigned := hall _ _ _ _ _ w (Exec.of_trace _ _) hw ⟨rfl, by decide, by decide, by omega⟩
  obtain ⟨e, he⟩ : ∃ e, e ∈ w.submap.entries := by
    apply List.exists_mem_of_length_pos
    have hlen := congrArg List.length href
    rw [List.length_map] at hlen
    exact hlen ▸ Nat.one_pos
  obtain ⟨pt, hpt, ftr, -, hto⟩ := hassigned e he
  have hmem := List.mem_map_of_mem (f := fun e : SubEntry =>
    (w.points[e.point]?).map VisualPoint.refPatch) he
  rw [href, point_eq_ok.mp hpt, Option.map_some, hto] at hmem
  exact absurd hmem (by simp)

end VIOManager

/-! ## A camera that slides -/

/-- The libraries of the camera at rest, with a smaller camera. -/
noncomputable def slideLibs : VioLibs :=
  { stillLibs with
    cam := { width := 24, height := 24, fx := 10, fy := 10
             world2cam := fun p => ![10 * p 0 / p 2 + 12, 10 * p 1 / p 2 + 12]
             cam2world := fun px => ![(px 0 - 12) / 10, (px 1 - 12) / 10, 1] } }

/-- Its settings: the visual update leaves the camera where the frame has it. -/
def slideConfig : VioConfig :=
  { stillConfig true false with maxIterations := 0, gridSizeParam := 12 }

/-- A frame taken at `x` of horizontal stripes, with some points one metre ahead of the origin. -/
def slideFrame (x : ℚ) (points : ℕ) : FrameInput where
  img := { rows := 24, cols := 24
           data := (List.replicate 12 (List.replicate 24 50 ++ List.replicate 24 100)).flatten }
  pg := List.replicate points { pointW := ![0, 0, 1], normal := ![0, 0, 1] }
  state := { posEnd := ![x, 0, 0] }

/-- The wall the points lie on. -/
def wall : OctoNode where
  layer := 0
  maxLayer := 0
  voxelCenter := ![1 / 4, 1 / 4, 5 / 4]
  quaterLength := 1 / 8
  layerInitNum := { nums := [5] }
  pointsSizeThreshold := 5
  maxPointsNum := 50
  initOcto := true
  plane := { center := ![0, 0, 1], normal := ![0, 0, 1], d := -1, radius := 1, planeVar := 1
             isPlane := true }

/-- A point is made, seen from one side until it has eleven observations, found to lie on the wall
in the voxel map, and pruned. -/
def slideFrames : List FrameInput :=
  slideFrame 0 11 :: List.replicate 9 (slideFrame (3 / 5) 1) ++
    List.replicate 2 { slideFrame (3 / 5) 1 with planeMap := fun _ => .node wall fun _ => .nullptr }

/-- The frames of the camera that slides. -/
noncomputable def slideTurns (inps : List FrameInput) :
    List (Turn VIOManager FrameInput VisualEkf) × VIOManager :=
  trace (VIOManager.frameStep slideLibs slideConfig) inps {}

end FastLivo2
