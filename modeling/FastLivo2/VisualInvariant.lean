import FastLivo2.ReferencePatch

/-!
# Observations and references over a run

As long as no correlation divides by zero, a visual point always has between one and thirty
observations of different frames; its reference, if it has one, is among them; and once it has
converged it has one, so that pruning it leaves the reference (`observations_of_run`).  That holds
with and without `normal_en`: a point converges in the pass that scores it, and the score of its
first observation already beats the value the maximum starts from.

What the libraries contribute is stated as assumptions (`VioLibs.Accurate`): the square root is
right within a factor of two, and a conversion to a rotation gives a rotation.  The normals the
LiDAR part hands over are unit vectors; here they need only be no longer than that
(`FrameInput.UnitNormals`).
-/

namespace FastLivo2

/-- What a frame relies on in the libraries. -/
structure VioLibs.Accurate (L : VioLibs) : Prop where
  sqrt_close : ∀ x, 0 < x → x ≤ 4 * (L.sqrt x) ^ 2
  toRotation_orthogonal : ∀ R, (L.toRotation R).transpose * L.toRotation R = 1

/-- The normals of the scan and of the planes of the voxel map. -/
structure FrameInput.UnitNormals (inp : FrameInput) : Prop where
  scan : ∀ p ∈ inp.pg, p.normal ⬝ᵥ p.normal ≤ 1
  plane : ∀ pw position d leaves,
    VoxelOctoTree.findCorrespond pw (inp.planeMap position) = .node d leaves →
    d.plane.isPlane = true → d.plane.normal ⬝ᵥ d.plane.normal ≤ 1

/-! ## One point -/

/-- What the choice of references adds to a well-formed point. -/
structure VisualPoint.Referenced (pt : VisualPoint) : Prop where
  nonempty : pt.obs ≠ []
  converged : pt.isConverged = true → pt.hasRefPatch = true
  normal : pt.normal ⬝ᵥ pt.normal ≤ 1
  rot : ∀ ftr ∈ pt.cores, ftr.tFW.rot.transpose * ftr.tFW.rot = 1

lemma neg_dotProduct_self (n : V3D) : -n ⬝ᵥ -n = n ⬝ᵥ n := by
  rw [neg_dotProduct, dotProduct_neg, neg_neg]

namespace VisualPoint.Referenced

variable {pt pt' : VisualPoint} {freed : List ℕ}

lemma setRef (h : pt.Referenced) (ftr : Feature) : (pt.setRef ftr).Referenced :=
  { h with converged := fun _ => rfl }

/-- A converged point keeps its reference when it is pruned. -/
lemma prune {frames ftrs : ℕ} (h : pt.Referenced) (hwf : pt.Wf frames ftrs)
    (hconv : pt.isConverged = true) : pt.deleteNonRefPatchFeatures.1.Referenced where
  nonempty := by
    obtain ⟨ftr, hftr, href⟩ := hwf.refAssigned (h.converged hconv)
    apply List.ne_nil_of_mem (a := ftr)
    exact List.mem_filter.mpr ⟨hftr, by simpa using href⟩
  converged := h.converged
  normal := h.normal
  rot := by
    intro ftr hftr
    obtain ⟨g, hg, rfl⟩ := List.mem_map.mp hftr
    exact h.rot _ (List.mem_map_of_mem (List.mem_filter.mp hg).1)

lemma evict (h : pt.Referenced) (hconv : pt.isConverged = false)
    (hevict : VIOManager.evict pt = .ok (pt', freed)) :
    pt'.Referenced ∧ pt'.isConverged = false := by
  have hrot : ∀ ftr ∈ pt'.cores, ftr.tFW.rot.transpose * ftr.tFW.rot = 1 := fun ftr hftr =>
    h.rot ftr (((evict_sublist hevict).map Feature.core).subset hftr)
  rcases evict_cases hevict with ⟨-, rfl, -⟩ | ⟨hfull, ftr, hftr, rfl, -⟩
  · exact ⟨h, hconv⟩
  · have hconv' : (pt.deleteFeatureRef ftr).1.isConverged = false := by
      rw [deleteFeatureRef_isConverged, hconv]
    refine ⟨⟨?_, fun htrue => ?_, ?_, hrot⟩, hconv'⟩
    · apply List.ne_nil_of_length_pos
      rw [deleteFeatureRef_obs, List.length_eraseP_of_mem hftr (by simp)]
      omega
    · rw [hconv'] at htrue
      cases htrue
    · rw [deleteFeatureRef_normal]
      exact h.normal

lemma addFrameRef {ftr : Feature} (h : pt.Referenced) (hconv : pt.isConverged = false)
    (hrot : ftr.tFW.rot.transpose * ftr.tFW.rot = 1) : (pt.addFrameRef ftr).Referenced where
  nonempty := List.cons_ne_nil _ _
  converged := fun htrue => absurd (hconv.symm.trans htrue) Bool.false_ne_true
  normal := h.normal
  rot := by
    intro g hg
    rcases List.mem_cons.mp hg with rfl | hg
    · exact hrot
    · exact h.rot g hg

end VisualPoint.Referenced

namespace VIOManager

variable {L : VioLibs} {cfg : VioConfig} {inp : FrameInput} {v w : VIOManager}

lemma refineNormal_unit (hunit : inp.UnitNormals) {pt : VisualPoint}
    (h : pt.normal ⬝ᵥ pt.normal ≤ 1) :
    (refineNormal L inp pt).normal ⬝ᵥ (refineNormal L inp pt).normal ≤ 1 := by
  rcases refineNormal_cases L inp pt with heq | ⟨d, leaves, n, _, hfind, hplane, hn, heq⟩
  · rwa [heq]
  · have hd := hunit.plane _ _ _ _ hfind hplane
    rw [heq]
    show n ⬝ᵥ n ≤ 1
    rcases hn with rfl | rfl
    · exact hd
    · rwa [neg_dotProduct_self]

lemma Referenced.rescore {frames ftrs : ℕ} {pt : VisualPoint} (hL : L.Accurate)
    (hunit : inp.UnitNormals) (hwf : pt.Wf frames ftrs) (h : pt.Referenced)
    (hlen : 5 < pt.obs.length) (hd : ∀ d ∈ (rescore L cfg inp pt).denoms, d ≠ 0) :
    (VIOManager.rescore L cfg inp pt).pt.Referenced where
  nonempty := by
    apply List.ne_nil_of_length_pos
    rw [VisualPoint.length_eq_length_cores, rescore_cores, ← VisualPoint.length_eq_length_cores]
    omega
  converged := fun _ => rescore_hasRefPatch hL.sqrt_close (refineNormal_unit hunit h.normal) h.rot
    (by omega) hwf.ids_nodup hd
  normal := by
    rw [(rescore_rescored L cfg inp pt).normal]
    exact refineNormal_unit hunit h.normal
  rot := by
    rw [rescore_cores]
    exact h.rot

/-- What a frame can do to a point keeps both. -/
lemma referenced_rule (hL : L.Accurate) (hunit : inp.UnitNormals) (frame : ℕ) :
    PointRule L cfg inp frame (fun p => p.normal ⬝ᵥ p.normal ≤ 1) (fun d => d ≠ 0)
      (fun n pt => pt.Wf (frame + 1) n ∧ pt.Referenced) where
  mono := fun n pt h => ⟨(wf_rule L cfg inp frame).mono n pt h.1, h.2⟩
  refer := fun _ n pt ftr h hftr => ⟨h.1.setRef hftr, h.2.setRef ftr⟩
  born := by
    intro n s v p hp htaken
    refine ⟨(wf_rule L cfg inp frame).born n s v p trivial htaken,
      ⟨List.cons_ne_nil _ _, ?_, ?_, ?_⟩⟩
    · exact fun htrue => absurd htrue Bool.false_ne_true
    · show (ite _ _ _ : V3D) ⬝ᵥ (ite _ _ _ : V3D) ≤ 1
      split_ifs
      · rwa [neg_dotProduct_self]
      · exact hp
    · intro ftr hftr
      obtain rfl := List.mem_singleton.mp hftr
      obtain ⟨R, hR⟩ := htaken.rot
      show (newFeature L cfg inp s v (v.newFrame.w2c L p.pointW) 0 v.nextBuf).tFW.rot.transpose *
        (newFeature L cfg inp s v (v.newFrame.w2c L p.pointW) 0 v.nextBuf).tFW.rot = 1
      rw [hR]
      exact hL.toRotation_orthogonal R
  prune := fun n pt h hconv => ⟨h.1.deleteNonRefPatchFeatures, h.2.prune h.1 hconv⟩
  observe := by
    intro n pt pt' freed h hconv hevict hids
    obtain ⟨hwf, hadd⟩ := (wf_rule L cfg inp frame).observe n pt pt' freed
      h.1 hconv hevict hids
    obtain ⟨href, hconv'⟩ := h.2.evict hconv hevict
    refine ⟨⟨hwf, href⟩, fun ftr htaken => ⟨hadd ftr htaken, href.addFrameRef hconv' ?_⟩⟩
    obtain ⟨R, hR⟩ := htaken.rot
    rw [hR]
    exact hL.toRotation_orthogonal R
  rescore := fun n pt h hconv hlen hd =>
    ⟨(wf_rule L cfg inp frame).rescore n pt h.1 hconv hlen fun _ _ => trivial,
      Referenced.rescore hL hunit h.1 h.2 hlen hd⟩

/-! ## Runs -/

/-- The invariant of a run. -/
structure AllReferenced (v : VIOManager) : Prop where
  points : ∀ pt ∈ v.points, pt.Wf v.frameCounter v.nextFtr ∧ pt.Referenced
  candidates : ∀ p ∈ v.submap.addFromVoxelMap, p.normal ⬝ᵥ p.normal ≤ 1

lemma AllReferenced.processFrame (hL : L.Accurate) (hunit : inp.UnitNormals)
    (h : v.AllReferenced) {e : VisualEkf} (hw : processFrame L cfg inp v = .ok (w, e))
    (hd : ∀ d ∈ w.denoms, d ≠ 0) : w.AllReferenced := by
  have hcand : CandidatesOk (fun p => p.normal ⬝ᵥ p.normal ≤ 1) inp v := by
    refine ⟨hunit.scan, ?_, by simp, h.candidates⟩
    rintro p ⟨pw, position, d, leaves, hfind, hplane, heq⟩
    rw [heq]
    exact hunit.plane pw position d leaves hfind hplane
  refine ⟨?_, hcand.processFrame hw⟩
  rw [processFrame_frameCounter hw]
  refine (referenced_rule hL hunit v.frameCounter).processFrame hcand hw
    (fun pt hpt => (h.points pt hpt).1.ids_lt) hd fun pt hpt => ?_
  exact ⟨(h.points pt hpt).1.mono (Nat.le_succ _) le_rfl, (h.points pt hpt).2⟩

/-- Pruning a point with a reference leaves the reference. -/
lemma prune_eq_singleton {pt : VisualPoint} {frames ftrs : ℕ} (h : pt.Wf frames ftrs)
    {ftr : Feature} (hftr : ftr ∈ pt.obs) (href : pt.refPatch = .to ftr.addr) :
    pt.deleteNonRefPatchFeatures.1.obs = [ftr] := by
  have hmem : ∀ g, g ∈ pt.deleteNonRefPatchFeatures.1.obs ↔ g ∈ [ftr] := by
    intro g
    rw [List.mem_singleton]
    constructor
    · intro hg
      obtain ⟨hg, hto⟩ := List.mem_filter.mp hg
      rw [href, decide_eq_true_iff] at hto
      exact List.inj_on_of_nodup_map h.addrs_nodup hg hftr (FeaturePtr.to.inj hto).symm
    · rintro rfl
      exact List.mem_filter.mpr ⟨hftr, by simpa using href⟩
  have hnodup : pt.deleteNonRefPatchFeatures.1.obs.Nodup :=
    (List.Nodup.of_map Feature.addr h.addrs_nodup).filter _
  apply List.perm_singleton.mp
  exact (List.perm_ext_iff_of_nodup hnodup (List.nodup_singleton ftr)).mpr hmem

/-- **Observations and references of a run**: every point of the map has one to thirty observations
of different frames; a reference is one of them; a converged point has one, and pruning a point with
a reference leaves the reference alone. -/
theorem observations_of_run (hL : L.Accurate)
    {tr : List (Turn VIOManager FrameInput VisualEkf)} (h : Exec (frameStep L cfg) {} tr v)
    (hunit : ∀ x ∈ tr, x.event.UnitNormals) (hdenoms : ∀ x ∈ tr, ∀ d ∈ x.post.denoms, d ≠ 0)
    {pt : VisualPoint} (hpt : v.InFeatMap pt) :
    (1 ≤ pt.obs.length ∧ pt.obs.length ≤ 30) ∧ pt.ids.Nodup ∧
      (pt.hasRefPatch = true → ∃ ref ∈ pt.obs, pt.refPatch = .to ref.addr ∧
        pt.deleteNonRefPatchFeatures.1.obs = [ref]) ∧
      (pt.isConverged = true → pt.hasRefPatch = true) := by
  have hall : v.AllReferenced := by
    refine (h.invariant (I := AllReferenced)
      (C := fun x => x.event.UnitNormals ∧ ∀ d ∈ x.post.denoms, d ≠ 0) ⟨?_, ?_⟩
      (fun x hx hc hpre => ?_) fun x hx => ⟨hunit x hx, hdenoms x hx⟩).1
    · exact fun pt hpt => by cases hpt
    · exact fun p hp => by cases hp
    · have hframe : VIOManager.processFrame L cfg x.event x.pre = .ok (x.post, x.obs) := hx
      exact hpre.processFrame hL hc.1 hframe hc.2
  obtain ⟨hwf, href⟩ := hall.points pt ((inFeatMap_iff h).mp hpt)
  refine ⟨⟨List.length_pos_iff.mpr href.nonempty, hwf.length_le⟩, hwf.ids_nodup, fun hhas => ?_,
    href.converged⟩
  obtain ⟨ref, hmem, hto⟩ := hwf.refAssigned hhas
  exact ⟨ref, hmem, hto, prune_eq_singleton hwf hmem hto⟩

/-- The square root that is exact on squares is never too small by more than a factor of two. -/
lemma squareRoot_close (x : ℚ) (hx : 0 < x) : x ≤ 4 * (squareRoot x) ^ 2 := by
  obtain ⟨p, hp⟩ : ∃ p : ℕ, x.num = p := Int.eq_ofNat_of_zero_le (Rat.num_nonneg.mpr hx.le)
  have hp0 : 0 < p := by
    have hnum := Rat.num_pos.mpr hx
    omega
  have hq : 0 < x.den := x.den_pos
  have hx' : x = (p : ℚ) / x.den := by
    have hdiv := (Rat.num_div_den x).symm
    rwa [hp, Int.cast_natCast] at hdiv
  have hroot : squareRoot x = (Nat.sqrt p : ℚ) / Nat.sqrt x.den := by
    rw [squareRoot, hp, Int.toNat_natCast]
  have hnum : (p : ℚ) ≤ 4 * (Nat.sqrt p : ℚ) ^ 2 := by
    have hlt := Nat.lt_succ_sqrt p
    have hpos : 1 ≤ Nat.sqrt p := Nat.sqrt_pos.mpr hp0
    have hle : p ≤ 4 * (Nat.sqrt p) ^ 2 := by nlinarith
    exact_mod_cast hle
  have hdenpos : (0 : ℚ) < (Nat.sqrt x.den : ℚ) ^ 2 := by
    have hpos : 0 < Nat.sqrt x.den := Nat.sqrt_pos.mpr hq
    positivity
  have hden : (Nat.sqrt x.den : ℚ) ^ 2 ≤ x.den := by
    have hle := Nat.sqrt_le' x.den
    exact_mod_cast hle
  rw [hroot]
  calc x = (p : ℚ) / x.den := hx'
    _ ≤ 4 * (Nat.sqrt p : ℚ) ^ 2 / (Nat.sqrt x.den : ℚ) ^ 2 :=
        div_le_div₀ (by positivity) hnum hdenpos hden
    _ = 4 * ((Nat.sqrt p : ℚ) / Nat.sqrt x.den) ^ 2 := by
        rw [div_pow, mul_div_assoc]

/-- The point of the camera that slides: observed up to eleven times, each time from the sixth on
with its reference chosen anew, then converged, and pruned to its reference. -/
theorem observations_of_run_slide :
    (slideTurns slideFrames).1.map (fun x => x.post.points.map fun pt =>
        (pt.obs.length, pt.hasRefPatch, pt.isConverged)) =
      [[(1, false, false)], [(2, true, false)], [(3, true, false)], [(4, true, false)],
        [(5, true, false)], [(6, true, false)], [(7, true, false)], [(8, true, false)],
        [(9, true, false)], [(10, true, false)], [(11, true, true)], [(1, true, true)]] ∧
    ∃ pt, (slideTurns slideFrames).2.InFeatMap pt ∧
      (1 ≤ pt.obs.length ∧ pt.obs.length ≤ 30) ∧ pt.ids.Nodup ∧
      (pt.hasRefPatch = true → ∃ ref ∈ pt.obs, pt.refPatch = .to ref.addr ∧
        pt.deleteNonRefPatchFeatures.1.obs = [ref]) ∧
      (pt.isConverged = true → pt.hasRefPatch = true) := by
  have hL : slideLibs.Accurate := by
    refine ⟨squareRoot_close, fun R => ?_⟩
    show (1 : M3D).transpose * 1 = 1
    rw [Matrix.transpose_one, Matrix.one_mul]
  have hunit : ∀ inp ∈ slideFrames, inp.UnitNormals := by
    intro inp hinp
    have hscan : ∀ n, ∀ p ∈ (slideFrame 0 n).pg, p.normal ⬝ᵥ p.normal ≤ 1 := by
      intro n p hp
      obtain rfl := List.eq_of_mem_replicate hp
      decide +kernel
    rcases List.mem_append.mp hinp with hinp | hinp
    · rcases List.mem_cons.mp hinp with rfl | hinp
      · exact ⟨hscan 11, fun pw position d leaves hfind => by cases hfind⟩
      · obtain rfl := List.eq_of_mem_replicate hinp
        exact ⟨hscan 1, fun pw position d leaves hfind => by cases hfind⟩
    · obtain rfl := List.eq_of_mem_replicate hinp
      refine ⟨hscan 1, fun pw position d leaves hfind _ => ?_⟩
      cases hfind
      decide +kernel
  -- one evaluation of the run for everything that is read off it
  have hturns : (slideTurns slideFrames).1.map (fun x => x.post.points.map fun pt =>
        (pt.obs.length, pt.hasRefPatch, pt.isConverged)) =
      [[(1, false, false)], [(2, true, false)], [(3, true, false)], [(4, true, false)],
        [(5, true, false)], [(6, true, false)], [(7, true, false)], [(8, true, false)],
        [(9, true, false)], [(10, true, false)], [(11, true, true)], [(1, true, true)]] ∧
      (∀ x ∈ (slideTurns slideFrames).1, ∀ d ∈ x.post.denoms, d ≠ 0) ∧
      0 < (slideTurns slideFrames).2.points.length := by
    decide +kernel
  obtain ⟨hshape, hdenoms, hlen⟩ := hturns
  have hrun : Exec (frameStep slideLibs slideConfig) {} _ (slideTurns slideFrames).2 :=
    Exec.of_trace _ _
  have hmem : (slideTurns slideFrames).2.InFeatMap _ :=
    (inFeatMap_iff hrun).mpr (List.getElem_mem hlen)
  exact ⟨hshape, _, hmem, observations_of_run hL hrun
    (fun x hx => hunit _ (event_mem_of_trace hx)) hdenoms hmem⟩

end VIOManager

end FastLivo2
