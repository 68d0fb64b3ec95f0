import FastLivo2.VisualObs

/-!
# The score of an observation

What `updateReferencePatch` does to one point.  It writes means and scores into the observations,
which are otherwise the same; the reference stays or becomes one of them.

A score is the mean of correlations, each an absolute value, and of the cosine of the viewing angle.
When no correlation divides by zero the score is therefore a number, and at least that cosine; with
normals of length at most one it is above the starting value of the maximum, so the first
observation already becomes the reference (`rescore_hasRefPatch`).
-/

namespace FastLivo2

/-! ## The viewing angle -/

/-- Two vectors of length at most two and one. -/
lemma neg_two_le_dotProduct {u w : V3D} (hu : u ⬝ᵥ u ≤ 4) (hw : w ⬝ᵥ w ≤ 1) : -2 ≤ u ⬝ᵥ w := by
  have hcs : (u ⬝ᵥ w) ^ 2 ≤ (u ⬝ᵥ u) * (w ⬝ᵥ w) := by
    have hsum := Finset.sum_mul_sq_le_sq_mul_sq Finset.univ u w
    simpa only [dotProduct, pow_two] using hsum
  have hww : 0 ≤ w ⬝ᵥ w := Finset.sum_nonneg fun k _ => mul_self_nonneg (w k)
  have hle : (u ⬝ᵥ w) ^ 2 ≤ 2 ^ 2 := by
    calc (u ⬝ᵥ w) ^ 2 ≤ (u ⬝ᵥ u) * (w ⬝ᵥ w) := hcs
      _ ≤ 4 * 1 := mul_le_mul hu hw hww (by norm_num)
      _ = 2 ^ 2 := by norm_num
  exact (abs_le.mp (abs_le_of_sq_le_sq hle (by norm_num))).1

/-- A normalised vector is at most twice too long, if the square root is at most twice too small. -/
lemma normalized_dotProduct_self_le {m : Libm} (hsqrt : ∀ x, 0 < x → x ≤ 4 * (m.sqrt x) ^ 2)
    (v : V3D) : V3D.normalized m v ⬝ᵥ V3D.normalized m v ≤ 4 := by
  unfold V3D.normalized
  split_ifs with hv
  · have hs : 0 < (m.sqrt (v ⬝ᵥ v)) ^ 2 := by nlinarith [hsqrt _ hv]
    rw [smul_dotProduct, dotProduct_smul, smul_eq_mul, smul_eq_mul]
    calc 1 / m.sqrt (v ⬝ᵥ v) * (1 / m.sqrt (v ⬝ᵥ v) * (v ⬝ᵥ v))
        = v ⬝ᵥ v / (m.sqrt (v ⬝ᵥ v)) ^ 2 := by ring
      _ ≤ 4 := (div_le_iff₀ hs).mpr (hsqrt _ hv)
  · have hzero : v ⬝ᵥ v ≤ 4 := (not_lt.mp hv).trans (by norm_num)
    exact hzero

/-- A rotation keeps lengths. -/
lemma mulVec_dotProduct_self {R : M3D} (hR : R.transpose * R = 1) (n : V3D) :
    R.mulVec n ⬝ᵥ R.mulVec n = n ⬝ᵥ n := by
  rw [Matrix.dotProduct_mulVec, ← Matrix.mulVec_transpose, Matrix.mulVec_mulVec, hR,
    Matrix.one_mulVec]

namespace VIOManager

variable {L : VioLibs} {cfg : VioConfig} {inp : FrameInput}

/-- A cosine computed with a normal of length at most one is far above the starting maximum. -/
lemma neg_two_le_cosAngle (hsqrt : ∀ x, 0 < x → x ≤ 4 * (L.sqrt x) ^ 2) {pt : VisualPoint}
    {ftr : Feature} (hnormal : pt.normal ⬝ᵥ pt.normal ≤ 1)
    (hrot : ftr.tFW.rot.transpose * ftr.tFW.rot = 1) : -2 ≤ cosAngle L pt ftr := by
  refine neg_two_le_dotProduct (normalized_dotProduct_self_le hsqrt _) ?_
  rw [mulVec_dotProduct_self hrot]
  exact hnormal

/-! ## One correlation -/

lemma localMean_core (x : ℚ) (ftr : Feature) : (localMean cfg x ftr).2.core = ftr.core := by
  unfold localMean
  split_ifs <;> rfl

/-- An observation of the same frame is passed over; another is correlated. -/
lemma correlate_cases (L : VioLibs) (cfg : VioConfig) (ftr : Feature) (refMean : ℚ)
    (acc : Correlation) (j : ℕ) :
    ((∀ g, acc.obs[j]? = some g → g.id = ftr.id) ∧ correlate L cfg ftr refMean acc j = acc) ∨
    ∃ g g' up d, acc.obs[j]? = some g ∧ g'.core = g.core ∧
      (correlate L cfg ftr refMean acc j).obs = acc.obs.set j g' ∧
      (correlate L cfg ftr refMean acc j).ncc =
        (do let ncc ← acc.ncc
            let q ← Flt.div up d
            pure (ncc + |q|)) ∧
      (correlate L cfg ftr refMean acc j).count = acc.count + 1 ∧
      (correlate L cfg ftr refMean acc j).denoms = acc.denoms ++ [d] := by
  unfold correlate
  cases hg : acc.obs[j]? with
  | none => exact .inl ⟨by simp, rfl⟩
  | some g =>
      by_cases hid : g.id = ftr.id
      · exact .inl ⟨by simp [hid], if_pos hid⟩
      · simp only [if_neg hid]
        exact .inr ⟨g, _, _, _, rfl, localMean_core _ _, rfl, rfl, trivial, rfl⟩

/-- What the correlations of one observation amount to. -/
structure Correlated (ftr : Feature) (cores : List Feature) (c : Correlation) : Prop where
  cores_eq : c.obs.map Feature.core = cores
  ncc_nonneg : (∀ d ∈ c.denoms, d ≠ 0) → ∃ q, 0 ≤ q ∧ c.ncc = some q
  count_pos : (∃ g ∈ cores, g.id ≠ ftr.id) → 0 < c.count

lemma correlated_fold (L : VioLibs) (cfg : VioConfig) (ftr : Feature) (refMean : ℚ)
    (obs : List Feature) :
    Correlated ftr (obs.map Feature.core)
      ((List.range obs.length).foldl (correlate L cfg ftr refMean) { obs := obs }) := by
  have hrule := foldl_rule (f := correlate L cfg ftr refMean) (P := fun l (acc : Correlation) =>
    acc.obs.map Feature.core = obs.map Feature.core ∧
    ((∀ d ∈ acc.denoms, d ≠ 0) → ∃ q, 0 ≤ q ∧ acc.ncc = some q) ∧
    ((∃ j ∈ l, ∃ g, (obs.map Feature.core)[j]? = some g ∧ g.id ≠ ftr.id) ∨ 0 < acc.count ∨
      ∀ g ∈ obs.map Feature.core, g.id = ftr.id)) ?_ (l := List.range obs.length)
    (s := { obs := obs }) ⟨rfl, fun _ => ⟨0, le_rfl, rfl⟩, ?_⟩
  · obtain ⟨hcores, hncc, hcount⟩ := hrule
    refine ⟨hcores, hncc, ?_⟩
    rintro ⟨g, hg, hid⟩
    rcases hcount with ⟨j, hj, -⟩ | hpos | hall
    · cases hj
    · exact hpos
    · exact absurd (hall g hg) hid
  · rintro j l acc ⟨hcores, hncc, hcount⟩
    rcases correlate_cases L cfg ftr refMean acc j with
      ⟨hsame, heq⟩ | ⟨g, g', up, d, hg, hcore, hobs, hnew, hn, hd⟩
    · rw [heq]
      refine ⟨hcores, hncc, ?_⟩
      rcases hcount with ⟨k, hk, f, hf, hid⟩ | hpos | hall
      · rcases List.mem_cons.mp hk with rfl | hk
        · rw [← hcores, List.getElem?_map, Option.map_eq_some_iff] at hf
          obtain ⟨f', hf', rfl⟩ := hf
          exact absurd (hsame f' hf') hid
        · exact .inl ⟨k, hk, f, hf, hid⟩
      · exact .inr (.inl hpos)
      · exact .inr (.inr hall)
    · refine ⟨by rw [hobs, map_core_set hg hcore, hcores], fun hne => ?_, .inr (.inl ?_)⟩
      · rw [hd] at hne
        obtain ⟨q, hq, hsome⟩ := hncc fun x hx => hne x (List.mem_append_left _ hx)
        have hd0 : d ≠ 0 := hne d (by simp)
        refine ⟨q + |up / d|, add_nonneg hq (abs_nonneg _), ?_⟩
        rw [hnew, hsome]
        simp [Flt.div, hd0]
      · rw [hn]
        omega
  · by_cases hall : ∀ g ∈ obs.map Feature.core, g.id = ftr.id
    · exact .inr (.inr hall)
    · push Not at hall
      obtain ⟨g, hg, hid⟩ := hall
      obtain ⟨j, hj, hget⟩ := List.mem_iff_getElem.mp hg
      refine .inl ⟨j, by simpa using hj, g, ?_, hid⟩
      rw [List.getElem?_eq_getElem hj, hget]

/-- A score is a number, and at least the cosine, when no correlation divides by zero. -/
lemma Correlated.score_ge {ftr : Feature} {cores : List Feature} {c : Correlation}
    (h : Correlated ftr cores c) (hd : ∀ d ∈ c.denoms, d ≠ 0)
    (hother : ∃ g ∈ cores, g.id ≠ ftr.id) (cos : ℚ) : ∃ q, cos ≤ q ∧ c.score cos = some q := by
  obtain ⟨q, hq, hncc⟩ := h.ncc_nonneg hd
  have hcount : (c.count : ℚ) ≠ 0 := by
    have hpos := h.count_pos hother
    positivity
  refine ⟨q / c.count + cos, ?_, ?_⟩
  · have hdiv : 0 ≤ q / c.count := by positivity
    linarith
  · simp [Correlation.score, hncc, Flt.div, hcount]

/-! ## The loop over the observations -/

/-- The observation at a place of the list is scored, and compared with the best so far. -/
lemma scoreFeature_of_getElem? (L : VioLibs) (cfg : VioConfig) {acc : Scoring} {i : ℕ}
    {ftr : Feature} (h : acc.pt.obs[i]? = some ftr) :
    ∃ (ftr' : Feature) (obs : List Feature) (c : Correlation), ftr'.core = ftr.core ∧
      obs.map Feature.core = acc.pt.cores ∧ Correlated ftr' acc.pt.cores c ∧
      scoreFeature L cfg acc i =
        match c.score (cosAngle L acc.pt ftr') with
        | none =>
            { acc with
              pt := { acc.pt with obs := obs }
              denoms := acc.denoms ++ c.denoms }
        | some score =>
            if acc.scoreMax < score then
              { pt := { acc.pt with obs := obs }.setRef ftr'
                scoreMax := score
                denoms := acc.denoms ++ c.denoms }
            else
              { acc with
                pt := { acc.pt with obs := obs }
                denoms := acc.denoms ++ c.denoms } := by
  unfold scoreFeature
  rw [h]
  dsimp only
  have hmean : (localMean cfg (L.indeterminate ftr ftr) ftr).2.core = ftr.core :=
    localMean_core _ ftr
  generalize localMean cfg (L.indeterminate ftr ftr) ftr = m at hmean
  have hset : (acc.pt.obs.set i m.2).map Feature.core = acc.pt.cores := map_core_set h hmean
  have hc := correlated_fold L cfg m.2 m.1 (acc.pt.obs.set i m.2)
  rw [hset, List.length_set] at hc
  generalize hfold : (List.range acc.pt.obs.length).foldl (correlate L cfg m.2 m.1)
    { obs := acc.pt.obs.set i m.2 } = c at hc
  refine ⟨m.2, c.obs.set i { m.2 with score := c.score (cosAngle L acc.pt m.2) }, c, hmean, ?_, hc,
    by subst hfold; rfl⟩
  -- the place written to still holds the feature it was read from
  have hget : (c.obs.map Feature.core)[i]? = some ftr.core := by
    rw [hc.cores_eq, VisualPoint.cores, List.getElem?_map, h, Option.map_some]
  rw [List.getElem?_map, Option.map_eq_some_iff] at hget
  obtain ⟨g, hg, hgcore⟩ := hget
  rw [map_core_set hg, hc.cores_eq]
  rw [hgcore, ← hmean]
  rfl

/-- What scoring leaves of a point: the same observations but for their scores, and a reference that
stays or is one of them. -/
structure Rescored (pt q : VisualPoint) : Prop where
  cores : q.cores = pt.cores
  normal : q.normal = pt.normal
  isConverged : q.isConverged = pt.isConverged
  ref : (q.refPatch = pt.refPatch ∧ q.hasRefPatch = pt.hasRefPatch) ∨
    (q.hasRefPatch = true ∧ ∃ addr ∈ pt.addrs, q.refPatch = .to addr)

lemma Rescored.scoreFeature {pt : VisualPoint} {acc : Scoring} (h : Rescored pt acc.pt) (i : ℕ) :
    Rescored pt (scoreFeature L cfg acc i).pt := by
  cases hget : acc.pt.obs[i]? with
  | none =>
      have hsame : VIOManager.scoreFeature L cfg acc i = acc := by
        simp [VIOManager.scoreFeature, hget]
      rwa [hsame]
  | some ftr =>
      obtain ⟨ftr', obs, c, hcore, hobs, -, heq⟩ := scoreFeature_of_getElem? L cfg hget
      have hkeep : Rescored pt { acc.pt with obs := obs } :=
        ⟨hobs.trans h.cores, h.normal, h.isConverged, h.ref⟩
      have hmem : ftr'.addr ∈ pt.addrs := by
        have hin : ftr.core ∈ acc.pt.cores :=
          List.mem_map_of_mem (List.mem_of_getElem? hget)
        have haddr : ftr'.core.addr ∈ acc.pt.cores.map Feature.addr :=
          List.mem_map_of_mem (hcore ▸ hin)
        rwa [h.cores, ← VisualPoint.addrs_eq_map_cores] at haddr
      rw [heq]
      split
      · exact hkeep
      · split_ifs
        · exact ⟨hkeep.cores, hkeep.normal, hkeep.isConverged, .inr ⟨rfl, _, hmem, rfl⟩⟩
        · exact hkeep

/-! ## The normal -/

/-- The normal stays, or becomes that of the plane the point lies on, turned or not; a point may
converge then if it has more than ten observations. -/
lemma refineNormal_cases (L : VioLibs) (inp : FrameInput) (pt : VisualPoint) :
    refineNormal L inp pt = pt ∨
    ∃ d leaves normal conv,
      VoxelOctoTree.findCorrespond pt.pos (inp.planeMap (referenceLocation pt.pos)) =
        .node d leaves ∧ d.plane.isPlane = true ∧
      (normal = d.plane.normal ∨ normal = -d.plane.normal) ∧
      refineNormal L inp pt =
        { pt with normal := normal, previousNormal := normal, isConverged := conv } := by
  unfold refineNormal
  split
  · exact .inl rfl
  · rename_i d leaves hfind
    by_cases hplane : d.plane.isPlane = true
    · dsimp only
      split_ifs
      · exact .inr ⟨d, leaves, _, _, hfind, hplane, .inr rfl, rfl⟩
      · exact .inr ⟨d, leaves, _, _, hfind, hplane, .inl rfl, rfl⟩
      · exact .inl rfl
    · exact .inl (if_neg fun h => hplane h.1)

@[simp] lemma refineNormal_obs (pt : VisualPoint) : (refineNormal L inp pt).obs = pt.obs := by
  rcases refineNormal_cases L inp pt with h | ⟨_, _, _, _, -, -, -, h⟩ <;> rw [h]

@[simp] lemma refineNormal_refPatch (pt : VisualPoint) :
    (refineNormal L inp pt).refPatch = pt.refPatch := by
  rcases refineNormal_cases L inp pt with h | ⟨_, _, _, _, -, -, -, h⟩ <;> rw [h]

@[simp] lemma refineNormal_hasRefPatch (pt : VisualPoint) :
    (refineNormal L inp pt).hasRefPatch = pt.hasRefPatch := by
  rcases refineNormal_cases L inp pt with h | ⟨_, _, _, _, -, -, -, h⟩ <;> rw [h]

lemma rescore_rescored (L : VioLibs) (cfg : VioConfig) (inp : FrameInput) (pt : VisualPoint) :
    Rescored (refineNormal L inp pt) (rescore L cfg inp pt).pt := by
  refine foldl_invariant (I := fun acc : Scoring => Rescored (refineNormal L inp pt) acc.pt)
    (fun i acc h => h.scoreFeature i) _ ?_
  exact ⟨rfl, rfl, rfl, .inl ⟨rfl, rfl⟩⟩

lemma rescore_cores (L : VioLibs) (cfg : VioConfig) (inp : FrameInput) (pt : VisualPoint) :
    (rescore L cfg inp pt).pt.cores = pt.cores := by
  rw [(rescore_rescored L cfg inp pt).cores, VisualPoint.cores, refineNormal_obs, VisualPoint.cores]

/-- What scoring does to the reference. -/
lemma rescore_ref (L : VioLibs) (cfg : VioConfig) (inp : FrameInput) (pt : VisualPoint) :
    ((rescore L cfg inp pt).pt.refPatch = pt.refPatch ∧
      (rescore L cfg inp pt).pt.hasRefPatch = pt.hasRefPatch) ∨
    ((rescore L cfg inp pt).pt.hasRefPatch = true ∧
      ∃ addr ∈ pt.addrs, (rescore L cfg inp pt).pt.refPatch = .to addr) := by
  have href := (rescore_rescored L cfg inp pt).ref
  rwa [refineNormal_refPatch, refineNormal_hasRefPatch, VisualPoint.addrs, refineNormal_obs] at href

/-- With two observations of different frames, each has one of another frame. -/
lemma exists_other_frame {pt : VisualPoint} (hlen : 1 < pt.obs.length) (hids : pt.ids.Nodup)
    (ftr : Feature) : ∃ g ∈ pt.cores, g.id ≠ ftr.id := by
  by_contra hall
  push Not at hall
  have hrep : pt.ids = List.replicate pt.ids.length ftr.id := by
    refine List.eq_replicate_iff.mpr ⟨rfl, fun id hid => ?_⟩
    rw [VisualPoint.ids_eq_map_cores] at hid
    obtain ⟨g, hg, rfl⟩ := List.mem_map.mp hid
    exact hall g hg
  have hle : pt.ids.length ≤ 1 := List.nodup_replicate.mp (hrep ▸ hids)
  rw [VisualPoint.ids, List.length_map] at hle
  omega

/-- An observation that is scored becomes the reference while the maximum is the starting one. -/
lemma Rescored.hasRefPatch (hsqrt : ∀ x, 0 < x → x ≤ 4 * (L.sqrt x) ^ 2) {pt : VisualPoint}
    (hnormal : pt.normal ⬝ᵥ pt.normal ≤ 1)
    (hrot : ∀ ftr ∈ pt.cores, ftr.tFW.rot.transpose * ftr.tFW.rot = 1)
    (hother : ∀ ftr : Feature, ∃ g ∈ pt.cores, g.id ≠ ftr.id) {acc : Scoring} {i : ℕ}
    {ftr : Feature} (hres : Rescored pt acc.pt) (hget : acc.pt.obs[i]? = some ftr)
    (hacc : (∀ d ∈ acc.denoms, d ≠ 0) → acc.pt.hasRefPatch = true ∨ acc.scoreMax = -1000)
    (hne : ∀ d ∈ (VIOManager.scoreFeature L cfg acc i).denoms, d ≠ 0) :
    (VIOManager.scoreFeature L cfg acc i).pt.hasRefPatch = true := by
  obtain ⟨ftr', obs, c, hcore, -, hcorr, heq⟩ := scoreFeature_of_getElem? L cfg hget
  have hdenoms : (VIOManager.scoreFeature L cfg acc i).denoms = acc.denoms ++ c.denoms := by
    rw [heq]
    split
    · rfl
    · split_ifs <;> rfl
  rw [hdenoms] at hne
  obtain ⟨score, hscore, hsome⟩ := hcorr.score_ge
    (fun d hmem => hne d (List.mem_append_right _ hmem))
    (by rw [hres.cores]; exact hother ftr') (cosAngle L acc.pt ftr')
  have hmem : ftr'.core ∈ pt.cores := by
    rw [hcore, ← hres.cores]
    exact List.mem_map_of_mem (List.mem_of_getElem? hget)
  have hcos : -2 ≤ cosAngle L acc.pt ftr' :=
    neg_two_le_cosAngle hsqrt (hres.normal ▸ hnormal) (hrot ftr'.core hmem)
  rw [heq, hsome]
  show (ite _ _ _ : Scoring).pt.hasRefPatch = true
  split_ifs with hbest
  · rfl
  · rcases hacc fun d hmem => hne d (List.mem_append_left _ hmem) with hhas | hmax
    · exact hhas
    · -- the cosine is above the starting maximum
      rw [hmax] at hbest
      linarith

/-- **A reference is found.**  A point with two observations has one once they are scored, when no
correlation divides by zero. -/
theorem rescore_hasRefPatch (hsqrt : ∀ x, 0 < x → x ≤ 4 * (L.sqrt x) ^ 2) {pt : VisualPoint}
    (hnormal : (refineNormal L inp pt).normal ⬝ᵥ (refineNormal L inp pt).normal ≤ 1)
    (hrot : ∀ ftr ∈ pt.cores, ftr.tFW.rot.transpose * ftr.tFW.rot = 1)
    (hlen : 1 < pt.obs.length) (hids : pt.ids.Nodup)
    (hd : ∀ d ∈ (rescore L cfg inp pt).denoms, d ≠ 0) :
    (rescore L cfg inp pt).pt.hasRefPatch = true := by
  have hcores : (refineNormal L inp pt).cores = pt.cores := by
    rw [VisualPoint.cores, refineNormal_obs, VisualPoint.cores]
  have hrule := foldl_rule (f := VIOManager.scoreFeature L cfg) (P := fun l (acc : Scoring) =>
    Rescored (refineNormal L inp pt) acc.pt ∧ ((∀ d ∈ acc.denoms, d ≠ 0) →
      acc.pt.hasRefPatch = true ∨ (acc.scoreMax = -1000 ∧ 0 ∈ l))) ?_
    (l := List.range (refineNormal L inp pt).obs.length) (s := { pt := refineNormal L inp pt })
    ⟨⟨rfl, rfl, rfl, .inl ⟨rfl, rfl⟩⟩, fun _ => .inr ⟨rfl, ?_⟩⟩
  · rcases hrule.2 hd with hhas | ⟨-, hnil⟩
    · exact hhas
    · cases hnil
  · rintro i l acc ⟨hres, hacc⟩
    refine ⟨hres.scoreFeature i, fun hne => ?_⟩
    cases hget : acc.pt.obs[i]? with
    | none =>
        have hsame : scoreFeature L cfg acc i = acc := by simp [scoreFeature, hget]
        have hi : i ≠ 0 := by
          rintro rfl
          have hlen0 : acc.pt.obs.length = pt.obs.length := by
            rw [VisualPoint.length_eq_length_cores, hres.cores, hcores,
              ← VisualPoint.length_eq_length_cores]
          have hle := List.getElem?_eq_none_iff.mp hget
          omega
        rw [hsame] at hne ⊢
        rcases hacc hne with hhas | ⟨hmax, hmem⟩
        · exact .inl hhas
        · exact .inr ⟨hmax, (List.mem_cons.mp hmem).resolve_left hi.symm⟩
    | some ftr =>
        rw [← hcores] at hrot
        have hother : ∀ ftr : Feature, ∃ g ∈ (refineNormal L inp pt).cores, g.id ≠ ftr.id := by
          rw [hcores]
          exact exists_other_frame hlen hids
        exact .inl (hres.hasRefPatch hsqrt hnormal hrot hother hget
          (fun h => (hacc h).imp_right And.left) hne)
  · rw [refineNormal_obs]
    exact List.mem_range.mpr (by omega)

end VIOManager

end FastLivo2
