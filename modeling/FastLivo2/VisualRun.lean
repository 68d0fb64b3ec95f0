import FastLivo2.Lib.Exec
import FastLivo2.VisualRetrieval

/-!
# Runs of visual frames

One rule carries every invariant of a visual point over a frame.  A `PointRule` says that a
property survives whatever a frame can do to a point: a reference is chosen, the point is born, a
converged point is pruned, a point loses an observation and may gain one, a point is scored.
`PointRule.processFrame` concludes that the property survives the frame; the passes over the cells
and over the submap are followed there once and for all.

`points_wf` is its first use: after any frames, in any configuration, every point is well formed.
-/

namespace FastLivo2

namespace VIOManager

variable {L : VioLibs} {cfg : VioConfig} {inp : FrameInput} {s : StatesGroup} {v w : VIOManager}

/-! ## The filter update -/

/-- The update moves the camera and writes the gain; the map stays. -/
lemma update_cases {e : VisualEkf} (h : computeJacobianAndUpdateEKF L cfg inp v = .ok (w, e))
    (hrot : ∃ R, v.newFrame.tFW.rot = L.toRotation R) :
    ∃ tFW G HTH, (∃ R, tFW.rot = L.toRotation R) ∧
      w = { v with newFrame := { v.newFrame with tFW := tFW }, G := G, HTH := HTH } := by
  unfold computeJacobianAndUpdateEKF at h
  dsimp only at h
  by_cases htotal : v.totalPoints = 0
  · rw [if_pos htotal] at h
    obtain ⟨rfl, -⟩ : v = w ∧ _ = e := by simpa using h
    exact ⟨v.newFrame.tFW, v.G, v.HTH, hrot, rfl⟩
  · rw [if_neg htotal] at h
    obtain ⟨e', -, h⟩ := vio_bind_eq_ok.mp h
    obtain ⟨rfl, -⟩ : _ = w ∧ _ = e := by simpa [pure, Except.pure] using h
    exact ⟨_, _, _, ⟨_, rfl⟩, rfl⟩

/-! ## The calls of a frame -/

/-- The calls a frame makes up to the new observations; the filter update moves the camera and
writes the gain. -/
lemma middleFrame_calls {e : VisualEkf} (h : middleFrame L cfg inp v = .ok (w, e)) :
    ∃ v₁ tFW G HTH, beginFrame L cfg inp v = .ok v₁ ∧
      (∃ v₂, computeJacobianAndUpdateEKF L cfg inp v₁ = .ok (v₂, e)) ∧
      (∃ R, tFW.rot = L.toRotation R) ∧
      generateVisualMapPoints L cfg inp e.state
        { v₁ with newFrame := { v₁.newFrame with tFW := tFW }, G := G, HTH := HTH } = .ok w := by
  obtain ⟨v₁, hbegin, h⟩ := vio_bind_eq_ok.mp h
  obtain ⟨⟨v₂, e'⟩, hupdate, h⟩ := vio_bind_eq_ok.mp h
  obtain ⟨v₃, hgen, h⟩ := vio_bind_eq_ok.mp h
  obtain ⟨rfl, rfl⟩ : v₃ = w ∧ e' = e := by simpa [pure, Except.pure] using h
  obtain ⟨tFW, G, HTH, hrot, rfl⟩ := update_cases hupdate (beginFrame_begun hbegin).rot
  exact ⟨v₁, tFW, G, HTH, hbegin, ⟨_, hupdate⟩, hrot, hgen⟩

/-- The calls a frame makes. -/
lemma processFrame_calls {e : VisualEkf} (h : processFrame L cfg inp v = .ok (w, e)) :
    ∃ v₁ v₂, middleFrame L cfg inp v = .ok (v₁, e) ∧
      updateVisualMapPoints L cfg inp e.state v₁ = .ok v₂ ∧
      updateReferencePatch L cfg inp v₂ = .ok w := by
  obtain ⟨⟨v₁, e₁⟩, hmiddle, h⟩ := vio_bind_eq_ok.mp h
  obtain ⟨v₂, hupdate, h⟩ := vio_bind_eq_ok.mp h
  obtain ⟨v₃, href, h⟩ := vio_bind_eq_ok.mp h
  obtain ⟨rfl, rfl⟩ : v₃ = w ∧ e₁ = e := by simpa [pure, Except.pure] using h
  exact ⟨v₁, v₂, hmiddle, hupdate, href⟩

/-! ## New points -/

/-- What a candidate leaves in the cells is a candidate. -/
lemma candidate_forall {C : PointWithVar → Prop} {frame : Frame} {grid grid' : Grid}
    {p : PointWithVar} (hp : C p) (hgrid : ∀ i, C (grid.appendVoxelPoints i))
    (h : candidate L cfg inp frame grid p = .ok grid') : ∀ i, C (grid'.appendVoxelPoints i) := by
  unfold candidate at h
  dsimp only at h
  split_ifs at h with hin
  · obtain ⟨index, -, h⟩ := vio_bind_eq_ok.mp h
    split_ifs at h
    · obtain rfl := Except.ok.inj h
      exact hgrid
    · obtain rfl := Except.ok.inj h
      intro i
      show C (ite _ _ _)
      split_ifs
      · exact hp
      · exact hgrid i
    · obtain rfl := Except.ok.inj h
      exact hgrid
  · obtain rfl := Except.ok.inj h
    exact hgrid

lemma candidates_forall {C : PointWithVar → Prop} {frame : Frame} {grid grid' : Grid}
    {ps : List PointWithVar} (hps : ∀ p ∈ ps, C p) (hgrid : ∀ i, C (grid.appendVoxelPoints i))
    (h : ps.foldlM (candidate L cfg inp frame) grid = .ok grid') :
    ∀ i, C (grid'.appendVoxelPoints i) :=
  foldlM_invariant (I := fun g : Grid => ∀ i, C (g.appendVoxelPoints i))
    (fun p hp _ _ hg hstep => candidate_forall (hps p hp) hg hstep) h hgrid

/-- A cell leaves the manager as it is, or gives it a point with one observation. -/
lemma generateCell_cases (L : VioLibs) (cfg : VioConfig) (inp : FrameInput) (s : StatesGroup)
    (v : VIOManager) (i : ℕ) :
    generateCell L cfg inp s v i = v ∨
    generateCell L cfg inp s v i =
      { v with
        points := v.points ++ [newPoint L cfg inp s v (v.grid.appendVoxelPoints i)]
        featMap := v.featMap.push
          (insertLocation (newPoint L cfg inp s v (v.grid.appendVoxelPoints i)).pos)
          v.points.length
        nextFtr := v.nextFtr + 1
        nextBuf := v.nextBuf + 1
        liveBufs := insert v.nextBuf v.liveBufs } := by
  unfold generateCell
  split_ifs
  · exact .inr rfl
  · exact .inl rfl

/-- The new points come out of one loop over the cells, once the candidates are placed. -/
lemma generate_cases (h : generateVisualMapPoints L cfg inp s v = .ok w) :
    w = v ∨ ∃ grid, (∀ C : PointWithVar → Prop, (∀ p ∈ inp.pg, C p) →
        (∀ p ∈ v.submap.addFromVoxelMap, C p) → (∀ i, C (v.grid.appendVoxelPoints i)) →
        ∀ i, C (grid.appendVoxelPoints i)) ∧
      w = (List.range (cfg.length L.cam)).foldl (generateCell L cfg inp s)
        { v with grid := grid } := by
  unfold generateVisualMapPoints at h
  split_ifs at h
  · exact .inl (Except.ok.inj h).symm
  · obtain ⟨grid₁, h₁, h⟩ := vio_bind_eq_ok.mp h
    obtain ⟨grid₂, h₂, h⟩ := vio_bind_eq_ok.mp h
    refine .inr ⟨grid₂, fun C hpg hadd hgrid => ?_, (Except.ok.inj h).symm⟩
    refine candidates_forall hadd (candidates_forall (fun p hp => ?_) hgrid h₁) h₂
    exact hpg p (List.mem_filter.mp hp).1

/-! ## New observations -/

variable (L) in
/-- A feature taken in the frame `frame`, the `n`-th of all. -/
structure Taken (frame : ℕ) (n : ℕ) (ftr : Feature) : Prop where
  addr : ftr.addr = n
  id : ftr.id = frame
  rot : ∃ R, ftr.tFW.rot = L.toRotation R

/-- A point of the submap is pruned when it has converged; else it may lose an observation, and
gains one when it is seen anew. -/
lemma observe_cases {e : SubEntry × ℕ} (h : observe L cfg inp s v e = .ok w) :
    ∃ pt, v.points[e.1.point]? = some pt ∧
      ((pt.isConverged = true ∧
        w = (v.setPoint e.1.point pt.deleteNonRefPatchFeatures.1).freeBufs
          pt.deleteNonRefPatchFeatures.2) ∨
      (pt.isConverged = false ∧ ∃ lastFeature pt' freed, pt.obs.getLast? = some lastFeature ∧
        evict pt = .ok (pt', freed) ∧
        ((addFlag L v.newFrame (v.newFrame.w2c L pt.pos) lastFeature ∧ ∃ grid,
            w = { v.allocBuf.freeBufs freed with
              nextFtr := v.nextFtr + 1
              grid := grid
              points := v.points.set e.1.point (pt'.addFrameRef (newFeature L cfg inp s v
                (v.newFrame.w2c L pt.pos) e.1.searchLevel v.nextBuf)) }) ∨
        (¬addFlag L v.newFrame (v.newFrame.w2c L pt.pos) lastFeature ∧
            w = (v.allocBuf.freeBufs freed).setPoint e.1.point pt')))) := by
  unfold observe at h
  obtain ⟨pt, hpt, h⟩ := vio_bind_eq_ok.mp h
  refine ⟨pt, point_eq_ok.mp hpt, ?_⟩
  by_cases hconv : pt.isConverged = true
  · rw [if_pos hconv] at h
    exact .inl ⟨hconv, (Except.ok.inj h).symm⟩
  · rw [if_neg hconv] at h
    refine .inr ⟨by simpa using hconv, ?_⟩
    dsimp only at h
    split at h
    · cases h
    · rename_i lastFeature hlast
      obtain ⟨r, hevict, h⟩ := vio_bind_eq_ok.mp h
      obtain ⟨pt', freed⟩ := r
      refine ⟨lastFeature, pt', freed, hlast, hevict, ?_⟩
      by_cases hadd : addFlag L v.newFrame (v.newFrame.w2c L pt.pos) lastFeature
      · have hin := (if_pos hadd).symm.trans h
        exact .inl ⟨hadd, _, (Except.ok.inj hin).symm⟩
      · have hout := (if_neg hadd).symm.trans h
        exact .inr ⟨hadd, (Except.ok.inj hout).symm⟩

/-- A point of the submap is scored, or left alone. -/
lemma rescoreEntry_cases {e : SubEntry × ℕ} (h : rescoreEntry L cfg inp v e = .ok w) :
    w = v ∨ ∃ pt, v.points[e.1.point]? = some pt ∧ pt.isConverged = false ∧ 5 < pt.obs.length ∧
      w = { v with
        points := v.points.set e.1.point (rescore L cfg inp pt).pt
        denoms := v.denoms ++ (rescore L cfg inp pt).denoms } := by
  unfold rescoreEntry at h
  obtain ⟨pt, hpt, h⟩ := vio_bind_eq_ok.mp h
  split_ifs at h with hskip
  · exact .inl (Except.ok.inj h).symm
  · push Not at hskip
    exact .inr ⟨pt, point_eq_ok.mp hpt, by simpa using hskip.2.1, hskip.2.2.1,
      (Except.ok.inj h).symm⟩

/-! ## The frame up to the new observations -/

/-- The parts of the manager that are settled before new points are made. -/
structure SameFrame (v w : VIOManager) : Prop where
  newFrame : w.newFrame = v.newFrame
  submap : w.submap = v.submap
  totalPoints : w.totalPoints = v.totalPoints
  frameCounter : w.frameCounter = v.frameCounter

lemma SameFrame.refl (v : VIOManager) : SameFrame v v := ⟨rfl, rfl, rfl, rfl⟩

lemma SameFrame.trans {u : VIOManager} (h : SameFrame u v) (h' : SameFrame v w) :
    SameFrame u w :=
  ⟨h'.newFrame.trans h.newFrame, h'.submap.trans h.submap, h'.totalPoints.trans h.totalPoints,
    h'.frameCounter.trans h.frameCounter⟩

/-- New points are put behind the others. -/
lemma generate_rest (h : generateVisualMapPoints L cfg inp s v = .ok w) :
    SameFrame v w ∧ ∃ new, w.points = v.points ++ new := by
  rcases generate_cases h with rfl | ⟨grid, -, rfl⟩
  · exact ⟨.refl w, [], by simp⟩
  · refine foldl_invariant (I := fun u : VIOManager =>
      SameFrame v u ∧ ∃ new, u.points = v.points ++ new) ?_ _ ⟨⟨rfl, rfl, rfl, rfl⟩, [], by simp⟩
    rintro i u ⟨hsame, new, hnew⟩
    rcases generateCell_cases L cfg inp s u i with heq | heq
    · rw [heq]
      exact ⟨hsame, new, hnew⟩
    · rw [heq]
      refine ⟨hsame.trans ⟨rfl, rfl, rfl, rfl⟩,
        new ++ [newPoint L cfg inp s u (u.grid.appendVoxelPoints i)], ?_⟩
      show u.points ++ _ = _
      rw [hnew, List.append_assoc]

variable (L cfg inp) in
/-- What a frame leaves of the manager `v` before the points of the submap are observed. -/
structure FrameReady (v u : VIOManager) : Prop where
  frameId : u.newFrame.id = v.frameCounter
  frameCounter : u.frameCounter = v.frameCounter + 1
  rot : ∃ R, u.newFrame.tFW.rot = L.toRotation R
  points : ∃ points new, AllReferred cfg v.points points ∧ u.points = points ++ new
  submap : (u.totalPoints = 0 ∧ u.submap = v.submap) ∨
    (u.totalPoints = u.submap.entries.length ∧ (u.submap.entries.map SubEntry.point).Nodup ∧
      (∀ e ∈ u.submap.entries, e.point < v.points.length) ∧
      ∀ p ∈ u.submap.addFromVoxelMap, FromPlane inp p)

lemma middleFrame_ready {e : VisualEkf} (h : middleFrame L cfg inp v = .ok (w, e)) :
    FrameReady L cfg inp v w := by
  obtain ⟨v₁, tFW, G, HTH, hbegin, -, hrot, hgen⟩ := middleFrame_calls h
  have hb := beginFrame_begun hbegin
  obtain ⟨hsame, new, hnew⟩ := generate_rest hgen
  refine ⟨?_, ?_, ?_, ⟨v₁.points, new, hb.referred, hnew⟩, ?_⟩
  · rw [hsame.newFrame]
    exact hb.frameId
  · rw [hsame.frameCounter, hb.rest]
  · rw [hsame.newFrame]
    exact hrot
  · rw [hsame.submap, hsame.totalPoints]
    rcases hb.submap with hstale | ⟨hlen, hok, hcand⟩
    · exact .inl hstale
    · exact .inr ⟨hlen, hok.nodup, fun e he => hb.referred.1 ▸ hok.valid e he, hcand⟩

/-! ## The frame rule -/

/-- A property of a point, under the number of features taken so far, that survives what the frame
numbered `frame` can do to the point before it observes the submap; its candidates satisfy `C`. -/
structure BirthRule (L : VioLibs) (cfg : VioConfig) (inp : FrameInput) (frame : ℕ)
    (C : PointWithVar → Prop) (I : ℕ → VisualPoint → Prop) : Prop where
  mono : ∀ n pt, I n pt → I (n + 1) pt
  refer : cfg.normalEn = true → ∀ n pt ftr, I n pt → ftr ∈ pt.obs → I n (pt.setRef ftr)
  born : ∀ n (s : StatesGroup) (v : VIOManager) p, C p →
    Taken L frame n (newFeature L cfg inp s v (v.newFrame.w2c L p.pointW) 0 v.nextBuf) →
    I (n + 1) (newPoint L cfg inp s v p)

/-- A property that survives all that the frame can do to a point; the denominators the frame
divides by satisfy `D`. -/
structure PointRule (L : VioLibs) (cfg : VioConfig) (inp : FrameInput) (frame : ℕ)
    (C : PointWithVar → Prop) (D : ℚ → Prop) (I : ℕ → VisualPoint → Prop) : Prop
    extends BirthRule L cfg inp frame C I where
  prune : ∀ n pt, I n pt → pt.isConverged = true → I n pt.deleteNonRefPatchFeatures.1
  observe : ∀ n pt pt' freed, I n pt → pt.isConverged = false → evict pt = .ok (pt', freed) →
    (∀ id ∈ pt.ids, id < frame) →
    I n pt' ∧ ∀ ftr, Taken L frame n ftr → I (n + 1) (pt'.addFrameRef ftr)
  rescore : ∀ n pt, I n pt → pt.isConverged = false → 5 < pt.obs.length →
    (∀ d ∈ (rescore L cfg inp pt).denoms, D d) → I n (rescore L cfg inp pt).pt

/-- What a frame's candidates are taken from. -/
structure CandidatesOk (C : PointWithVar → Prop) (inp : FrameInput) (v : VIOManager) : Prop where
  pg : ∀ p ∈ inp.pg, C p
  plane : ∀ p, FromPlane inp p → C p
  empty : C {}
  stale : ∀ p ∈ v.submap.addFromVoxelMap, C p

section Rule

variable {frame : ℕ} {C : PointWithVar → Prop} {D : ℚ → Prop} {I : ℕ → VisualPoint → Prop}

/-- The points the loop over the cells leaves. -/
lemma BirthRule.generate (hI : BirthRule L cfg inp frame C I) (hid : v.newFrame.id = frame)
    (hrot : ∃ R, v.newFrame.tFW.rot = L.toRotation R) (hC : ∀ i, C (v.grid.appendVoxelPoints i))
    (hv : ∀ pt ∈ v.points, I v.nextFtr pt) (cells : List ℕ) :
    ∀ pt ∈ (cells.foldl (generateCell L cfg inp s) v).points,
      I (cells.foldl (generateCell L cfg inp s) v).nextFtr pt := by
  have hfold := foldl_invariant (f := generateCell L cfg inp s) (I := fun u : VIOManager =>
    (u.newFrame.id = frame ∧ (∃ R, u.newFrame.tFW.rot = L.toRotation R) ∧ u.grid = v.grid) ∧
      ∀ pt ∈ u.points, I u.nextFtr pt) ?_ cells ⟨⟨hid, hrot, rfl⟩, hv⟩
  · exact hfold.2
  · rintro i u ⟨⟨hid, hR, hg⟩, hu⟩
    rcases generateCell_cases L cfg inp s u i with heq | heq
    · rw [heq]
      exact ⟨⟨hid, hR, hg⟩, hu⟩
    · rw [heq]
      refine ⟨⟨hid, hR, hg⟩, fun pt hpt => ?_⟩
      rcases List.mem_append.mp hpt with hpt | hpt
      · exact hI.mono _ _ (hu pt hpt)
      · rw [List.mem_singleton.mp hpt, hg]
        exact hI.born _ _ _ _ (hC i) ⟨rfl, hid, hR⟩

/-- The points a frame leaves before the points of the submap are observed. -/
lemma BirthRule.middleFrame (hI : BirthRule L cfg inp v.frameCounter C I)
    (hC : CandidatesOk C inp v) {e : VisualEkf} (h : middleFrame L cfg inp v = .ok (w, e))
    (hv : ∀ pt ∈ v.points, I v.nextFtr pt) : ∀ pt ∈ w.points, I w.nextFtr pt := by
  obtain ⟨v₁, tFW, G, HTH, hbegin, -, hrot, hgen⟩ := middleFrame_calls h
  have hb := beginFrame_begun hbegin
  have hftr : v₁.nextFtr = v.nextFtr := by rw [hb.rest]
  have hpoints : ∀ pt ∈ v₁.points, I v₁.nextFtr pt := by
    rw [hftr]
    exact hb.referred.forall_mem (fun hn => hI.refer hn v.nextFtr) hv
  rcases generate_cases hgen with rfl | ⟨grid, hgrid, rfl⟩
  · exact hpoints
  have hcells : ∀ i, C (grid.appendVoxelPoints i) := by
    refine hgrid C hC.pg ?_ fun i => ?_
    · show ∀ p ∈ v₁.submap.addFromVoxelMap, C p
      rcases hb.submap with ⟨-, hstale⟩ | ⟨-, -, hcand⟩
      · rw [hstale]
        exact hC.stale
      · exact fun p hp => hC.plane p (hcand p hp)
    · show C (v₁.grid.appendVoxelPoints i)
      rw [hb.append]
      exact hC.empty
  refine hI.generate ?_ ?_ ?_ ?_ _
  · exact hb.frameId
  · exact hrot
  · exact hcells
  · exact hpoints

/-- The loop over the points of the submap: the entries ahead are of distinct points, none of which
the frame has observed. -/
structure Observing (L : VioLibs) (I : ℕ → VisualPoint → Prop) (frame : ℕ)
    (es : List (SubEntry × ℕ)) (v : VIOManager) : Prop where
  points : ∀ pt ∈ v.points, I v.nextFtr pt
  frameId : v.newFrame.id = frame
  rot : ∃ R, v.newFrame.tFW.rot = L.toRotation R
  nodup : (es.map fun e => e.1.point).Nodup
  unseen : ∀ e ∈ es, ∃ pt, v.points[e.1.point]? = some pt ∧ ∀ id ∈ pt.ids, id < frame

/-- Replacing the point of the entry at hand leaves the points of the others unseen. -/
lemma Observing.unseen_set {e : SubEntry × ℕ} {es : List (SubEntry × ℕ)}
    (h : Observing L I frame (e :: es) v) (pt : VisualPoint) :
    ∀ e' ∈ es, ∃ q, (v.points.set e.1.point pt)[e'.1.point]? = some q ∧
      ∀ id ∈ q.ids, id < frame := by
  intro e' he'
  obtain ⟨q, hq, hids⟩ := h.unseen e' (List.mem_cons_of_mem e he')
  have hne : e.1.point ≠ e'.1.point := fun hsame =>
    (List.nodup_cons.mp h.nodup).1 (List.mem_map.mpr ⟨e', he', hsame.symm⟩)
  exact ⟨q, by rwa [List.getElem?_set_ne hne], hids⟩

lemma Observing.step (hI : PointRule L cfg inp frame C D I) {e : SubEntry × ℕ}
    {es : List (SubEntry × ℕ)} (h : Observing L I frame (e :: es) v)
    (hw : VIOManager.observe L cfg inp s v e = .ok w) : Observing L I frame es w := by
  have hnodup := (List.nodup_cons.mp h.nodup).2
  have hset : ∀ {n : ℕ} {l : List VisualPoint} {q : VisualPoint}, (∀ pt ∈ l, I n pt) → I n q →
      ∀ pt ∈ l.set e.1.point q, I n pt := by
    intro n l q hl hq pt hpt
    rcases List.mem_or_eq_of_mem_set hpt with hpt | rfl
    · exact hl pt hpt
    · exact hq
  obtain ⟨pt, hpt, hcases⟩ := observe_cases hw
  have hIpt := h.points pt (List.mem_of_getElem? hpt)
  have hids : ∀ id ∈ pt.ids, id < frame := by
    obtain ⟨q, hq, hids⟩ := h.unseen e (by simp)
    obtain rfl : pt = q := by simpa [hpt] using hq
    exact hids
  rcases hcases with ⟨hconv, rfl⟩ | ⟨hconv, last, pt', freed, -, hevict, hcases⟩
  · exact ⟨hset h.points (hI.prune _ _ hIpt hconv), h.frameId, h.rot, hnodup, h.unseen_set _⟩
  · obtain ⟨hpt', hnew⟩ := hI.observe _ _ _ _ hIpt hconv hevict hids
    rcases hcases with ⟨-, grid, rfl⟩ | ⟨-, rfl⟩
    · exact ⟨hset (fun q hq => hI.mono _ _ (h.points q hq)) (hnew _ ⟨rfl, h.frameId, h.rot⟩),
        h.frameId, h.rot, hnodup, h.unseen_set _⟩
    · exact ⟨hset h.points hpt', h.frameId, h.rot, hnodup, h.unseen_set _⟩

lemma map_point_zipIdx (entries : List SubEntry) :
    (entries.zipIdx.map fun e => e.1.point) = entries.map SubEntry.point := by
  conv_rhs => rw [← List.zipIdx_map_fst 0 entries, List.map_map]
  rfl

/-- The points of the submap are distinct and not observed yet when the loop starts. -/
lemma FrameReady.observing (h : FrameReady L cfg inp v w) (htotal : w.totalPoints ≠ 0)
    (hids : ∀ pt ∈ v.points, ∀ id ∈ pt.ids, id < v.frameCounter)
    (hw : ∀ pt ∈ w.points, I w.nextFtr pt) :
    Observing L I v.frameCounter w.submap.entries.zipIdx w := by
  obtain ⟨points, new, hreferred, hpoints⟩ := h.points
  rcases h.submap with ⟨hzero, -⟩ | ⟨-, hnodup, hvalid, -⟩
  · exact absurd hzero htotal
  refine ⟨hw, h.frameId, h.rot, ?_, fun e he => ?_⟩
  · rwa [map_point_zipIdx]
  · have hmem : e.1 ∈ w.submap.entries := List.fst_mem_of_mem_zipIdx he
    have hlt : e.1.point < points.length := hreferred.1 ▸ hvalid e.1 hmem
    obtain ⟨pt, hpt, href⟩ := hreferred.2 _ _ (List.getElem?_eq_getElem hlt)
    refine ⟨points[e.1.point], ?_, ?_⟩
    · rw [hpoints, List.getElem?_append_left hlt, List.getElem?_eq_getElem hlt]
    · rw [VisualPoint.ids, href.obs]
      exact hids pt (List.mem_of_getElem? hpt)

lemma observe_same {e : SubEntry × ℕ} (h : observe L cfg inp s v e = .ok w) : SameFrame v w := by
  obtain ⟨pt, -, hcases⟩ := observe_cases h
  rcases hcases with ⟨-, rfl⟩ | ⟨-, -, -, -, -, -, ⟨-, -, rfl⟩ | ⟨-, rfl⟩⟩ <;>
    exact ⟨rfl, rfl, rfl, rfl⟩

lemma updateVisualMapPoints_same (h : updateVisualMapPoints L cfg inp s v = .ok w) :
    SameFrame v w := by
  unfold updateVisualMapPoints at h
  split_ifs at h
  · obtain rfl := Except.ok.inj h
    exact .refl v
  · exact foldlM_invariant (I := SameFrame v)
      (fun _ _ _ _ hsame hstep => hsame.trans (observe_same hstep)) h (.refl v)

lemma updateReferencePatch_same (h : updateReferencePatch L cfg inp v = .ok w) :
    SameFrame v w := by
  unfold updateReferencePatch at h
  split_ifs at h
  · obtain rfl := Except.ok.inj h
    exact .refl v
  · refine foldlM_invariant (I := SameFrame v) (fun e _ u u' hsame hstep => ?_) h (.refl v)
    rcases rescoreEntry_cases hstep with rfl | ⟨pt, -, -, -, rfl⟩
    · exact hsame
    · exact hsame.trans ⟨rfl, rfl, rfl, rfl⟩

/-- The points the reference update leaves. -/
lemma PointRule.updateReferencePatch (hI : PointRule L cfg inp frame C D I)
    (h : updateReferencePatch L cfg inp v = .ok w) (hv : ∀ pt ∈ v.points, I v.nextFtr pt)
    (hD : ∀ d ∈ w.denoms, D d) : ∀ pt ∈ w.points, I w.nextFtr pt := by
  unfold VIOManager.updateReferencePatch at h
  split_ifs at h
  · obtain rfl := Except.ok.inj h
    exact hv
  refine foldlM_invariant (I := fun u : VIOManager =>
    (∀ d ∈ u.denoms, D d) → ∀ pt ∈ u.points, I u.nextFtr pt) ?_ h (fun _ => hv) hD
  intro e _ u u' hu hstep hD
  rcases rescoreEntry_cases hstep with rfl | ⟨pt, hpt, hconv, hlen, rfl⟩
  · exact hu hD
  have hpre := hu fun d hd => hD d (List.mem_append_left _ hd)
  intro q hq
  rcases List.mem_or_eq_of_mem_set hq with hq | rfl
  · exact hpre q hq
  · exact hI.rescore _ _ (hpre pt (List.mem_of_getElem? hpt)) hconv hlen
      fun d hd => hD d (List.mem_append_right _ hd)

/-- **Frame rule.**  A property of points that survives what a frame can do to a point survives the
frame. -/
theorem PointRule.processFrame (hI : PointRule L cfg inp v.frameCounter C D I)
    (hC : CandidatesOk C inp v) {e : VisualEkf} (h : processFrame L cfg inp v = .ok (w, e))
    (hids : ∀ pt ∈ v.points, ∀ id ∈ pt.ids, id < v.frameCounter) (hD : ∀ d ∈ w.denoms, D d)
    (hv : ∀ pt ∈ v.points, I v.nextFtr pt) : ∀ pt ∈ w.points, I w.nextFtr pt := by
  obtain ⟨v₁, v₂, hmiddle, hupdate, href⟩ := processFrame_calls h
  have hpoints₁ := hI.toBirthRule.middleFrame hC hmiddle hv
  refine hI.updateReferencePatch href ?_ hD
  unfold VIOManager.updateVisualMapPoints at hupdate
  split_ifs at hupdate with htotal
  · obtain rfl := Except.ok.inj hupdate
    exact hpoints₁
  · exact (foldlM_rule (P := Observing L I v.frameCounter)
      (fun _ _ _ _ hobs hstep => hobs.step hI hstep) hupdate
      ((middleFrame_ready hmiddle).observing htotal hids hpoints₁)).points

end Rule

/-- A frame counts itself. -/
lemma processFrame_frameCounter {e : VisualEkf} (h : processFrame L cfg inp v = .ok (w, e)) :
    w.frameCounter = v.frameCounter + 1 := by
  obtain ⟨v₁, v₂, hmiddle, hupdate, href⟩ := processFrame_calls h
  rw [(updateReferencePatch_same href).frameCounter,
    (updateVisualMapPoints_same hupdate).frameCounter, (middleFrame_ready hmiddle).frameCounter]

/-- The manager after a frame with no map to retrieve from and no points to make one of. -/
def afterFew (L : VioLibs) (cfg : VioConfig) (inp : FrameInput) (v : VIOManager) : VIOManager :=
  (updateFrameState L cfg inp.state { v with
    newFrame := { id := v.frameCounter, img := inp.img }
    frameCounter := v.frameCounter + 1
    denoms := [] }).resetGrid

lemma processFrame_few (himg : 0 < inp.img.rows ∧ 0 < inp.img.cols ∧
      inp.img.rows = L.cam.height ∧ inp.img.cols = L.cam.width)
    (hmap : v.featMap.size ≤ 0) (hpg : inp.pg.length ≤ 10) :
    processFrame L cfg inp v =
      .ok (afterFew L cfg inp v, { state := inp.state, G := v.G, HTH := v.HTH }) := by
  let e : VisualEkf := { state := inp.state, G := v.G, HTH := v.HTH }
  have hbegin : beginFrame L cfg inp v = .ok (afterFew L cfg inp v) := by
    unfold beginFrame newFrameOf
    rw [if_pos himg]
    exact if_pos hmap
  have hupdate : computeJacobianAndUpdateEKF L cfg inp (afterFew L cfg inp v) =
      .ok (afterFew L cfg inp v, e) := by
    unfold computeJacobianAndUpdateEKF
    exact if_pos rfl
  have hgenerate : generateVisualMapPoints L cfg inp inp.state (afterFew L cfg inp v) =
      .ok (afterFew L cfg inp v) := if_pos hpg
  have htotal : (afterFew L cfg inp v).totalPoints = 0 := rfl
  generalize afterFew L cfg inp v = w at hbegin hupdate hgenerate htotal ⊢
  have hmiddle : middleFrame L cfg inp v = .ok (w, e) := by
    unfold middleFrame
    rw [hbegin]
    show (computeJacobianAndUpdateEKF L cfg inp w >>= _) = _
    rw [hupdate]
    show (generateVisualMapPoints L cfg inp inp.state w >>= _) = _
    rw [hgenerate]
    rfl
  unfold processFrame
  rw [hmiddle]
  show (updateVisualMapPoints L cfg inp inp.state w >>= _) = _
  unfold updateVisualMapPoints
  rw [if_pos htotal]
  show (updateReferencePatch L cfg inp w >>= _) = _
  unfold updateReferencePatch
  rw [if_pos htotal]
  rfl

/-- The candidates a frame leaves behind are as good as those it found and those it made. -/
lemma CandidatesOk.processFrame {C : PointWithVar → Prop} (hC : CandidatesOk C inp v)
    {e : VisualEkf} (h : processFrame L cfg inp v = .ok (w, e)) :
    ∀ p ∈ w.submap.addFromVoxelMap, C p := by
  obtain ⟨v₁, v₂, hmiddle, hupdate, href⟩ := processFrame_calls h
  rw [(updateReferencePatch_same href).submap, (updateVisualMapPoints_same hupdate).submap]
  rcases (middleFrame_ready hmiddle).submap with ⟨-, hstale⟩ | ⟨-, -, -, hcand⟩
  · rw [hstale]
    exact hC.stale
  · exact fun p hp => hC.plane p (hcand p hp)

/-! ## Well-formed points -/

lemma wf_rule (L : VioLibs) (cfg : VioConfig) (inp : FrameInput) (frame : ℕ) :
    PointRule L cfg inp frame (fun _ => True) (fun _ => True)
      (fun n pt => pt.Wf (frame + 1) n) where
  mono := fun n pt h => h.mono le_rfl (Nat.le_succ n)
  refer := fun _ n pt ftr h hftr => h.setRef hftr
  born := by
    intro n s v p _ htaken
    refine .born rfl rfl rfl ?_ ?_
    · exact htaken.id ▸ Nat.lt_succ_self frame
    · exact htaken.addr ▸ Nat.lt_succ_self n
  prune := fun n pt h _ => h.deleteNonRefPatchFeatures
  observe := by
    intro n pt pt' freed h _ hevict hids
    refine ⟨h.evict hevict, fun ftr htaken => ?_⟩
    refine (h.evict hevict).addFrameRef (VisualPoint.evict_length hevict h.length_le) ?_ ?_
      htaken.addr
    · intro hmem
      have hold := ((VisualPoint.evict_sublist hevict).map Feature.id).subset hmem
      exact absurd (hids _ hold) (by rw [htaken.id]; omega)
    · rw [htaken.id]
      omega
  rescore := fun n pt h _ _ _ => h.of_cores (rescore_cores L cfg inp pt) (rescore_ref L cfg inp pt)

/-- **Well-formed points.**  After any frames, in any configuration. -/
theorem points_wf {tr : List (Turn VIOManager FrameInput VisualEkf)}
    (h : Exec (frameStep L cfg) {} tr v) :
    ∀ pt ∈ v.points, pt.Wf v.frameCounter v.nextFtr := by
  refine (h.invariant (I := fun v : VIOManager =>
    ∀ pt ∈ v.points, pt.Wf v.frameCounter v.nextFtr) (C := fun _ => True)
    (fun pt hpt => by cases hpt) (fun x hx _ hpre => ?_) fun _ _ => trivial).1
  have hframe : processFrame L cfg x.event x.pre = .ok (x.post, x.obs) := hx
  rw [processFrame_frameCounter hframe]
  exact (wf_rule L cfg x.event x.pre.frameCounter).processFrame
    ⟨fun _ _ => trivial, fun _ _ => trivial, trivial, fun _ _ => trivial⟩ hframe
    (fun pt hpt => (hpre pt hpt).ids_lt) (fun _ _ => trivial)
    fun pt hpt => (hpre pt hpt).mono (Nat.le_succ _) le_rfl

/-! ## The map and the heap -/

/-- The points of `feat_map`. -/
def InFeatMap (v : VIOManager) (pt : VisualPoint) : Prop :=
  ∃ position, ∃ i ∈ v.featMap.bucket position, v.points[i]? = some pt

/-- The voxels of the map hold the places of the heap. -/
structure Listed (v : VIOManager) : Prop where
  valid : ∀ position, ∀ i ∈ v.featMap.bucket position, i < v.points.length
  listed : ∀ i, i < v.points.length → ∃ position, i ∈ v.featMap.bucket position

lemma Listed.congr (h : Listed v) (hmap : w.featMap = v.featMap)
    (hlen : w.points.length = v.points.length) : Listed w := by
  refine ⟨?_, ?_⟩
  · rw [hmap, hlen]
    exact h.valid
  · rw [hmap, hlen]
    exact h.listed

lemma mem_bucket_push {m : FeatMap} {position k : VoxelLocation} {i j : ℕ} :
    j ∈ (m.push position i).bucket k ↔ j ∈ m.bucket k ∨ k = position ∧ j = i := by
  unfold FeatMap.bucket FeatMap.push
  by_cases hk : k = position
  · subst hk
    simp [FeatMap.bucket]
  · simp [hk]

lemma Listed.generateCell (h : Listed v) (i : ℕ) : Listed (generateCell L cfg inp s v i) := by
  rcases generateCell_cases L cfg inp s v i with heq | heq
  · rwa [heq]
  rw [heq]
  refine ⟨fun position j hj => ?_, fun j hj => ?_⟩
  · show j < (v.points ++ [_]).length
    rw [List.length_append, List.length_singleton]
    rcases mem_bucket_push.mp hj with hj | ⟨-, rfl⟩
    · exact (h.valid position j hj).trans (Nat.lt_succ_self _)
    · exact Nat.lt_succ_self _
  · rw [List.length_append, List.length_singleton] at hj
    by_cases hold : j < v.points.length
    · obtain ⟨position, hmem⟩ := h.listed j hold
      exact ⟨position, mem_bucket_push.mpr (.inl hmem)⟩
    · exact ⟨_, mem_bucket_push.mpr (.inr ⟨rfl, by omega⟩)⟩

lemma Listed.processFrame (h : Listed v) {e : VisualEkf}
    (hw : processFrame L cfg inp v = .ok (w, e)) : Listed w := by
  obtain ⟨v₁, v₂, hmiddle, hupdate, href⟩ := processFrame_calls hw
  obtain ⟨u, tFW, G, HTH, hbegin, -, -, hgen⟩ := middleFrame_calls hmiddle
  have hb := beginFrame_begun hbegin
  have hmid : Listed v₁ := by
    have hfirst : Listed u := h.congr (by rw [hb.rest]) hb.referred.1
    rcases generate_cases hgen with rfl | ⟨grid, -, rfl⟩
    · exact hfirst.congr rfl rfl
    · exact foldl_invariant (fun i _ hl => hl.generateCell i) _ (hfirst.congr rfl rfl)
  have hobs : Listed v₂ := by
    unfold updateVisualMapPoints at hupdate
    split_ifs at hupdate
    · rwa [← Except.ok.inj hupdate]
    · refine foldlM_invariant (fun e _ x y hx hstep => ?_) hupdate hmid
      obtain ⟨pt, -, hcases⟩ := observe_cases hstep
      rcases hcases with ⟨-, rfl⟩ | ⟨-, -, -, -, -, -, ⟨-, -, rfl⟩ | ⟨-, rfl⟩⟩ <;>
        exact hx.congr rfl (List.length_set ..)
  unfold updateReferencePatch at href
  split_ifs at href
  · rwa [← Except.ok.inj href]
  · refine foldlM_invariant (fun e _ x y hx hstep => ?_) href hobs
    rcases rescoreEntry_cases hstep with rfl | ⟨pt, -, -, -, rfl⟩
    · exact hx
    · exact hx.congr rfl (List.length_set ..)

/-- **The map is the heap.**  After any frames every point that was ever made is in `feat_map`. -/
theorem inFeatMap_iff {tr : List (Turn VIOManager FrameInput VisualEkf)}
    (h : Exec (frameStep L cfg) {} tr v) {pt : VisualPoint} : v.InFeatMap pt ↔ pt ∈ v.points := by
  have hlisted : Listed v := by
    refine (h.invariant (I := Listed) (C := fun _ => True) ⟨?_, ?_⟩
      (fun x hx _ hpre => ?_) fun _ _ => trivial).1
    · exact fun position i hi => by cases hi
    · exact fun i hi => absurd hi (Nat.not_lt_zero i)
    · have hframe : processFrame L cfg x.event x.pre = .ok (x.post, x.obs) := hx
      exact hpre.processFrame hframe
  constructor
  · rintro ⟨position, i, -, hi⟩
    exact List.mem_of_getElem? hi
  · intro hpt
    obtain ⟨i, hi⟩ := List.mem_iff_getElem?.mp hpt
    obtain ⟨position, hmem⟩ := hlisted.listed i (List.getElem?_eq_some_iff.mp hi).1
    exact ⟨position, i, hmem, hi⟩

end VIOManager

end FastLivo2
