import FastLivo2.RetrievalSelection
import FastLivo2.VisualRun

/-!
# Which points a frame adds

`generateVisualMapPoints` lets the scan points with a normal, and then the plane centres the rays
have met, contend for the cells that retrieved no map point.  The arrays of a cell hold the first
candidate of highest corner score above the value it started from (`Contended`), and each cell with
a candidate adds one visual point behind the others (`generate_winners`).

A scan point without a normal is no candidate, whatever its score, and neither is a point that
projects outside the border.
-/

namespace FastLivo2

namespace VIOManager

variable (L : VioLibs) (cfg : VioConfig) (inp : FrameInput)

/-! ## Candidates -/

/-- The corner score of a point's projection. -/
def cornerScore (frame : Frame) (p : PointWithVar) : ℚ :=
  let pc := frame.w2c L p.pointW
  L.shiTomasiScore inp.img (truncInt (pc 0)) (truncInt (pc 1))

/-- The cell of a point's projection, if it is inside the border. -/
def cellOfPoint (frame : Frame) (p : PointWithVar) : Option ℕ :=
  let pc := frame.w2c L p.pointW
  if L.cam.isInFrame (castInt pc) cfg.border then (cellIndex L cfg pc).toOption else none

/-- The points of a list that project into a cell. -/
def inCell (frame : Frame) (ps : List PointWithVar) (i : ℕ) : List PointWithVar :=
  ps.filter fun p => cellOfPoint L cfg frame p = some i

/-- The points that contend for the cells, in order. -/
def contenders (v : VIOManager) : List PointWithVar :=
  (inp.pg.filter fun p => p.normal ≠ 0) ++ v.submap.addFromVoxelMap

/-- The candidates of a cell. -/
def cellCandidates (v : VIOManager) (i : ℕ) : List PointWithVar :=
  inCell L cfg v.newFrame (contenders inp v) i

/-- The cells that retrieved no map point and have a candidate of positive score. -/
def winningCells (v : VIOManager) : List ℕ :=
  (List.range (cfg.length L.cam)).filter fun i =>
    v.grid.gridNum i ≠ .map ∧
      ∃ p ∈ cellCandidates L cfg inp v i, 0 < cornerScore L inp v.newFrame p

/-- The direction a point is seen in. -/
def viewDir (frame : Frame) (p : V3D) : V3D := V3D.normalized L.toLibm (frame.w2f p)

/-- A new point at a candidate, its normal turned along the viewing direction. -/
structure MadeFrom (frame : Frame) (p : PointWithVar) (pt : VisualPoint) : Prop where
  pos : pt.pos = p.pointW
  normal : pt.normal = p.normal ∨ pt.normal = -p.normal
  oriented : 0 ≤ viewDir L frame pt.pos ⬝ᵥ frame.tFW.rot.mulVec pt.normal

/-- The places in the heap of the new points with a key, in order. -/
def placesOf (start : ℕ) (news : List VisualPoint) (key : VoxelLocation) : List ℕ :=
  ((news.zipIdx start).filter fun q => insertLocation q.1.pos = key).map Prod.snd

/-- The points `news` have entered the map behind the others, one for each of `cells`. -/
structure Entered (made : ℕ → VisualPoint → Prop) (cells : List ℕ) (v w : VIOManager)
    (news : List VisualPoint) : Prop where
  one : List.Forall₂ made cells news
  points : w.points = v.points ++ news
  bucket : ∀ key, w.featMap.bucket key =
    v.featMap.bucket key ++ placesOf v.points.length news key

/-- The grid as the retrieval leaves it: no scores yet, and no cell won. -/
structure Carried (grid : Grid) : Prop where
  scanValue : ∀ i, grid.scanValue i = 0
  gridNum : ∀ i, grid.gridNum i ≠ .pointcloud

/-! ## The contest -/

/-- The arrays after some points have contended, from a grid of any kind. -/
structure Contended (frame : Frame) (start : Grid) (seen : List PointWithVar) (grid : Grid) :
    Prop where
  map : ∀ i, start.gridNum i = .map → grid.gridNum i = .map
  held : ∀ i, start.gridNum i ≠ .map → ∃ o,
    HeldFirst (cornerScore L inp frame) (start.scanValue i) (inCell L cfg frame seen i)
      (grid.scanValue i) o ∧
    grid.gridNum i = (if o.isSome then .pointcloud else start.gridNum i) ∧
    grid.appendVoxelPoints i = o.getD (start.appendVoxelPoints i)

variable {L cfg inp} {v w : VIOManager} {frame : Frame} {start grid grid' : Grid}
  {seen : List PointWithVar} {p : PointWithVar} {i : ℕ}

lemma inCell_append (seen' : List PointWithVar) : inCell L cfg frame (seen ++ seen') i =
    inCell L cfg frame seen i ++ inCell L cfg frame seen' i :=
  List.filter_append ..

lemma inCell_own (h : cellOfPoint L cfg frame p = some i) :
    inCell L cfg frame (seen ++ [p]) i = inCell L cfg frame seen i ++ [p] := by
  rw [inCell_append]
  unfold inCell
  rw [List.filter_singleton, decide_eq_true h]
  rfl

lemma inCell_other (h : cellOfPoint L cfg frame p ≠ some i) :
    inCell L cfg frame (seen ++ [p]) i = inCell L cfg frame seen i := by
  rw [inCell_append]
  unfold inCell
  rw [List.filter_singleton, decide_eq_false h]
  exact List.append_nil _

lemma contended_nil : Contended L cfg inp frame start [] start :=
  ⟨fun _ h => h, fun _ _ => ⟨none, HeldFirst.nil _ _, rfl, rfl⟩⟩

/-- A cell that is marked at any time was marked from the start. -/
lemma Contended.map_iff (h : Contended L cfg inp frame start seen grid) :
    grid.gridNum i = .map ↔ start.gridNum i = .map := by
  refine ⟨fun hmap => ?_, h.map i⟩
  by_contra hstart
  obtain ⟨o, -, hnum, -⟩ := h.held i hstart
  rw [hmap] at hnum
  split_ifs at hnum
  exact hstart hnum.symm

/-- What a candidate does to the arrays. -/
lemma candidate_eq (h : candidate L cfg inp frame grid p = .ok grid') :
    (cellOfPoint L cfg frame p = none ∧ grid' = grid) ∨
      ∃ i, cellOfPoint L cfg frame p = some i ∧
        ((grid.gridNum i = .map ∧ grid' = grid) ∨
          (grid.gridNum i ≠ .map ∧ cornerScore L inp frame p ≤ grid.scanValue i ∧
            grid' = grid) ∨
          grid.gridNum i ≠ .map ∧ grid.scanValue i < cornerScore L inp frame p ∧
            grid' = { grid with
              scanValue := fun k => if k = i then cornerScore L inp frame p else grid.scanValue k
              appendVoxelPoints := fun k => if k = i then p else grid.appendVoxelPoints k
              gridNum := fun k => if k = i then .pointcloud else grid.gridNum k }) := by
  unfold candidate at h
  unfold cellOfPoint
  dsimp only at h ⊢
  by_cases hframe : L.cam.isInFrame (castInt (frame.w2c L p.pointW)) cfg.border = true
  · rw [if_pos hframe] at h ⊢
    obtain ⟨i, hi, h⟩ := vio_bind_eq_ok.mp h
    rw [hi]
    refine .inr ⟨i, rfl, ?_⟩
    split_ifs at h with hmap hscore
    · exact .inl ⟨hmap, (Except.ok.inj h).symm⟩
    · exact .inr (.inr ⟨hmap, hscore, (Except.ok.inj h).symm⟩)
    · exact .inr (.inl ⟨hmap, not_lt.mp hscore, (Except.ok.inj h).symm⟩)
  · rw [if_neg hframe] at h ⊢
    exact .inl ⟨rfl, (Except.ok.inj h).symm⟩

/-- One more point contends. -/
lemma Contended.step (h : Contended L cfg inp frame start seen grid)
    (hp : candidate L cfg inp frame grid p = .ok grid') :
    Contended L cfg inp frame start (seen ++ [p]) grid' := by
  rcases candidate_eq hp with ⟨hnone, rfl⟩ | ⟨i, hi, hcase⟩
  · refine ⟨h.map, fun j hj => ?_⟩
    rw [inCell_other (by rw [hnone]; simp)]
    exact h.held j hj
  have hother : ∀ j, j ≠ i → inCell L cfg frame (seen ++ [p]) j = inCell L cfg frame seen j := by
    intro j hj
    exact inCell_other (by rw [hi]; simpa using hj.symm)
  rcases hcase with ⟨hmap, rfl⟩ | ⟨hmap, hscore, rfl⟩ | ⟨hmap, hscore, rfl⟩
  · refine ⟨h.map, fun j hj => ?_⟩
    by_cases hji : j = i
    · subst hji
      exact absurd (h.map_iff.mp hmap) hj
    · rw [hother j hji]
      exact h.held j hj
  · refine ⟨h.map, fun j hj => ?_⟩
    obtain ⟨o, hheld, hrest⟩ := h.held j hj
    by_cases hji : j = i
    · subst hji
      rw [inCell_own hi]
      exact ⟨o, hheld.pass hscore, hrest⟩
    · rw [hother j hji]
      exact ⟨o, hheld, hrest⟩
  · have hstart : start.gridNum i ≠ .map := fun hm => hmap (h.map i hm)
    refine ⟨fun j hj => ?_, fun j hj => ?_⟩
    · have hji : j ≠ i := fun heq => hstart (heq ▸ hj)
      dsimp only
      rw [if_neg hji]
      exact h.map j hj
    · obtain ⟨o, hheld, hrest⟩ := h.held j hj
      dsimp only
      by_cases hji : j = i
      · subst hji
        rw [if_pos rfl, if_pos rfl, if_pos rfl, inCell_own hi]
        exact ⟨some p, hheld.take hscore, rfl, rfl⟩
      · rw [if_neg hji, if_neg hji, if_neg hji, hother j hji]
        exact ⟨o, hheld, hrest⟩

lemma contended_foldlM : ∀ {ps seen : List PointWithVar} {grid grid' : Grid},
    Contended L cfg inp frame start seen grid →
      ps.foldlM (candidate L cfg inp frame) grid = .ok grid' →
        Contended L cfg inp frame start (seen ++ ps) grid'
  | [], seen, grid, grid', h, hps => by
      obtain rfl : grid = grid' := Except.ok.inj hps
      rwa [List.append_nil]
  | p :: ps, seen, grid, grid', h, hps => by
      rw [List.foldlM_cons] at hps
      obtain ⟨grid₁, hp, hps⟩ := vio_bind_eq_ok.mp hps
      have hrest := contended_foldlM (h.step hp) hps
      rwa [List.append_assoc] at hrest

/-- From a carried grid, a cell is won by its first candidate of maximal score. -/
lemma Contended.champion (h : Contended L cfg inp frame start seen grid) (hstart : Carried start)
    (hwon : grid.gridNum i = .pointcloud) :
    FirstChampion (cornerScore L inp frame) (inCell L cfg frame seen i)
      (grid.appendVoxelPoints i) := by
  have hmap : start.gridNum i ≠ .map := by
    intro hm
    rw [h.map i hm] at hwon
    cases hwon
  obtain ⟨o, hheld, hnum, happend⟩ := h.held i hmap
  rw [hnum] at hwon
  split_ifs at hwon with hsome
  · obtain ⟨p, rfl⟩ := Option.isSome_iff_exists.mp hsome
    rw [happend]
    exact hheld.firstChampion
  · exact absurd hwon (hstart.gridNum i)

lemma Contended.won_iff (h : Contended L cfg inp frame start seen grid) (hstart : Carried start) :
    grid.gridNum i = .pointcloud ↔ start.gridNum i ≠ .map ∧
      ∃ p ∈ inCell L cfg frame seen i, 0 < cornerScore L inp frame p := by
  by_cases hmap : start.gridNum i = .map
  · rw [h.map i hmap]
    simp [hmap]
  · obtain ⟨o, hheld, hnum, -⟩ := h.held i hmap
    have hsome := hheld.isSome_iff
    rw [hstart.scanValue i] at hsome
    rw [hnum, ← hsome]
    split_ifs with ho
    · exact ⟨fun _ => ⟨hmap, ho⟩, fun _ => rfl⟩
    · exact ⟨fun hwon => absurd hwon (hstart.gridNum i), fun hwon => absurd hwon.2 ho⟩

/-! ## The insertion -/

variable {s : StatesGroup}

lemma newPoint_madeFrom : MadeFrom L v.newFrame p (newPoint L cfg inp s v p) := by
  by_cases hback : viewDir L v.newFrame p.pointW ⬝ᵥ v.newFrame.tFW.rot.mulVec p.normal < 0
  · have hnormal : (newPoint L cfg inp s v p).normal = -p.normal := if_pos hback
    refine ⟨rfl, .inr hnormal, ?_⟩
    rw [hnormal, Matrix.mulVec_neg, dotProduct_neg]
    exact neg_nonneg.mpr hback.le
  · have hnormal : (newPoint L cfg inp s v p).normal = p.normal := if_neg hback
    refine ⟨rfl, .inl hnormal, ?_⟩
    rw [hnormal]
    exact not_lt.mp hback

lemma bucket_push (m : FeatMap) (position : VoxelLocation) (k : ℕ) (key : VoxelLocation) :
    (m.push position k).bucket key = m.bucket key ++ if position = key then [k] else [] := by
  unfold FeatMap.bucket FeatMap.push
  dsimp only
  by_cases h : position = key
  · subst h
    rw [if_pos rfl, if_pos rfl]
    rfl
  · rw [if_neg (Ne.symm h), if_neg h, List.append_nil]

lemma placesOf_cons (start : ℕ) (pt : VisualPoint) (news : List VisualPoint)
    (key : VoxelLocation) : placesOf start (pt :: news) key =
      (if insertLocation pt.pos = key then [start] else []) ++ placesOf (start + 1) news key := by
  unfold placesOf
  rw [List.zipIdx_cons, List.filter_cons]
  by_cases h : insertLocation pt.pos = key
  · rw [if_pos h, if_pos (decide_eq_true h)]
    rfl
  · rw [if_neg h, if_neg (by simpa using h)]
    rfl

variable (L cfg inp s) in
/-- The second loop, over any cells: each cell that was won adds a point at its candidate. -/
lemma generateCells_entered : ∀ (cells : List ℕ) (u : VIOManager), ∃ news,
    Entered (fun i pt => u.grid.gridNum i = .pointcloud ∧
        MadeFrom L u.newFrame (u.grid.appendVoxelPoints i) pt)
      (cells.filter fun i => u.grid.gridNum i = .pointcloud) u
      (cells.foldl (generateCell L cfg inp s) u) news
  | [], u => ⟨[], .nil, (List.append_nil _).symm, fun _ => (List.append_nil _).symm⟩
  | i :: cells, u => by
      by_cases hwon : u.grid.gridNum i = .pointcloud
      · let pt := newPoint L cfg inp s u (u.grid.appendVoxelPoints i)
        have hstep : generateCell L cfg inp s u i =
            { u.allocBuf with nextFtr := u.nextFtr + 1 }.insertPointIntoVoxelMap pt := if_pos hwon
        obtain ⟨news, hone, hpoints, hbucket⟩ :=
          generateCells_entered cells (generateCell L cfg inp s u i)
        rw [List.foldl_cons, List.filter_cons, if_pos (decide_eq_true hwon)]
        rw [hstep] at hone hpoints hbucket ⊢
        refine ⟨pt :: news, .cons ⟨hwon, newPoint_madeFrom⟩ hone, ?_, fun key => ?_⟩
        · rw [hpoints]
          show u.points ++ [pt] ++ news = u.points ++ pt :: news
          rw [List.append_assoc, List.singleton_append]
        · rw [hbucket, placesOf_cons, ← List.append_assoc]
          show (u.featMap.push (insertLocation pt.pos) u.points.length).bucket key ++
            placesOf (u.points ++ [pt]).length news key = _
          rw [bucket_push, List.length_append, List.length_singleton]
      · have hstep : generateCell L cfg inp s u i = u := if_neg hwon
        rw [List.foldl_cons, List.filter_cons, if_neg (by simpa using hwon), hstep]
        exact generateCells_entered cells u

/-- **New visual points.**  From the grid of a retrieval, each cell that retrieved no map point and
has a candidate of positive score adds one point, at its first candidate of maximal score with the
normal turned along the viewing direction; no other cell does, and the map keeps its points. -/
theorem generate_winners (hpg : 10 < inp.pg.length) (hgrid : Carried v.grid)
    (h : generateVisualMapPoints L cfg inp s v = .ok w) :
    ∃ news, Entered
      (fun i pt => ∃ p, FirstChampion (cornerScore L inp v.newFrame)
        (cellCandidates L cfg inp v i) p ∧ MadeFrom L v.newFrame p pt)
      (winningCells L cfg inp v) v w news := by
  unfold generateVisualMapPoints at h
  rw [if_neg (by omega)] at h
  obtain ⟨grid₁, h₁, h⟩ := vio_bind_eq_ok.mp h
  obtain ⟨grid₂, h₂, h⟩ := vio_bind_eq_ok.mp h
  obtain rfl := Except.ok.inj h
  have hcontended := contended_foldlM (contended_foldlM contended_nil h₁) h₂
  rw [List.nil_append] at hcontended
  have hcells : ((List.range (cfg.length L.cam)).filter fun i => grid₂.gridNum i = .pointcloud) =
      winningCells L cfg inp v := by
    refine List.filter_congr fun i _ => ?_
    rw [decide_eq_decide]
    exact hcontended.won_iff hgrid
  obtain ⟨news, hone, hpoints, hbucket⟩ :=
    generateCells_entered L cfg inp s (List.range (cfg.length L.cam)) { v with grid := grid₂ }
  refine ⟨news, ?_, hpoints, hbucket⟩
  rw [← hcells]
  exact hone.imp fun i pt ⟨hwon, hmade⟩ =>
    ⟨grid₂.appendVoxelPoints i, hcontended.champion hgrid hwon, hmade⟩

lemma candidate_returns
    (h : L.cam.isInFrame (castInt (frame.w2c L p.pointW)) cfg.border = true →
      ∃ i, cellIndex L cfg (frame.w2c L p.pointW) = .ok i) (grid : Grid) :
    ∃ grid', candidate L cfg inp frame grid p = .ok grid' := by
  unfold candidate
  dsimp only
  by_cases hframe : L.cam.isInFrame (castInt (frame.w2c L p.pointW)) cfg.border = true
  · obtain ⟨i, hi⟩ := h hframe
    rw [if_pos hframe, hi]
    dsimp only [bind, Except.bind]
    split_ifs <;> exact ⟨_, rfl⟩
  · rw [if_neg hframe]
    exact ⟨grid, rfl⟩

/-- The new points are chosen without a fault when every candidate in the frame has a cell. -/
lemma generate_returns (h : ∀ p ∈ contenders inp v,
    L.cam.isInFrame (castInt (v.newFrame.w2c L p.pointW)) cfg.border = true →
      ∃ i, cellIndex L cfg (v.newFrame.w2c L p.pointW) = .ok i) :
    ∃ w, generateVisualMapPoints L cfg inp s v = .ok w := by
  unfold generateVisualMapPoints
  by_cases hpg : inp.pg.length ≤ 10
  · rw [if_pos hpg]
    exact ⟨v, rfl⟩
  · rw [if_neg hpg]
    obtain ⟨grid₁, h₁⟩ := foldlM_returns (f := candidate L cfg inp v.newFrame) v.grid
      fun p hp => candidate_returns (h p (List.mem_append_left _ hp))
    obtain ⟨grid₂, h₂⟩ := foldlM_returns (f := candidate L cfg inp v.newFrame) grid₁
      fun p hp => candidate_returns (h p (List.mem_append_right _ hp))
    exact ⟨_, vio_bind_eq_ok.mpr ⟨grid₁, h₁, vio_bind_eq_ok.mpr ⟨grid₂, h₂, rfl⟩⟩⟩

/-- Nothing is added where no candidate scores above the value its cell starts from. -/
lemma generate_still (hgrid : ∀ i, v.grid.gridNum i ≠ .pointcloud)
    (hlow : ∀ p ∈ contenders inp v, ∀ i, cellOfPoint L cfg v.newFrame p = some i →
      cornerScore L inp v.newFrame p ≤ v.grid.scanValue i)
    (h : generateVisualMapPoints L cfg inp s v = .ok w) : w.points = v.points := by
  unfold generateVisualMapPoints at h
  split_ifs at h
  · obtain rfl := Except.ok.inj h
    rfl
  obtain ⟨grid₁, h₁, h⟩ := vio_bind_eq_ok.mp h
  obtain ⟨grid₂, h₂, h⟩ := vio_bind_eq_ok.mp h
  obtain rfl := Except.ok.inj h
  have hcontended := contended_foldlM (contended_foldlM contended_nil h₁) h₂
  rw [List.nil_append] at hcontended
  have hnone : ∀ i, grid₂.gridNum i ≠ .pointcloud := by
    intro i hwon
    by_cases hmap : v.grid.gridNum i = .map
    · rw [hcontended.map i hmap] at hwon
      cases hwon
    · obtain ⟨o, hheld, hnum, -⟩ := hcontended.held i hmap
      rw [hnum] at hwon
      split_ifs at hwon with hsome
      · obtain ⟨p, hp, hlt⟩ := hheld.isSome_iff.mp hsome
        obtain ⟨hp, hi⟩ := List.mem_filter.mp hp
        exact absurd hlt (not_lt.mpr (hlow p hp i (of_decide_eq_true hi)))
      · exact hgrid i hwon
  obtain ⟨news, hone, hpoints, -⟩ :=
    generateCells_entered L cfg inp s (List.range (cfg.length L.cam)) { v with grid := grid₂ }
  have hempty : (List.range (cfg.length L.cam)).filter
      (fun i => grid₂.gridNum i = .pointcloud) = [] :=
    List.filter_eq_nil_iff.mpr fun i _ => by simpa using hnone i
  rw [hempty] at hone
  obtain rfl := List.forall₂_nil_left_iff.mp hone
  exact hpoints.trans (List.append_nil _)

/-! ## The grid of a frame -/

lemma carried_empty : Carried {} := ⟨fun _ => rfl, fun _ h => (by cases h)⟩

lemma Carried.offer (h : Carried grid) (i : ℕ) (d : ℚ) (k : ℕ) :
    Carried (VIOManager.offer grid i d k) := by
  refine ⟨fun j => ?_, fun j hj => ?_⟩
  · unfold VIOManager.offer
    dsimp only
    split_ifs
    · exact h.scanValue j
    · exact h.scanValue j
  · rw [offer_gridNum] at hj
    split_ifs at hj
    exact h.gridNum j hj

section

variable {I : Grid → Prop} (hI : ∀ grid i d k, I grid → I (VIOManager.offer grid i d k))

include hI

lemma visits_invariant {l : List ℕ} {g g' : Grid × Bool}
    (h : l.foldlM (visit L cfg v) g = .ok g') (hg : I g.1) : I g'.1 := by
  refine foldlM_invariant (I := fun g : Grid × Bool => I g.1) (fun k _ g g' hg hstep => ?_) h hg
  rcases visit_eq hstep with ⟨-, rfl⟩ | ⟨i, -, rfl⟩
  · exact hg
  · exact hI _ _ _ _ hg

lemma castRay_invariant {its : List V3D} {r r' : Rays}
    (h : castRay L cfg inp v its r = .ok r') (hr : I r.grid) : I r'.grid := by
  rcases castRay_cases h with rfl | ⟨voxelPoints, g, keys, hg, rfl⟩ | ⟨p, -, rfl⟩
  · exact hr
  · exact visits_invariant hI hg hr
  · exact hr

/-- What an offer keeps of the grid, the first loops keep. -/
lemma collect_invariant (h : collect L cfg inp v = .ok w) (hv : I v.grid) : I w.grid := by
  obtain ⟨keys, -, h⟩ := vio_bind_eq_ok.mp h
  obtain ⟨grid, hvisit, h⟩ := vio_bind_eq_ok.mp h
  have hscan : I grid := by
    refine foldlM_invariant (fun key _ grid grid' hgrid hstep => ?_) hvisit hv
    obtain ⟨g, hg, hstep⟩ := vio_bind_eq_ok.mp hstep
    obtain rfl := Except.ok.inj hstep
    exact visits_invariant hI hg hgrid
  dsimp only at h
  split_ifs at h
  · obtain ⟨r, hr, h⟩ := vio_bind_eq_ok.mp h
    obtain rfl := Except.ok.inj h
    refine foldlM_invariant (I := fun r : Rays => I r.grid) (fun i _ r r' hgrid hstep => ?_) hr
      hscan
    unfold castCell at hstep
    split_ifs at hstep
    · obtain rfl := Except.ok.inj hstep
      exact hgrid
    · exact castRay_invariant hI hstep hgrid
  · obtain ⟨r, hr, h⟩ := vio_bind_eq_ok.mp h
    obtain rfl := Except.ok.inj hr
    obtain rfl := Except.ok.inj h
    exact hscan

end

/-- **The grid of a frame**, when the new points are to be chosen: reset, and only offered to
since. -/
theorem beginFrame_carried (h : beginFrame L cfg inp v = .ok w) : Carried w.grid := by
  obtain ⟨u, -, h⟩ := vio_bind_eq_ok.mp h
  unfold retrieveFromVisualSparseMap at h
  by_cases hempty : (updateFrameState L cfg inp.state u).resetGrid.featMap.size ≤ 0
  · rw [if_pos hempty] at h
    obtain rfl := Except.ok.inj h
    exact carried_empty
  rw [if_neg hempty] at h
  obtain ⟨v₁, hcollect, h⟩ := vio_bind_eq_ok.mp h
  obtain ⟨v₂, hcells, h⟩ := vio_bind_eq_ok.mp h
  obtain rfl := Except.ok.inj h
  have hfirst := collect_invariant (I := Carried) (fun _ i d k hg => hg.offer i d k) hcollect
    carried_empty
  have hlast : Carried v₂.grid := by
    refine foldlM_invariant (I := fun u : VIOManager => Carried u.grid) ?_ hcells hfirst
    intro i _ u u' hu hstep
    rw [retrieveCell_grid hstep]
    exact hu
  exact hlast

/-! ## A row of points -/

/-- The libraries with a score that grows to the right and down. -/
noncomputable def slopeLibs : VioLibs := { squareLibs with shiTomasiScore := fun _ u v => u + v }

/-- Points of a row in front of the camera, on a surface that faces it. -/
def rowScan : FrameInput where
  img := {}
  pg := (List.range 11).map fun k => { pointW := ![k / 100, 0, 2], normal := ![0, 0, 1] }

/-- A manager at its first frame, with a point that a ray has found, on a surface turned away. -/
def rayManager : VIOManager where
  submap := { addFromVoxelMap := [{ pointW := ![9 / 200, 0, 2], normal := ![0, 0, -1] }] }

/-- The row lies in two cells: one is won by the point of the ray, whose normal is turned, the other
by the last point of the row. -/
theorem generate_winners_row : ∃ w news,
    generateVisualMapPoints slopeLibs {} rowScan {} rayManager = .ok w ∧
    winningCells slopeLibs {} rowScan rayManager = [178, 179] ∧
    w.points.map VisualPoint.pos = [![9 / 200, 0, 2], ![1 / 10, 0, 2]] ∧
    w.points.map VisualPoint.normal = [![0, 0, 1], ![0, 0, 1]] ∧
    Entered
      (fun i pt => ∃ p, FirstChampion (cornerScore slopeLibs rowScan rayManager.newFrame)
        (cellCandidates slopeLibs {} rowScan rayManager i) p ∧
          MadeFrom slopeLibs rayManager.newFrame p pt)
      (winningCells slopeLibs {} rowScan rayManager) rayManager w news := by
  have hreturns : ∃ w, generateVisualMapPoints slopeLibs {} rowScan {} rayManager = .ok w ∧
      (w.points.map VisualPoint.pos = [![9 / 200, 0, 2], ![1 / 10, 0, 2]] ∧
        w.points.map VisualPoint.normal = [![0, 0, 1], ![0, 0, 1]]) := by decide +kernel
  obtain ⟨w, hw, hpos, hnormal⟩ := hreturns
  obtain ⟨news, hnews⟩ := generate_winners (by decide) carried_empty hw
  exact ⟨w, news, hw, by decide +kernel, hpos, hnormal, hnews⟩

/-! ## Scans of eleven points -/

/-- The libraries with every pixel a corner. -/
noncomputable def cornerLibs : VioLibs := { squareLibs with shiTomasiScore := fun _ _ _ => 1 }

/-- A scan of one point, eleven times. -/
def scanOf (p : PointWithVar) : FrameInput where
  img := {}
  pg := List.replicate 11 p

lemma generate_scanOf_returns {p : PointWithVar} {i : ℕ} (v : VIOManager)
    (hadd : v.submap.addFromVoxelMap = [])
    (hi : cellIndex cornerLibs {} (v.newFrame.w2c cornerLibs p.pointW) = .ok i) :
    ∃ w, generateVisualMapPoints cornerLibs {} (scanOf p) {} v = .ok w := by
  refine generate_returns fun q hq _ => ?_
  unfold contenders at hq
  rw [hadd, List.append_nil] at hq
  obtain rfl := List.eq_of_mem_replicate (List.mem_of_mem_filter hq)
  exact ⟨i, hi⟩

/-- A point in front of the camera, on a surface that faces it. -/
def facingPoint : PointWithVar := { pointW := ![0, 0, 2], normal := ![0, 0, 1] }

/-- A manager at its first frame. -/
def firstManager : VIOManager := {}

lemma facingPoint_cell :
    cellIndex cornerLibs {} (Frame.w2c cornerLibs {} facingPoint.pointW) = .ok 178 := by
  decide +kernel

/-- The same point without a normal. -/
def blankPoint : PointWithVar := { pointW := ![0, 0, 2] }

/-- A point in the second cell of the second row, outside the border. -/
def edgePoint : PointWithVar := { pointW := ![-7 / 10, -27 / 50, 1], normal := ![0, 0, 1] }

/-- A manager whose scores are not reset. -/
def staleManager : VIOManager := { grid := { scanValue := fun _ => 5 } }

/-- The corner score of `cornerLibs`. -/
lemma cornerScore_cornerLibs (p : PointWithVar) : cornerScore cornerLibs inp frame p = 1 := rfl

lemma mem_contenders_scanOf {p q : PointWithVar} (hadd : v.submap.addFromVoxelMap = [])
    (hq : q ∈ contenders (scanOf p) v) : q = p ∧ p.normal ≠ 0 := by
  unfold contenders at hq
  rw [hadd, List.append_nil] at hq
  obtain ⟨hmem, hnormal⟩ := List.mem_filter.mp hq
  obtain rfl := List.eq_of_mem_replicate hmem
  exact ⟨rfl, of_decide_eq_true hnormal⟩

/-- Eleven times in the scan, the point is the only one to score in its cell, which retrieved no map
point; and still no point is added. -/
def PassedOver (v : VIOManager) (p : PointWithVar) (i : ℕ) : Prop :=
  (10 < (scanOf p).pg.length ∧ v.grid.gridNum i ≠ .map) ∧
    (cellIndex cornerLibs {} (v.newFrame.w2c cornerLibs p.pointW) = .ok i ∧
      0 < cornerScore cornerLibs (scanOf p) v.newFrame p) ∧
    ∃ w, generateVisualMapPoints cornerLibs {} (scanOf p) {} v = .ok w ∧ w.points = v.points

lemma passedOver_of_low {p : PointWithVar} {i : ℕ} (hadd : v.submap.addFromVoxelMap = [])
    (hgrid : ∀ j, v.grid.gridNum j = .unknown)
    (hi : cellIndex cornerLibs {} (v.newFrame.w2c cornerLibs p.pointW) = .ok i)
    (hlow : p.normal ≠ 0 → ∀ j, cellOfPoint cornerLibs {} v.newFrame p = some j →
      1 ≤ v.grid.scanValue j) : PassedOver v p i := by
  obtain ⟨w, hw⟩ := generate_scanOf_returns v hadd hi
  have hpg : 10 < (scanOf p).pg.length := by
    show 10 < (List.replicate 11 p).length
    rw [List.length_replicate]
    omega
  refine ⟨⟨hpg, by rw [hgrid i]; simp⟩, ⟨hi, ?_⟩, w, hw, ?_⟩
  · rw [cornerScore_cornerLibs]
    norm_num
  · refine generate_still (fun j => by rw [hgrid j]; simp) (fun q hq j hj => ?_) hw
    obtain ⟨rfl, hnormal⟩ := mem_contenders_scanOf hadd hq
    rw [cornerScore_cornerLibs]
    exact hlow hnormal j hj

/-- **Points that are passed over**: a point without a normal, a point outside the border, and a
point in a cell whose `scan_value` is not reset. -/
theorem generate_passes : PassedOver firstManager blankPoint 178 ∧
    PassedOver firstManager edgePoint 22 ∧ PassedOver staleManager facingPoint 178 := by
  have hblank : cellIndex cornerLibs {} (Frame.w2c cornerLibs {} blankPoint.pointW) = .ok 178 :=
    facingPoint_cell
  have hedge : cellIndex cornerLibs {} (Frame.w2c cornerLibs {} edgePoint.pointW) = .ok 22 := by
    decide +kernel
  have hout : cellOfPoint cornerLibs {} firstManager.newFrame edgePoint = none := by
    decide +kernel
  refine ⟨passedOver_of_low rfl (fun _ => rfl) hblank fun hnormal => absurd rfl hnormal,
    passedOver_of_low rfl (fun _ => rfl) hedge fun _ j hj => ?_,
    passedOver_of_low rfl (fun _ => rfl) facingPoint_cell fun _ j _ => ?_⟩
  · rw [hout] at hj
    cases hj
  · have hvalue : staleManager.grid.scanValue j = 5 := rfl
    rw [hvalue]
    norm_num

end VIOManager

end FastLivo2
