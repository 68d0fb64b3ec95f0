import FastLivo2.Lib.Champion
import FastLivo2.Lib.Fold
import FastLivo2.VisualRetrieval
import FastLivo2.Covariance
import FastLivo2.PixelReads
import FastLivo2.ReferencePatch

/-!
# Which point a cell retrieves

The first loops of `retrieveFromVisualSparseMap` offer the visual points they examine to the cells
of the grid.  `examined` is the list of those points, in order, told from the inputs alone: the
voxels of the scan, then the voxels on the rays of the cells that no point has been offered to.  The
arrays of the grid are a tally of that list (`Tallied`): a cell is marked when it is offered a
point, but it keeps a point only within the initial 10 km of `map_dist`, and of points whose
distances are the same as `float` it keeps the last.

So the cells retrieve a nearest point exactly when in each cell a nearest point is in reach and no
point after it comes to the same `float` (`collect_selects_iff`), and a marked cell without a point
stops the loop over the cells (`inReach_of_retrieve`).
-/

namespace FastLivo2

namespace VIOManager

variable (L : VioLibs) (cfg : VioConfig) (inp : FrameInput)

/-! ## Examined points -/

/-- The cell a visual point is a candidate of: it has observations, is not behind the camera and
projects inside the border. -/
def offerCell (v : VIOManager) (k : ℕ) : Option ℕ :=
  match v.points[k]? with
  | none => none
  | some pt =>
      let pc := v.newFrame.w2c L pt.pos
      if pt.obs.isEmpty then none
      else if v.newFrame.w2f pt.pos 2 < 0 then none
      else if L.cam.isInFrame (castInt pc) cfg.border then (cellIndex L cfg pc).toOption
      else none

/-- The distance of a point from the camera. -/
def distance (v : VIOManager) (k : ℕ) : ℚ :=
  match v.points[k]? with
  | none => 0
  | some pt => V3D.norm L.toLibm (v.newFrame.pos - pt.pos)

/-- `cur_dist`. -/
def curDist (v : VIOManager) (k : ℕ) : ℚ := toFloat (distance L v k)

/-- The candidates of a cell among the points examined. -/
def candidates (v : VIOManager) (seen : List ℕ) (i : ℕ) : List ℕ :=
  seen.filter fun k => offerCell L cfg v k = some i

/-- What has been looked at: visual points, in order, and the keys of `sub_feat_map`. -/
structure Examined where
  points : List ℕ := []
  keys : List VoxelLocation

lemma voxelLocation_lawfulBEq : LawfulBEq VoxelLocation := inferInstance

local instance (key : VoxelLocation) (keys : List VoxelLocation) : Decidable (key ∈ keys) :=
  @List.instDecidableMemOfLawfulBEq _ _ voxelLocation_lawfulBEq key keys

/-- The samples of a ray: up to the first voxel of the visual map, or the first plane. -/
def examineRay (v : VIOManager) : List V3D → Examined → Except VioFault Examined
  | [], s => pure s
  | it :: rest, s => do
      let samplePointW := v.newFrame.f2w it
      let samplePos ← queryLocation samplePointW
      if samplePos ∈ s.keys then pure s
      else match v.featMap.find samplePos with
        | some voxelPoints =>
            if voxelPoints.isEmpty then examineRay v rest s
            else
              let voxelInFov := voxelPoints.any fun k => (offerCell L cfg v k).isSome
              pure { points := s.points ++ voxelPoints
                     keys := if voxelInFov then samplePos :: s.keys else s.keys }
        | none =>
            match VoxelOctoTree.findCorrespond samplePointW (inp.planeMap samplePos) with
            | .nullptr => examineRay v rest s
            | .node d _ => if d.plane.isPlane then pure s else examineRay v rest s

/-- The ray of a cell that has no candidate yet. -/
def examineCell (v : VIOManager) (s : Examined) (i : ℕ) : Except VioFault Examined :=
  if candidates L cfg v s.points i ≠ [] ∨ cfg.borderFlag L.cam i then pure s
  else examineRay L cfg inp v (cfg.samplePoints L.cam i) s

/-- The rays, if they are cast. -/
def examineRays (v : VIOManager) (s : Examined) : Except VioFault Examined :=
  if cfg.raycastEn then (List.range (cfg.length L.cam)).foldlM (examineCell L cfg inp v) s
  else pure s

/-- The visual points a frame examines. -/
def examined (v : VIOManager) : Except VioFault (List ℕ) := do
  let keys ← scanKeys inp.pg
  let s ← examineRays L cfg inp v
    { points := (L.hashOrder keys).flatMap v.featMap.bucket, keys := keys }
  pure s.points

/-- The cells with a candidate are marked, and each of them keeps a nearest one. -/
structure Selects (v : VIOManager) (seen : List ℕ) (grid : Grid) : Prop where
  map_iff : ∀ i, grid.gridNum i = .map ↔ ∃ k ∈ seen, offerCell L cfg v k = some i
  nearest : ∀ i, grid.gridNum i = .map → ∃ k, grid.retrieveVoxelPoints i = some k ∧
    k ∈ candidates L cfg v seen i ∧
      ∀ j ∈ candidates L cfg v seen i, distance L v k ≤ distance L v j

/-- No cell has candidates beyond 10 km only. -/
def InReach (v : VIOManager) (seen : List ℕ) : Prop :=
  ∀ i, candidates L cfg v seen i ≠ [] → ∃ k ∈ candidates L cfg v seen i, curDist L v k ≤ 10000

/-- A nearest candidate within 10 km, after which none comes to the same `float`. -/
def NearestLast (v : VIOManager) (cands : List ℕ) : Prop :=
  ∃ l₁ k l₂, cands = l₁ ++ k :: l₂ ∧ curDist L v k ≤ 10000 ∧
    (∀ j ∈ cands, distance L v k ≤ distance L v j) ∧ ∀ j ∈ l₂, curDist L v k ≠ curDist L v j

/-! ## The tally -/

/-- The arrays after some points have been examined. -/
structure Tallied (v : VIOManager) (seen : List ℕ) (grid : Grid) : Prop where
  map_iff : ∀ i, grid.gridNum i = .map ↔ candidates L cfg v seen i ≠ []
  held : ∀ i, Held (fun k => OrderDual.toDual (curDist L v k)) (OrderDual.toDual 10000)
    (candidates L cfg v seen i) (OrderDual.toDual (grid.mapDist i)) (grid.retrieveVoxelPoints i)

variable {L cfg inp} {v w : VIOManager} {seen : List ℕ}

lemma candidates_ne_nil {i : ℕ} :
    candidates L cfg v seen i ≠ [] ↔ ∃ k ∈ seen, offerCell L cfg v k = some i := by
  unfold candidates
  rw [ne_eq, List.filter_eq_nil_iff]
  push Not
  simp only [decide_eq_true_eq]

lemma candidates_append (seen' : List ℕ) (i : ℕ) : candidates L cfg v (seen ++ seen') i =
    candidates L cfg v seen i ++ candidates L cfg v seen' i :=
  List.filter_append ..

lemma candidates_singleton (k i : ℕ) :
    candidates L cfg v [k] i = if offerCell L cfg v k = some i then [k] else [] := by
  unfold candidates
  rw [List.filter_singleton]
  by_cases h : offerCell L cfg v k = some i
  · rw [if_pos h, decide_eq_true h]
    rfl
  · rw [if_neg h, decide_eq_false h]
    rfl

lemma tallied_empty : Tallied L cfg v [] {} :=
  ⟨fun i => ⟨fun h => (by cases h), fun h => absurd rfl h⟩, fun i => Held.nil _ _⟩

/-- A point that is no candidate changes nothing. -/
lemma Tallied.skip {grid : Grid} {k : ℕ} (h : Tallied L cfg v seen grid)
    (hk : offerCell L cfg v k = none) : Tallied L cfg v (seen ++ [k]) grid := by
  have hsame : ∀ i, candidates L cfg v (seen ++ [k]) i = candidates L cfg v seen i := by
    intro i
    rw [candidates_append, candidates_singleton, hk, if_neg (by simp), List.append_nil]
  refine ⟨fun i => ?_, fun i => ?_⟩
  · rw [hsame]
    exact h.map_iff i
  · rw [hsame]
    exact h.held i

lemma offer_gridNum (grid : Grid) (i : ℕ) (d : ℚ) (k j : ℕ) :
    (offer grid i d k).gridNum j = if j = i then .map else grid.gridNum j := by
  unfold offer
  by_cases h : d ≤ grid.mapDist i
  · dsimp only
    rw [if_pos h]
  · dsimp only
    rw [if_neg h]

/-- A point no farther than the cell's takes its place. -/
lemma offer_near {grid : Grid} {i : ℕ} {d : ℚ} (k : ℕ) (h : d ≤ grid.mapDist i) :
    (offer grid i d k).mapDist i = d ∧ (offer grid i d k).retrieveVoxelPoints i = some k := by
  unfold offer
  dsimp only
  rw [if_pos h]
  exact ⟨if_pos rfl, if_pos rfl⟩

lemma offer_far {grid : Grid} {i : ℕ} {d : ℚ} (k : ℕ) (h : grid.mapDist i < d) :
    (offer grid i d k).mapDist i = grid.mapDist i ∧
      (offer grid i d k).retrieveVoxelPoints i = grid.retrieveVoxelPoints i := by
  unfold offer
  dsimp only
  rw [if_neg (not_le.mpr h)]
  exact ⟨rfl, rfl⟩

lemma offer_other (grid : Grid) {i j : ℕ} (hj : j ≠ i) (d : ℚ) (k : ℕ) :
    (offer grid i d k).mapDist j = grid.mapDist j ∧
      (offer grid i d k).retrieveVoxelPoints j = grid.retrieveVoxelPoints j := by
  unfold offer
  dsimp only
  split_ifs
  · exact ⟨if_neg hj, if_neg hj⟩
  · exact ⟨rfl, rfl⟩

/-- A candidate is offered to its cell. -/
lemma Tallied.offer {grid : Grid} {k i : ℕ} (h : Tallied L cfg v seen grid)
    (hk : offerCell L cfg v k = some i) :
    Tallied L cfg v (seen ++ [k]) (offer grid i (curDist L v k) k) := by
  have hown : candidates L cfg v (seen ++ [k]) i = candidates L cfg v seen i ++ [k] := by
    rw [candidates_append, candidates_singleton, if_pos hk]
  have hother : ∀ j, j ≠ i → candidates L cfg v (seen ++ [k]) j = candidates L cfg v seen j := by
    intro j hj
    rw [candidates_append, candidates_singleton, hk, if_neg (by simpa using hj.symm),
      List.append_nil]
  refine ⟨fun j => ?_, fun j => ?_⟩
  · rw [offer_gridNum]
    by_cases hj : j = i
    · subst hj
      rw [hown, if_pos rfl]
      simp
    · rw [hother j hj, if_neg hj]
      exact h.map_iff j
  · by_cases hj : j = i
    · subst hj
      rw [hown]
      by_cases hnear : curDist L v k ≤ grid.mapDist j
      · obtain ⟨hdist, hpoint⟩ := offer_near k hnear
        rw [hdist, hpoint]
        exact (h.held j).take (OrderDual.toDual_le_toDual.mpr hnear)
      · obtain ⟨hdist, hpoint⟩ := offer_far k (not_le.mp hnear)
        rw [hdist, hpoint]
        exact (h.held j).pass (OrderDual.toDual_lt_toDual.mpr (not_le.mp hnear))
    · obtain ⟨hdist, hpoint⟩ := offer_other grid hj (curDist L v k) k
      rw [hother j hj, hdist, hpoint]
      exact h.held j

/-- A cell holds something when a candidate is in reach. -/
lemma Tallied.isSome_iff {grid : Grid} (h : Tallied L cfg v seen grid) (i : ℕ) :
    (grid.retrieveVoxelPoints i).isSome ↔
      ∃ k ∈ candidates L cfg v seen i, curDist L v k ≤ 10000 :=
  (h.held i).isSome_iff

/-- A nearer point is no farther as a `float`. -/
lemma curDist_mono {j k : ℕ} (h : distance L v k ≤ distance L v j) :
    curDist L v k ≤ curDist L v j :=
  toPrecision_mono (by norm_num) h

/-- The last of the candidates whose distance is least as a `float` is a nearest one exactly when
nothing after some nearest one comes to the same `float`. -/
lemma lastChampion_nearest_iff {cands : List ℕ} {k : ℕ}
    (h : LastChampion (fun k => OrderDual.toDual (curDist L v k)) cands k)
    (hreach : curDist L v k ≤ 10000) :
    (∀ j ∈ cands, distance L v k ≤ distance L v j) ↔ NearestLast L v cands := by
  constructor
  · intro hnearest
    obtain ⟨l₁, l₂, heq, -, hafter⟩ := h
    exact ⟨l₁, k, l₂, heq, hreach, hnearest, fun j hj =>
      (OrderDual.toDual_lt_toDual.mp (hafter j hj)).ne⟩
  · rintro ⟨l₁, m, l₂, heq, -, hnearest, hafter⟩
    have hmem : ∀ j ∈ l₂, j ∈ cands := fun j hj => by simp [heq, hj]
    have hlast : LastChampion (fun k => OrderDual.toDual (curDist L v k)) cands m := by
      refine ⟨l₁, l₂, heq, fun j hj => ?_, fun j hj => ?_⟩
      · exact OrderDual.toDual_le_toDual.mpr (curDist_mono (hnearest j (by simp [heq, hj])))
      · exact OrderDual.toDual_lt_toDual.mpr
          (lt_of_le_of_ne (curDist_mono (hnearest j (hmem j hj))) (hafter j hj))
    rw [h.unique hlast]
    exact hnearest

/-- A tally selects exactly when each cell has a nearest candidate in reach that is the last of its
`float`. -/
lemma Tallied.selects_iff {grid : Grid} (h : Tallied L cfg v seen grid) :
    Selects L cfg v seen grid ↔ ∀ i, candidates L cfg v seen i ≠ [] →
      NearestLast L v (candidates L cfg v seen i) := by
  constructor
  · intro hselects i hi
    obtain ⟨k, hk, -, hnearest⟩ := hselects.nearest i ((h.map_iff i).mpr hi)
    have hheld := h.held i
    rw [hk] at hheld
    have hlast := hheld.lastChampion
    obtain ⟨j, hj, hreach⟩ := (h.isSome_iff i).mp (by rw [hk]; rfl)
    have hle : curDist L v k ≤ curDist L v j :=
      OrderDual.toDual_le_toDual.mp (hlast.champion.max j hj)
    exact (lastChampion_nearest_iff hlast (hle.trans hreach)).mp hnearest
  · intro hreach
    refine ⟨fun i => (h.map_iff i).trans candidates_ne_nil, fun i hi => ?_⟩
    have hnear := hreach i ((h.map_iff i).mp hi)
    obtain ⟨l₁, m, l₂, heq, hm, -⟩ := hnear
    obtain ⟨k, hk⟩ := Option.isSome_iff_exists.mp
      ((h.isSome_iff i).mpr ⟨m, by simp [heq], hm⟩)
    have hheld := h.held i
    rw [hk] at hheld
    have hlast := hheld.lastChampion
    have hle : curDist L v k ≤ curDist L v m :=
      OrderDual.toDual_le_toDual.mp (hlast.champion.max m (by simp [heq]))
    exact ⟨k, hk, hlast.champion.mem,
      (lastChampion_nearest_iff hlast (hle.trans hm)).mpr (hreach i ((h.map_iff i).mp hi))⟩

/-! ## The loops -/

/-- Visiting a point offers it to its cell, if it has one. -/
lemma visit_eq {g g' : Grid × Bool} {k : ℕ} (h : visit L cfg v g k = .ok g') :
    (offerCell L cfg v k = none ∧ g' = g) ∨
      ∃ i, offerCell L cfg v k = some i ∧ g' = (offer g.1 i (curDist L v k) k, true) := by
  obtain ⟨pt, hpt, h⟩ := vio_bind_eq_ok.mp h
  have hget := point_eq_ok.mp hpt
  unfold offerCell curDist distance
  rw [hget]
  dsimp only at h ⊢
  split_ifs at h ⊢ with hobs hdepth hframe
  · exact .inl ⟨rfl, (Except.ok.inj h).symm⟩
  · exact .inl ⟨rfl, (Except.ok.inj h).symm⟩
  · obtain ⟨i, hi, h⟩ := vio_bind_eq_ok.mp h
    rw [hi]
    exact .inr ⟨i, rfl, (Except.ok.inj h).symm⟩
  · exact .inl ⟨rfl, (Except.ok.inj h).symm⟩

/-- The points of a voxel. -/
lemma visits_tallied : ∀ {l : List ℕ} {seen : List ℕ} {g g' : Grid × Bool},
    Tallied L cfg v seen g.1 → l.foldlM (visit L cfg v) g = .ok g' →
      Tallied L cfg v (seen ++ l) g'.1 ∧
        g'.2 = (g.2 || l.any fun k => (offerCell L cfg v k).isSome)
  | [], seen, g, g', h, hv => by
      obtain rfl : g = g' := Except.ok.inj hv
      simpa using h
  | k :: l, seen, g, g', h, hv => by
      rw [List.foldlM_cons] at hv
      obtain ⟨g₁, hg₁, hl⟩ := vio_bind_eq_ok.mp hv
      rcases visit_eq hg₁ with ⟨hk, rfl⟩ | ⟨i, hk, rfl⟩
      · have hrest := visits_tallied (h.skip hk) hl
        simpa [hk] using hrest
      · have hrest := visits_tallied (h.offer hk) hl
        simpa [hk] using hrest

lemma visitVoxel_tallied {grid grid' : Grid} {position : VoxelLocation}
    (h : Tallied L cfg v seen grid) (hv : visitVoxel L cfg v grid position = .ok grid') :
    Tallied L cfg v (seen ++ v.featMap.bucket position) grid' := by
  obtain ⟨g, hg, hv⟩ := vio_bind_eq_ok.mp hv
  obtain rfl := Except.ok.inj hv
  exact (visits_tallied h hg).1

/-- The voxels of the scan. -/
lemma visitVoxels_tallied : ∀ {keys : List VoxelLocation} {seen : List ℕ} {grid grid' : Grid},
    Tallied L cfg v seen grid → keys.foldlM (visitVoxel L cfg v) grid = .ok grid' →
      Tallied L cfg v (seen ++ keys.flatMap v.featMap.bucket) grid'
  | [], seen, grid, grid', h, hv => by
      obtain rfl : grid = grid' := Except.ok.inj hv
      simpa using h
  | key :: keys, seen, grid, grid', h, hv => by
      rw [List.foldlM_cons] at hv
      obtain ⟨grid₁, hg₁, hv⟩ := vio_bind_eq_ok.mp hv
      have hrest := visitVoxels_tallied (visitVoxel_tallied h hg₁) hv
      simpa using hrest

variable (L cfg) in
/-- The ray casting, and what has been examined by then. -/
def Follows (v : VIOManager) (r : Rays) (s : Examined) : Prop :=
  Tallied L cfg v s.points r.grid ∧ s.keys = r.subFeatMap

lemma castRay_follows : ∀ {its : List V3D} {r r' : Rays} {s : Examined}, Follows L cfg v r s →
    castRay L cfg inp v its r = .ok r' →
      ∃ s', examineRay L cfg inp v its s = .ok s' ∧ Follows L cfg v r' s'
  | [], r, r', s, h, hr => by
      obtain rfl := Except.ok.inj hr
      exact ⟨s, rfl, h⟩
  | it :: rest, r, r', s, h, hr => by
      unfold castRay at hr
      unfold examineRay
      obtain ⟨samplePos, hpos, hr⟩ := vio_bind_eq_ok.mp hr
      dsimp only at hr ⊢
      rw [hpos]
      dsimp only [bind, Except.bind]
      rw [h.2]
      by_cases hseen : samplePos ∈ r.subFeatMap
      · rw [if_pos hseen] at hr ⊢
        obtain rfl := Except.ok.inj hr
        exact ⟨s, rfl, h⟩
      rw [if_neg hseen] at hr ⊢
      cases hfind : v.featMap.find samplePos with
      | some voxelPoints =>
          rw [hfind] at hr
          dsimp only at hr ⊢
          by_cases hempty : voxelPoints.isEmpty = true
          · rw [if_pos hempty] at hr ⊢
            exact castRay_follows h hr
          · rw [if_neg hempty] at hr ⊢
            obtain ⟨g, hg, hr⟩ := vio_bind_eq_ok.mp hr
            obtain ⟨htallied, hflag⟩ := visits_tallied h.1 hg
            obtain rfl := Except.ok.inj hr
            refine ⟨_, rfl, htallied, ?_⟩
            dsimp only at hflag ⊢
            rw [hflag, Bool.false_or]
      | none =>
          rw [hfind] at hr
          dsimp only at hr ⊢
          cases hplane : VoxelOctoTree.findCorrespond (v.newFrame.f2w it)
              (inp.planeMap samplePos) with
          | nullptr =>
              rw [hplane] at hr
              exact castRay_follows h hr
          | node d leaves =>
              rw [hplane] at hr
              dsimp only at hr ⊢
              by_cases hisPlane : d.plane.isPlane = true
              · rw [if_pos hisPlane] at hr ⊢
                obtain rfl := Except.ok.inj hr
                exact ⟨s, rfl, h⟩
              · rw [if_neg hisPlane] at hr ⊢
                exact castRay_follows h hr

lemma castCell_follows {r r' : Rays} {s : Examined} {i : ℕ} (h : Follows L cfg v r s)
    (hr : castCell L cfg inp v r i = .ok r') :
    ∃ s', examineCell L cfg inp v s i = .ok s' ∧ Follows L cfg v r' s' := by
  unfold castCell at hr
  unfold examineCell
  have hskip : r.grid.gridNum i = .map ∨ cfg.borderFlag L.cam i = true ↔
      candidates L cfg v s.points i ≠ [] ∨ cfg.borderFlag L.cam i = true := by
    rw [h.1.map_iff]
  by_cases hdone : r.grid.gridNum i = .map ∨ cfg.borderFlag L.cam i = true
  · rw [if_pos hdone] at hr
    rw [if_pos (hskip.mp hdone)]
    obtain rfl := Except.ok.inj hr
    exact ⟨s, rfl, h⟩
  · rw [if_neg hdone] at hr
    rw [if_neg fun hdone' => hdone (hskip.mpr hdone')]
    exact castRay_follows h hr

/-- **The arrays after the first loops** are a tally of the points examined. -/
theorem collect_tallied (hgrid : v.grid = {}) (h : collect L cfg inp v = .ok w) :
    ∃ seen, examined L cfg inp v = .ok seen ∧ Tallied L cfg v seen w.grid := by
  obtain ⟨keys, hkeys, h⟩ := vio_bind_eq_ok.mp h
  obtain ⟨grid, hvisit, h⟩ := vio_bind_eq_ok.mp h
  rw [hgrid] at hvisit
  have hscan : Follows L cfg v { grid := grid, subFeatMap := keys }
      { points := (L.hashOrder keys).flatMap v.featMap.bucket, keys := keys } := by
    refine ⟨?_, rfl⟩
    have htallied := visitVoxels_tallied tallied_empty hvisit
    rwa [List.nil_append] at htallied
  dsimp only at h
  by_cases hcast : cfg.raycastEn = true
  · rw [if_pos hcast] at h
    obtain ⟨r, hr, h⟩ := vio_bind_eq_ok.mp h
    obtain ⟨s, hs, hfollows⟩ := foldlM_simulation (R := Follows L cfg v)
      (f := castCell L cfg inp v) (g := examineCell L cfg inp v)
      (fun _ _ _ _ hR hstep => castCell_follows hR hstep) hr hscan
    obtain rfl := Except.ok.inj h
    have hrays : examineRays L cfg inp v
        { points := (L.hashOrder keys).flatMap v.featMap.bucket, keys := keys } = .ok s :=
      (if_pos hcast).trans hs
    exact ⟨s.points, vio_bind_eq_ok.mpr ⟨keys, hkeys, vio_bind_eq_ok.mpr ⟨s, hrays, rfl⟩⟩,
      hfollows.1⟩
  · rw [if_neg hcast] at h
    obtain ⟨r, hr, h⟩ := vio_bind_eq_ok.mp h
    obtain rfl := Except.ok.inj hr
    obtain rfl := Except.ok.inj h
    exact ⟨_, vio_bind_eq_ok.mpr ⟨keys, hkeys, vio_bind_eq_ok.mpr ⟨_, if_neg hcast, rfl⟩⟩,
      hscan.1⟩

/-- **Retrieval selection.**  When the loop over the cells starts, the cells with a candidate are
marked and hold a nearest one, if and only if each of them has a nearest one within 10 km after
which no candidate of the cell comes to the same `float`. -/
theorem collect_selects_iff (hgrid : v.grid = {}) (h : collect L cfg inp v = .ok w) :
    ∃ seen, examined L cfg inp v = .ok seen ∧ (Selects L cfg v seen w.grid ↔
      ∀ i, candidates L cfg v seen i ≠ [] → NearestLast L v (candidates L cfg v seen i)) := by
  obtain ⟨seen, hseen, htallied⟩ := collect_tallied hgrid h
  exact ⟨seen, hseen, htallied.selects_iff⟩

/-! ## The loop over the cells -/

/-- A marked cell that is passed has a point. -/
lemma retrieveCell_isSome {depth : ℤ → ℚ} {i : ℕ} (h : retrieveCell L cfg inp depth v i = .ok w)
    (hmap : v.grid.gridNum i = .map) : (v.grid.retrieveVoxelPoints i).isSome := by
  unfold retrieveCell at h
  rw [if_neg (not_not.mpr hmap)] at h
  cases hpoint : v.grid.retrieveVoxelPoints i with
  | none =>
      rw [hpoint] at h
      cases h
  | some k => rfl

lemma retrieveCell_grid {depth : ℤ → ℚ} {i : ℕ} (h : retrieveCell L cfg inp depth v i = .ok w) :
    w.grid = v.grid := by
  rcases retrieveCell_cases h with rfl | ⟨k, pt, pt', warpMap, entries, -, -, -, -, -, rfl⟩ <;> rfl

/-- Every marked cell that the loop has passed has a point. -/
lemma retrieveCells_isSome {depth : ℤ → ℚ} {n : ℕ}
    (h : (List.range n).foldlM (retrieveCell L cfg inp depth) v = .ok w) {i : ℕ} (hi : i < n)
    (hmap : v.grid.gridNum i = .map) : (v.grid.retrieveVoxelPoints i).isSome := by
  have hloop := foldlM_rule (P := fun l (u : VIOManager) => u.grid = v.grid ∧
    (i ∉ l → (v.grid.retrieveVoxelPoints i).isSome)) ?_ h
    ⟨rfl, fun hnot => absurd (List.mem_range.mpr hi) hnot⟩
  · exact hloop.2 (List.not_mem_nil)
  · rintro j l u u' ⟨hgrid, hpassed⟩ hstep
    refine ⟨(retrieveCell_grid hstep).trans hgrid, fun hnot => ?_⟩
    by_cases hij : i = j
    · subst hij
      rw [← hgrid] at hmap ⊢
      exact retrieveCell_isSome hstep hmap
    · exact hpassed fun hmem => hnot ((List.mem_cons.mp hmem).resolve_left hij)

lemma cellIndex_lt {pc : V2D} {i : ℕ} (h : cellIndex L cfg pc = .ok i) :
    i < cfg.length L.cam := by
  unfold cellIndex at h
  dsimp only at h
  split_ifs at h with hzero hrange
  obtain rfl := Except.ok.inj h
  omega

lemma lt_length_of_offerCell {k i : ℕ} (h : offerCell L cfg v k = some i) :
    i < cfg.length L.cam := by
  unfold offerCell at h
  split at h
  · cases h
  rename_i pt _
  dsimp only at h
  split_ifs at h
  cases hcell : cellIndex L cfg (v.newFrame.w2c L pt.pos) with
  | error e =>
      rw [hcell] at h
      cases h
  | ok j =>
      rw [hcell] at h
      obtain rfl : j = i := Option.some.inj h
      exact cellIndex_lt hcell

/-- **A retrieval that returns** had a near candidate in every cell with candidates: the loop stops
at a marked cell without a point. -/
theorem inReach_of_retrieve (hgrid : v.grid = {}) (hmap : v.featMap.size ≠ 0)
    (h : retrieveFromVisualSparseMap L cfg inp v = .ok w) :
    let u : VIOManager := { v with
      submap := {}
      warpMap := if cfg.normalEn then v.warpMap else fun _ => none }
    ∃ seen, examined L cfg inp u = .ok seen ∧ InReach L cfg u seen := by
  intro u
  unfold retrieveFromVisualSparseMap at h
  rw [if_neg (by omega)] at h
  obtain ⟨v₁, hcollect, h⟩ := vio_bind_eq_ok.mp h
  obtain ⟨v₂, hcells, -⟩ := vio_bind_eq_ok.mp h
  obtain ⟨seen, hseen, htallied⟩ := collect_tallied (v := u) hgrid hcollect
  refine ⟨seen, hseen, fun i hi => ?_⟩
  obtain ⟨k, hk, hoffer⟩ := candidates_ne_nil.mp hi
  have hsome := retrieveCells_isSome hcells (lt_length_of_offerCell hoffer)
    ((htallied.map_iff i).mpr hi)
  exact (htallied.isSome_iff i).mp hsome

/-! ## Near and far points -/

/-- A call that returns, and what is read off its result. -/
lemma ok_of_toOption_map {α β : Type} {x : Except VioFault α} {f : α → β} {b : β}
    (h : x.toOption.map f = some b) : ∃ a, x = .ok a ∧ f a = b := by
  cases x with
  | error e => cases h
  | ok a => exact ⟨a, rfl, Option.some.inj h⟩

/-- The libraries at rest, with the camera of 640 by 512 pixels and a root that is exact on
squares. -/
noncomputable def squareLibs : VioLibs := restLibs.withCamera vgaCamera squareRoot

/-- An observation in the middle of the image. -/
def middleFeature : Feature where
  addr := 0
  id := 0
  img := {}
  px := ![320, 256]
  f := ![0, 0, 1]
  level := 0
  tFW := {}
  patch := ⟨0, []⟩
  invExpoTime := 1

/-- A visual map of some points, each with one observation. -/
def observedPoints (ps : List V3D) : VIOManager where
  points := ps.map fun p => { pos := p, obs := [middleFeature] }
  featMap := ps.zipIdx.foldl (fun m p => m.push (insertLocation p.1) p.2) {}

/-- A scan of the same points. -/
def scanOfPositions (ps : List V3D) : FrameInput where
  img := {}
  pg := ps.map fun p => { pointW := p }

/-- Four points ahead, the second of them nearest, and one to the right. -/
def aheadPoints : List V3D :=
  [![0, 0, 9 / 4], ![0, 0, 2], ![0, 0, 39 / 16], ![0, 0, 3], ![5 / 6, 0, 2]]

/-- The cell ahead retrieves the nearest of its four points, the one to the right its only one. -/
theorem collect_selects_near :
    ∃ w, collect squareLibs {} (scanOfPositions aheadPoints) (observedPoints aheadPoints) = .ok w ∧
      Selects squareLibs {} (observedPoints aheadPoints) [0, 1, 2, 3, 4] w.grid := by
  have hexamined :
      examined squareLibs {} (scanOfPositions aheadPoints) (observedPoints aheadPoints) =
      .ok [0, 1, 2, 3, 4] := by decide +kernel
  have hcells : ∀ k ∈ [0, 1, 2, 3, 4], offerCell squareLibs {} (observedPoints aheadPoints) k =
      if k = 4 then some 184 else some 178 := by decide +kernel
  have hahead : candidates squareLibs {} (observedPoints aheadPoints) [0, 1, 2, 3, 4] 178 =
      [0] ++ 1 :: [2, 3] := by decide +kernel
  have hright : candidates squareLibs {} (observedPoints aheadPoints) [0, 1, 2, 3, 4] 184 =
      [] ++ 4 :: [] := by decide +kernel
  have hreturns : (collect squareLibs {} (scanOfPositions aheadPoints)
      (observedPoints aheadPoints)).toOption.map (fun _ => ()) = some () := by decide +kernel
  obtain ⟨w, hw, -⟩ := ok_of_toOption_map hreturns
  obtain ⟨seen, hseen, hiff⟩ := collect_selects_iff rfl hw
  obtain rfl := Except.ok.inj (hexamined.symm.trans hseen)
  refine ⟨w, hw, hiff.mpr fun i hi => ?_⟩
  obtain ⟨k, hk, hcell⟩ := candidates_ne_nil.mp hi
  rw [hcells k hk] at hcell
  split_ifs at hcell
  · obtain rfl := Option.some.inj hcell
    rw [hright]
    exact ⟨[], 4, [], rfl, by decide +kernel⟩
  · obtain rfl := Option.some.inj hcell
    rw [hahead]
    exact ⟨[0], 1, [2, 3], rfl, by decide +kernel⟩

/-- A point twenty kilometres away. -/
def farPoint : List V3D := [![0, 0, 20000]]

/-- Two points whose distances, 2 m and a hundred nanometres more, are one `float`. -/
def closePoints : List V3D := [![0, 0, 2], ![0, 0, 20000001 / 10000000]]

/-- **What a cell can be left with.**  Twenty kilometres away it is marked, but holds no point; of
two points that are one `float` away it holds the second, which is the farther. -/
theorem lonePoint_far :
    (∃ w, collect squareLibs {} (scanOfPositions farPoint) (observedPoints farPoint) = .ok w ∧
      examined squareLibs {} (scanOfPositions farPoint) (observedPoints farPoint) = .ok [0] ∧
      w.grid.gridNum 178 = .map ∧ w.grid.retrieveVoxelPoints 178 = none ∧
      ¬Selects squareLibs {} (observedPoints farPoint) [0] w.grid) ∧
    ∃ w, collect squareLibs {} (scanOfPositions closePoints) (observedPoints closePoints) = .ok w ∧
      examined squareLibs {} (scanOfPositions closePoints) (observedPoints closePoints) =
        .ok [0, 1] ∧
      w.grid.retrieveVoxelPoints 178 = some 1 ∧
      ¬Selects squareLibs {} (observedPoints closePoints) [0, 1] w.grid := by
  have hfar :
      (collect squareLibs {} (scanOfPositions farPoint) (observedPoints farPoint)).toOption.map
      (fun w => (w.grid.gridNum 178, w.grid.retrieveVoxelPoints 178)) = some (.map, none) := by
    decide +kernel
  have hclose : (collect squareLibs {} (scanOfPositions closePoints)
      (observedPoints closePoints)).toOption.map
      (fun w => (w.grid.gridNum 178, w.grid.retrieveVoxelPoints 178)) = some (.map, some 1) := by
    decide +kernel
  constructor
  · obtain ⟨w, hw, heq⟩ := ok_of_toOption_map hfar
    obtain ⟨hmap, hnone⟩ := Prod.mk.inj heq
    refine ⟨w, hw, by decide +kernel, hmap, hnone, fun h => ?_⟩
    obtain ⟨k, hk, -⟩ := h.nearest 178 hmap
    rw [hnone] at hk
    cases hk
  · obtain ⟨w, hw, heq⟩ := ok_of_toOption_map hclose
    obtain ⟨hmap, hsome⟩ := Prod.mk.inj heq
    refine ⟨w, hw, by decide +kernel, hsome, fun h => ?_⟩
    obtain ⟨k, hk, -, hnearest⟩ := h.nearest 178 hmap
    obtain rfl : 1 = k := Option.some.inj (hsome.symm.trans hk)
    have hle := hnearest 0 (by decide +kernel)
    revert hle
    decide +kernel

end VIOManager

end FastLivo2
