import FastLivo2.VisualScore

/-!
# What a retrieval does

`retrieveFromVisualSparseMap` offers to each cell of the grid the points that project into it, and
turns the offers into the submap.  A point projects into one cell only, so the points of the submap
are distinct (`Retrieved.nodup`).  To a point of the map it does nothing, or gives it a reference
among its observations (`Referred`); it does so with `normal_en` only, and then every point of the
submap has one.
-/

namespace FastLivo2

/-! ## Points -/

/-- What a retrieval does to a point: nothing, or with `normal_en` it chooses a reference. -/
def Referred (cfg : VioConfig) (pt pt' : VisualPoint) : Prop :=
  pt' = pt ∨ cfg.normalEn = true ∧ ∃ ftr ∈ pt.obs, pt' = pt.setRef ftr

namespace Referred

variable {cfg : VioConfig} {pt pt' pt'' : VisualPoint}

lemma refl (pt : VisualPoint) : Referred cfg pt pt := .inl rfl

lemma obs (h : Referred cfg pt pt') : pt'.obs = pt.obs := by
  obtain rfl | ⟨-, ftr, -, rfl⟩ := h <;> rfl

lemma trans (h : Referred cfg pt pt') (h' : Referred cfg pt' pt'') : Referred cfg pt pt'' := by
  have hobs := h.obs
  obtain rfl | ⟨hn, ftr, hftr, rfl⟩ := h'
  · exact h
  · rw [hobs] at hftr
    obtain rfl | ⟨-, _, -, rfl⟩ := h
    · exact .inr ⟨hn, ftr, hftr, rfl⟩
    · exact .inr ⟨hn, ftr, hftr, rfl⟩

end Referred

/-- A retrieval has been over the points of a heap. -/
def AllReferred (cfg : VioConfig) (l l' : List VisualPoint) : Prop :=
  l'.length = l.length ∧
    ∀ (i : ℕ) (pt' : VisualPoint), l'[i]? = some pt' → ∃ pt, l[i]? = some pt ∧ Referred cfg pt pt'

namespace AllReferred

variable {cfg : VioConfig} {l l' : List VisualPoint}

lemma refl (l : List VisualPoint) : AllReferred cfg l l := ⟨rfl, fun _ pt h => ⟨pt, h, .refl pt⟩⟩

lemma set (h : AllReferred cfg l l') {k : ℕ} {pt pt' : VisualPoint} (hpt : l'[k]? = some pt)
    (href : Referred cfg pt pt') : AllReferred cfg l (l'.set k pt') := by
  refine ⟨by rw [List.length_set, h.1], fun i q hq => ?_⟩
  by_cases hik : k = i
  · subst hik
    obtain ⟨p, hp, hp'⟩ := h.2 k pt hpt
    rw [List.getElem?_set_self (List.getElem?_eq_some_iff.mp hpt).1] at hq
    obtain rfl := Option.some.inj hq
    exact ⟨p, hp, hp'.trans href⟩
  · rw [List.getElem?_set_ne hik] at hq
    exact h.2 i q hq

/-- A property that choosing a reference keeps, a retrieval keeps. -/
lemma forall_mem (h : AllReferred cfg l l') {I : VisualPoint → Prop}
    (hI : cfg.normalEn = true → ∀ pt ftr, I pt → ftr ∈ pt.obs → I (pt.setRef ftr))
    (hl : ∀ pt ∈ l, I pt) : ∀ pt ∈ l', I pt := by
  intro pt' hpt'
  obtain ⟨i, hi⟩ := List.mem_iff_getElem?.mp hpt'
  obtain ⟨pt, hpt, href⟩ := h.2 i pt' hi
  have hpre := hl pt (List.mem_of_getElem? hpt)
  obtain rfl | ⟨hn, ftr, hftr, rfl⟩ := href
  · exact hpre
  · exact hI hn pt ftr hpre hftr

/-- No buffer changes hands. -/
lemma ownedBy_bufs (h : AllReferred cfg l l') :
    ownedBy VisualPoint.bufs l' = ownedBy VisualPoint.bufs l := by
  have hmap : l'.map VisualPoint.bufs = l.map VisualPoint.bufs := by
    refine List.ext_getElem? fun i => ?_
    rw [List.getElem?_map, List.getElem?_map]
    cases hi : l'[i]? with
    | none =>
        have hle : l[i]? = none := by
          rw [List.getElem?_eq_none_iff, ← h.1]
          exact List.getElem?_eq_none_iff.mp hi
        rw [hle]
    | some pt' =>
        obtain ⟨pt, hpt, href⟩ := h.2 i pt' hi
        rw [hpt, Option.map_some, Option.map_some, VisualPoint.bufs, href.obs, VisualPoint.bufs]
  rw [ownedBy, List.flatMap_def, hmap, ← List.flatMap_def, ownedBy]

end AllReferred

namespace VIOManager

variable {L : VioLibs} {cfg : VioConfig} {inp : FrameInput} {v w : VIOManager}

lemma point_eq_ok {i : ℕ} {pt : VisualPoint} : v.point i = .ok pt ↔ v.points[i]? = some pt := by
  unfold point
  cases v.points[i]? <;> simp

/-! ## Cells -/

variable (L cfg) in
/-- The point at a place of the heap projects into a cell. -/
def CellOf (v : VIOManager) (k i : ℕ) : Prop :=
  ∃ pt, v.points[k]? = some pt ∧ cellIndex L cfg (v.newFrame.w2c L pt.pos) = .ok i

/-- A point projects into one cell only. -/
lemma CellOf.unique {k i j : ℕ} (h : CellOf L cfg v k i) (h' : CellOf L cfg v k j) : i = j := by
  obtain ⟨pt, hpt, hi⟩ := h
  obtain ⟨pt', hpt', hj⟩ := h'
  obtain rfl : pt = pt' := by simpa [hpt] using hpt'
  exact Except.ok.inj (hi.symm.trans hj)

variable (L cfg) in
/-- Each cell holds a point that projects into it, and no candidate yet. -/
structure Placed (v : VIOManager) (grid : Grid) : Prop where
  cellOf : ∀ i k, grid.retrieveVoxelPoints i = some k → CellOf L cfg v k i
  append : grid.appendVoxelPoints = fun _ => {}

lemma placed_empty : Placed L cfg v {} := ⟨fun i k h => (by cases h), rfl⟩

lemma Placed.offer {grid : Grid} {i k : ℕ} (h : Placed L cfg v grid) (hk : CellOf L cfg v k i)
    (dist : ℚ) : Placed L cfg v (offer grid i dist k) := by
  unfold VIOManager.offer
  dsimp only
  split_ifs
  · refine ⟨fun i' k' hget => ?_, h.append⟩
    by_cases hi : i' = i
    · subst hi
      obtain rfl : k = k' := by simpa using hget
      exact hk
    · exact h.cellOf i' k' (by simpa [hi] using hget)
  · exact ⟨h.cellOf, h.append⟩

lemma visit_placed {g g' : Grid × Bool} {k : ℕ} (h : Placed L cfg v g.1)
    (hv : visit L cfg v g k = .ok g') : Placed L cfg v g'.1 := by
  obtain ⟨pt, hpt, hv⟩ := vio_bind_eq_ok.mp hv
  dsimp only at hv
  split_ifs at hv
  · obtain rfl := Except.ok.inj hv
    exact h
  · obtain rfl := Except.ok.inj hv
    exact h
  · obtain ⟨i, hi, hv⟩ := vio_bind_eq_ok.mp hv
    obtain rfl := Except.ok.inj hv
    exact h.offer ⟨pt, point_eq_ok.mp hpt, hi⟩ _
  · obtain rfl := Except.ok.inj hv
    exact h

/-- A loop over the points of a voxel. -/
lemma visits_placed {l : List ℕ} {g g' : Grid × Bool} (h : Placed L cfg v g.1)
    (hv : l.foldlM (visit L cfg v) g = .ok g') : Placed L cfg v g'.1 :=
  foldlM_invariant (I := fun g : Grid × Bool => Placed L cfg v g.1)
    (fun _ _ _ _ hg hstep => visit_placed hg hstep) hv h

lemma visitVoxel_placed {grid grid' : Grid} {position : VoxelLocation}
    (h : Placed L cfg v grid) (hv : visitVoxel L cfg v grid position = .ok grid') :
    Placed L cfg v grid' := by
  obtain ⟨g, hg, hv⟩ := vio_bind_eq_ok.mp hv
  obtain rfl := Except.ok.inj hv
  exact visits_placed h hg

/-! ## Rays -/

/-- A candidate read off a plane of the voxel map. -/
def FromPlane (inp : FrameInput) (p : PointWithVar) : Prop :=
  ∃ pw position d leaves,
    VoxelOctoTree.findCorrespond pw (inp.planeMap position) = .node d leaves ∧
    d.plane.isPlane = true ∧ p.normal = d.plane.normal

variable (L cfg inp) in
/-- What the rays have gathered. -/
def RaysOk (v : VIOManager) (r : Rays) : Prop :=
  Placed L cfg v r.grid ∧ ∀ p ∈ r.addFromVoxelMap, FromPlane inp p

/-- A ray leaves everything as it is, visits the points of one voxel, or adds the centre of one
plane. -/
lemma castRay_cases : ∀ {its : List V3D} {r r' : Rays}, castRay L cfg inp v its r = .ok r' →
    r' = r ∨
    (∃ (voxelPoints : List ℕ) (g : Grid × Bool) (keys : List VoxelLocation),
      voxelPoints.foldlM (visit L cfg v) (r.grid, false) = .ok g ∧
      r' = { r with grid := g.1, subFeatMap := keys }) ∨
    ∃ p, FromPlane inp p ∧ r' = { r with addFromVoxelMap := r.addFromVoxelMap ++ [p] }
  | [], _, _, hr => .inl (Except.ok.inj hr).symm
  | it :: rest, r, r', hr => by
      unfold castRay at hr
      obtain ⟨samplePos, -, hr⟩ := vio_bind_eq_ok.mp hr
      split_ifs at hr
      · exact .inl (Except.ok.inj hr).symm
      split at hr
      · split_ifs at hr
        · exact castRay_cases hr
        · obtain ⟨g, hg, hr⟩ := vio_bind_eq_ok.mp hr
          exact .inr (.inl ⟨_, g, _, hg, (Except.ok.inj hr).symm⟩)
      · split at hr
        · exact castRay_cases hr
        · rename_i d leaves hfind
          split_ifs at hr with hplane
          · exact .inr (.inr ⟨_, ⟨_, samplePos, d, leaves, hfind, hplane, rfl⟩,
              (Except.ok.inj hr).symm⟩)
          · exact castRay_cases hr

lemma castRay_ok {its : List V3D} {r r' : Rays} (h : RaysOk L cfg inp v r)
    (hr : castRay L cfg inp v its r = .ok r') : RaysOk L cfg inp v r' := by
  rcases castRay_cases hr with rfl | ⟨voxelPoints, g, keys, hg, rfl⟩ | ⟨p, hplane, rfl⟩
  · exact h
  · exact ⟨visits_placed h.1 hg, h.2⟩
  · refine ⟨h.1, fun q hq => ?_⟩
    rcases List.mem_append.mp hq with hq | hq
    · exact h.2 q hq
    · obtain rfl := List.mem_singleton.mp hq
      exact hplane

lemma castCell_ok {r r' : Rays} {i : ℕ} (h : RaysOk L cfg inp v r)
    (hr : castCell L cfg inp v r i = .ok r') : RaysOk L cfg inp v r' := by
  unfold castCell at hr
  split_ifs at hr
  · obtain rfl := Except.ok.inj hr
    exact h
  · exact castRay_ok h hr

/-- The first loops leave a grid whose cells hold points of their own, and candidates read off
planes. -/
lemma collect_cases (h : collect L cfg inp v = .ok w) (hgrid : Placed L cfg v v.grid) :
    ∃ r : Rays, RaysOk L cfg inp v r ∧
      w = { v with
        grid := r.grid
        submap := { v.submap with
          addFromVoxelMap := v.submap.addFromVoxelMap ++ r.addFromVoxelMap } } := by
  obtain ⟨keys, -, h⟩ := vio_bind_eq_ok.mp h
  obtain ⟨grid, hvisit, h⟩ := vio_bind_eq_ok.mp h
  have hplaced : Placed L cfg v grid :=
    foldlM_invariant (fun _ _ _ _ hg hstep => visitVoxel_placed hg hstep) hvisit hgrid
  have hstart : RaysOk L cfg inp v { grid := grid, subFeatMap := keys } :=
    ⟨hplaced, fun p hp => by cases hp⟩
  dsimp only at h
  split_ifs at h
  · obtain ⟨r, hr, h⟩ := vio_bind_eq_ok.mp h
    obtain rfl := Except.ok.inj h
    exact ⟨r, foldlM_invariant (fun _ _ _ _ hok hstep => castCell_ok hok hstep) hr hstart, rfl⟩
  · obtain ⟨r, hr, h⟩ := vio_bind_eq_ok.mp h
    obtain rfl := Except.ok.inj hr
    obtain rfl := Except.ok.inj h
    exact ⟨_, hstart, rfl⟩

/-! ## References -/

/-- The feature of least photometric error is one of the point's. -/
lemma leastPhotometric_mem {pt : VisualPoint} {ftr : Feature}
    (h : leastPhotometric cfg pt = some ftr) : ftr ∈ pt.obs := by
  unfold leastPhotometric at h
  have hrule := foldl_rule (P := fun l (it : WithTop ℚ × Option Feature) =>
    (∀ g ∈ l, g ∈ pt.obs) ∧ ∀ g ∈ it.2, g ∈ pt.obs)
    (f := fun (it : WithTop ℚ × Option Feature) ftr =>
      let e := photometricErrors cfg pt ftr
      if e.below it.1 then ((e.getD 0 : ℚ), some ftr) else it)
    ?_ (l := pt.obs) (s := (⊤, none)) ⟨fun g hg => hg, fun g hg => by cases hg⟩
  · exact hrule.2 ftr h
  · rintro g l it ⟨hl, hit⟩
    refine ⟨fun a ha => hl a (List.mem_cons_of_mem g ha), ?_⟩
    dsimp only
    split_ifs
    · intro a ha
      obtain rfl : g = a := by simpa using ha
      exact hl g (by simp)
    · exact hit

lemma mem_of_derefPatch {pt : VisualPoint} {ftr : Feature} (h : pt.derefPatch = .ok ftr) :
    ftr ∈ pt.obs ∧ pt.refPatch = .to ftr.addr := by
  unfold VisualPoint.derefPatch at h
  split at h
  · cases h
  · cases h
  · rename_i addr hptr
    split at h
    · cases h
    · rename_i g hfind
      obtain rfl := Except.ok.inj h
      have haddr : g.addr = addr := by simpa using List.find?_some hfind
      exact ⟨List.mem_of_find?_eq_some hfind, by rw [hptr, haddr]⟩

/-- What choosing the reference does to the point; with `normal_en` it has one then. -/
lemma selectRef_cases {pt pt' : VisualPoint} {ftr : Feature}
    (h : selectRef L cfg v pt = .ok (some (pt', ftr))) :
    Referred cfg pt pt' ∧ (cfg.normalEn = true → pt'.hasRefPatch = true) := by
  unfold selectRef at h
  by_cases hnormal : cfg.normalEn = true
  · rw [if_pos hnormal] at h
    split at h
    · rename_i g hobs
      obtain ⟨rfl, rfl⟩ : pt.setRef g = pt' ∧ g = ftr := by simpa using h
      exact ⟨.inr ⟨hnormal, g, by simp [hobs], rfl⟩, fun _ => rfl⟩
    · by_cases hhas : pt.hasRefPatch = false
      · rw [if_pos hhas] at h
        split at h
        · cases h
        · rename_i g hleast
          obtain ⟨rfl, rfl⟩ : pt.setRef g = pt' ∧ g = ftr := by simpa using h
          exact ⟨.inr ⟨hnormal, g, leastPhotometric_mem hleast, rfl⟩, fun _ => rfl⟩
      · rw [if_neg hhas] at h
        split at h
        · cases h
        · rename_i g _
          obtain ⟨rfl, rfl⟩ : pt = pt' ∧ g = ftr := by simpa using h
          exact ⟨.refl pt, fun _ => by simpa using hhas⟩
  · rw [if_neg hnormal] at h
    split at h
    · cases h
    · rename_i g _
      obtain ⟨rfl, rfl⟩ : pt = pt' ∧ g = ftr := by simpa using h
      exact ⟨.refl pt, fun hn => absurd hn hnormal⟩

/-! ## The submap -/

lemma addEntry_cases {k : ℕ} {pc : V2D} {ftr : Feature} {warp : Warp}
    (h : addEntry L cfg inp k pc ftr warp v = .ok w) :
    w = v ∨ ∃ e : SubEntry, e.point = k ∧
      w = { v with submap := { v.submap with entries := v.submap.entries ++ [e] } } := by
  unfold addEntry at h
  dsimp only at h
  split_ifs at h
  · exact .inl (Except.ok.inj h).symm
  · exact .inl (Except.ok.inj h).symm
  · exact .inr ⟨_, rfl, (Except.ok.inj h).symm⟩

/-- A cell leaves the manager as it is, or refers its point, which may enter the submap. -/
lemma retrieveCell_cases {depth : ℤ → ℚ} {i : ℕ} (h : retrieveCell L cfg inp depth v i = .ok w) :
    w = v ∨ ∃ k pt pt' warpMap entries, v.grid.retrieveVoxelPoints i = some k ∧
      v.points[k]? = some pt ∧ Referred cfg pt pt' ∧
      (cfg.normalEn = true → pt'.hasRefPatch = true) ∧
      (entries = v.submap.entries ∨
        ∃ e : SubEntry, e.point = k ∧ entries = v.submap.entries ++ [e]) ∧
      w = { v with
        points := v.points.set k pt'
        warpMap := warpMap
        submap := { v.submap with entries := entries } } := by
  unfold retrieveCell at h
  split_ifs at h with htype
  · exact .inl (Except.ok.inj h).symm
  split at h
  · cases h
  rename_i k hk
  obtain ⟨pt, hpt, h⟩ := vio_bind_eq_ok.mp h
  dsimp only at h
  split_ifs at h
  · exact .inl (Except.ok.inj h).symm
  · exact .inl (Except.ok.inj h).symm
  obtain ⟨sel, hsel, h⟩ := vio_bind_eq_ok.mp h
  cases sel with
  | none => exact .inl (Except.ok.inj h).symm
  | some p =>
      obtain ⟨pt', ftr⟩ := p
      obtain ⟨hreferred, hhas⟩ := selectRef_cases hsel
      refine .inr ⟨k, pt, pt', (warpOf L cfg v pt' ftr).2, ?_⟩
      rcases addEntry_cases h with rfl | ⟨e, he, rfl⟩
      · exact ⟨_, hk, point_eq_ok.mp hpt, hreferred, hhas, .inl rfl, rfl⟩
      · exact ⟨_, hk, point_eq_ok.mp hpt, hreferred, hhas, .inr ⟨e, he, rfl⟩, rfl⟩

/-! ## The whole retrieval -/

variable (cfg) in
/-- The submap after a retrieval, over the points `points`. -/
structure SubmapOk (points : List VisualPoint) (entries : List SubEntry) : Prop where
  nodup : (entries.map SubEntry.point).Nodup
  valid : ∀ e ∈ entries, e.point < points.length
  hasRef : cfg.normalEn = true →
    ∀ e ∈ entries, ∀ pt, points[e.point]? = some pt → pt.hasRefPatch = true

variable (L cfg) in
/-- The last loop, from the manager `v` that the first ones leave: `l` are the cells ahead. -/
structure Cells (v : VIOManager) (l : List ℕ) (w : VIOManager) : Prop where
  nodup : l.Nodup
  rest : w = { v with
    points := w.points
    warpMap := w.warpMap
    submap := { v.submap with entries := w.submap.entries } }
  referred : AllReferred cfg v.points w.points
  submap : SubmapOk cfg w.points w.submap.entries
  visited : ∀ e ∈ w.submap.entries, ∃ i, i ∉ l ∧ CellOf L cfg v e.point i

/-- A cell ahead puts its own point into the submap, which no cell before had. -/
lemma Cells.step {u : VIOManager} {i : ℕ} {l : List ℕ} {depth : ℤ → ℚ}
    (hgrid : Placed L cfg v v.grid) (h : Cells L cfg v (i :: l) w)
    (hu : retrieveCell L cfg inp depth w i = .ok u) : Cells L cfg v l u := by
  obtain ⟨hi, hl⟩ := List.nodup_cons.mp h.nodup
  have hvisited : ∀ e ∈ w.submap.entries, ∃ j, j ∉ l ∧ CellOf L cfg v e.point j := by
    intro e he
    obtain ⟨j, hj, hcell⟩ := h.visited e he
    exact ⟨j, fun hmem => hj (List.mem_cons_of_mem i hmem), hcell⟩
  rcases retrieveCell_cases hu with
    rfl | ⟨k, pt, pt', warpMap, entries, hk, hpt, href, hhas, hentries, rfl⟩
  · exact { h with nodup := hl, visited := hvisited }
  have hcell : CellOf L cfg v k i := by
    have hsame : w.grid = v.grid := by rw [h.rest]
    exact hgrid.cellOf i k (hsame ▸ hk)
  have hklt : k < w.points.length := (List.getElem?_eq_some_iff.mp hpt).1
  have hset : (w.points.set k pt')[k]? = some pt' := List.getElem?_set_self hklt
  have hkeep : ∀ e ∈ w.submap.entries, cfg.normalEn = true →
      ∀ q, (w.points.set k pt')[e.point]? = some q → q.hasRefPatch = true := by
    intro e he hn q hq
    by_cases hke : k = e.point
    · rw [← hke, hset] at hq
      obtain rfl := Option.some.inj hq
      exact hhas hn
    · rw [List.getElem?_set_ne hke] at hq
      exact h.submap.hasRef hn e he q hq
  have hfresh : k ∉ w.submap.entries.map SubEntry.point := by
    intro hmem
    obtain ⟨e, he, rfl⟩ := List.mem_map.mp hmem
    obtain ⟨j, hj, hcellj⟩ := h.visited e he
    exact hj (by simp [hcell.unique hcellj])
  refine ⟨hl, by rw [h.rest], h.referred.set hpt href, ?_, ?_⟩
  · rcases hentries with rfl | ⟨e, rfl, rfl⟩
    · refine ⟨h.submap.nodup, fun f hf => ?_, fun hn f hf => hkeep f hf hn⟩
      rw [List.length_set]
      exact h.submap.valid f hf
    · refine ⟨?_, fun f hf => ?_, fun hn f hf q hq => ?_⟩
      · show ((w.submap.entries ++ [e]).map SubEntry.point).Nodup
        rw [List.map_append, List.map_singleton, List.nodup_append_comm, List.singleton_append]
        exact List.nodup_cons.mpr ⟨hfresh, h.submap.nodup⟩
      · rw [List.length_set]
        rcases List.mem_append.mp hf with hf | hf
        · exact h.submap.valid f hf
        · rwa [List.mem_singleton.mp hf]
      · rcases List.mem_append.mp hf with hf | hf
        · exact hkeep f hf hn q hq
        · rw [List.mem_singleton.mp hf, hset] at hq
          obtain rfl := Option.some.inj hq
          exact hhas hn
  · rcases hentries with rfl | ⟨e, rfl, rfl⟩
    · exact hvisited
    · intro f hf
      rcases List.mem_append.mp hf with hf | hf
      · exact hvisited f hf
      · rw [List.mem_singleton.mp hf]
        exact ⟨i, hi, hcell⟩

variable (cfg inp) in
/-- What a retrieval leaves of the manager `v`. -/
structure Retrieved (v w : VIOManager) : Prop where
  rest : w = { v with
    points := w.points
    warpMap := w.warpMap
    grid := w.grid
    submap := w.submap
    totalPoints := w.totalPoints }
  referred : AllReferred cfg v.points w.points
  submap : SubmapOk cfg w.points w.submap.entries
  total : w.totalPoints = w.submap.entries.length
  candidates : ∀ p ∈ w.submap.addFromVoxelMap, FromPlane inp p
  append : w.grid.appendVoxelPoints = fun _ => {}

/-- A retrieval from an empty map does nothing. -/
lemma retrieve_cases (hgrid : v.grid = {}) (h : retrieveFromVisualSparseMap L cfg inp v = .ok w) :
    w = v ∨ Retrieved cfg inp v w := by
  unfold retrieveFromVisualSparseMap at h
  by_cases hempty : v.featMap.size ≤ 0
  · rw [if_pos hempty] at h
    exact .inl (Except.ok.inj h).symm
  rw [if_neg hempty] at h
  obtain ⟨v₁, hcollect, h⟩ := vio_bind_eq_ok.mp h
  obtain ⟨v₂, hcells, h⟩ := vio_bind_eq_ok.mp h
  obtain rfl := Except.ok.inj h
  obtain ⟨r, ⟨hplaced, hcand⟩, hv₁⟩ := collect_cases hcollect (by rw [hgrid]; exact placed_empty)
  have hplaced₁ : Placed L cfg v₁ v₁.grid := by
    rw [hv₁]
    exact ⟨hplaced.cellOf, hplaced.append⟩
  have hstart : Cells L cfg v₁ (List.range (cfg.length L.cam)) v₁ := by
    have hentries : v₁.submap.entries = [] := by rw [hv₁]
    refine ⟨List.nodup_range, rfl, .refl _, ⟨?_, ?_, ?_⟩, ?_⟩ <;> simp [hentries]
  have hloop : Cells L cfg v₁ [] v₂ :=
    foldlM_rule (P := Cells L cfg v₁) (fun i l s t hs ht => Cells.step hplaced₁ hs ht) hcells hstart
  have hgrid₂ : v₂.grid = v₁.grid := by rw [hloop.rest]
  have hadd : v₂.submap.addFromVoxelMap = r.addFromVoxelMap := by
    rw [hloop.rest, hv₁]
    rfl
  refine .inr ⟨?_, ?_, hloop.submap, rfl, ?_, ?_⟩
  · rw [hloop.rest, hv₁]
  · have hpoints : v₁.points = v.points := by rw [hv₁]
    exact hpoints ▸ hloop.referred
  · show ∀ p ∈ v₂.submap.addFromVoxelMap, FromPlane inp p
    rw [hadd]
    exact hcand
  · show v₂.grid.appendVoxelPoints = _
    rw [hgrid₂]
    exact hplaced₁.append

/-! ## The frame up to the update -/

variable (L cfg inp) in
/-- What the first part of a frame leaves of the manager `v`. -/
structure FrameBegun (v w : VIOManager) : Prop where
  rest : w = { v with
    points := w.points
    warpMap := w.warpMap
    grid := w.grid
    submap := w.submap
    totalPoints := w.totalPoints
    newFrame := w.newFrame
    frameCounter := v.frameCounter + 1
    denoms := [] }
  referred : AllReferred cfg v.points w.points
  frameId : w.newFrame.id = v.frameCounter
  rot : ∃ R, w.newFrame.tFW.rot = L.toRotation R
  submap : w.totalPoints = 0 ∧ w.submap = v.submap ∨
    (w.totalPoints = w.submap.entries.length ∧ SubmapOk cfg w.points w.submap.entries ∧
      ∀ p ∈ w.submap.addFromVoxelMap, FromPlane inp p)
  append : w.grid.appendVoxelPoints = fun _ => {}

lemma beginFrame_begun (h : beginFrame L cfg inp v = .ok w) : FrameBegun L cfg inp v w := by
  obtain ⟨u, hu, h⟩ := vio_bind_eq_ok.mp h
  unfold newFrameOf at hu
  split_ifs at hu with himg
  obtain rfl := Except.ok.inj hu
  rcases retrieve_cases rfl h with rfl | hret
  · exact ⟨rfl, .refl _, rfl, ⟨_, rfl⟩, .inl ⟨rfl, rfl⟩, rfl⟩
  · have hframe := congrArg VIOManager.newFrame hret.rest
    refine ⟨?_, hret.referred, by rw [hframe]; rfl, ⟨Rcw cfg inp.state, by rw [hframe]; rfl⟩,
      .inr ⟨hret.total, hret.submap, hret.candidates⟩, hret.append⟩
    rw [hret.rest]
    rfl

end VIOManager

end FastLivo2
