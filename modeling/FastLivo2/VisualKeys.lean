import FastLivo2.VisualMap

/-!
# The keys of the visual map

A visual point is stored under one key and searched under another computation of it, and the
visual part searches the LiDAR map under keys of its own.  Along one axis, and in units of the
voxel size, the stored key is the floor from zero on and one less than the ceiling below; the query
takes the floor and one less below zero.  The two differ at every negative coordinate off the
walls (`queryKey_eq_voxelKey_iff`).

The keys for the LiDAR map use half a metre whatever the size of its voxels, so they name the
octree of the point where the two tilings give its tile one number (`voxelKey_half_eq_iff`).

The coordinates are exact: that the code narrows `loc_xyz` to a `float` before it takes a key is
left out.
-/

namespace FastLivo2

/-! ## The query key -/

lemma intOf_eq_ok {n m : ℤ} : intOf n = .ok m ↔ (-2147483648 ≤ n ∧ n < 2147483648) ∧ n = m := by
  unfold intOf
  split_ifs with h
  · simp [h]
  · simp [h]

lemma div_half (x : ℚ) : x / (1 / 2) = 2 * x := by ring

/-- The query key from zero on is the floor. -/
lemma queryKey_of_nonneg {x : ℚ} (hx : 0 ≤ x) (k : ℤ) :
    queryKey x = .ok k ↔ x < 1073741824 ∧ k = ⌊2 * x⌋ := by
  have hfloor : 0 ≤ ⌊2 * x⌋ := Int.floor_nonneg.mpr (by linarith)
  have hrange : ⌊2 * x⌋ < 2147483648 ↔ x < 1073741824 := by
    rw [Int.floor_lt]
    push_cast
    constructor <;> intro h <;> linarith
  unfold queryKey
  rw [div_half, vio_bind_eq_ok]
  constructor
  · rintro ⟨loc, hloc, hk⟩
    obtain ⟨⟨-, hlt⟩, rfl⟩ := intOf_eq_ok.mp hloc
    rw [if_neg (not_lt.mpr hfloor)] at hk
    exact ⟨hrange.mp hlt, (Except.ok.inj hk).symm⟩
  · rintro ⟨hlt, rfl⟩
    refine ⟨⌊2 * x⌋, intOf_eq_ok.mpr ⟨⟨by omega, hrange.mpr hlt⟩, rfl⟩, ?_⟩
    rw [if_neg (not_lt.mpr hfloor)]
    rfl

/-- The query key below zero is one less than the floor. -/
lemma queryKey_of_neg {x : ℚ} (hx : x < 0) (k : ℤ) :
    queryKey x = .ok k ↔ -2147483648 < ⌊2 * x⌋ ∧ k = ⌊2 * x⌋ - 1 := by
  have hfloor : ⌊2 * x⌋ < 0 := Int.floor_lt.mpr (by push_cast; linarith)
  unfold queryKey
  rw [div_half, vio_bind_eq_ok]
  constructor
  · rintro ⟨loc, hloc, hk⟩
    obtain ⟨-, rfl⟩ := intOf_eq_ok.mp hloc
    rw [if_pos hfloor] at hk
    obtain ⟨⟨hlo, -⟩, hk⟩ := intOf_eq_ok.mp hk
    exact ⟨by omega, hk.symm⟩
  · rintro ⟨hlo, rfl⟩
    refine ⟨⌊2 * x⌋, intOf_eq_ok.mpr ⟨⟨by omega, by omega⟩, rfl⟩, ?_⟩
    rw [if_pos hfloor]
    exact intOf_eq_ok.mpr ⟨⟨by omega, by omega⟩, rfl⟩

lemma queryLocation_eq_ok {p : V3D} {position : VoxelLocation} :
    queryLocation p = .ok position ↔ ∀ j, queryKey (p j) = .ok (position j) := by
  unfold queryLocation
  rw [vio_bind_eq_ok, Fin.forall_fin_succ, Fin.forall_fin_two]
  constructor
  · rintro ⟨x, hx, h⟩
    obtain ⟨y, hy, h⟩ := vio_bind_eq_ok.mp h
    obtain ⟨z, hz, h⟩ := vio_bind_eq_ok.mp h
    obtain rfl := Except.ok.inj h
    exact ⟨hx, hy, hz⟩
  · rintro ⟨hx, hy, hz⟩
    refine ⟨position 0, hx, vio_bind_eq_ok.mpr ⟨position 1, hy,
      vio_bind_eq_ok.mpr ⟨position 2, hz, ?_⟩⟩⟩
    refine congrArg Except.ok ?_
    ext j
    fin_cases j <;> rfl

/-! ## Stored and searched -/

/-- From zero on, or on a wall below zero; within the range of an `int`. -/
def KeyAgrees (x : ℚ) : Prop :=
  0 ≤ x ∧ x < 1073741824 ∨ ∃ n : ℤ, -2147483648 < n ∧ n < 0 ∧ x = n / 2

/-- The query key is the stored key exactly there. -/
lemma queryKey_eq_voxelKey_iff (x : ℚ) :
    queryKey x = .ok (voxelKey (1 / 2) x) ↔ KeyAgrees x := by
  by_cases hx : 0 ≤ x
  · have hkey : voxelKey (1 / 2) x = ⌊2 * x⌋ := by
      rw [voxelKey_of_nonneg (by rw [div_half]; linarith), div_half]
    rw [queryKey_of_nonneg hx, hkey]
    constructor
    · rintro ⟨hlt, -⟩
      exact .inl ⟨hx, hlt⟩
    · rintro (⟨-, hlt⟩ | ⟨n, -, hn, rfl⟩)
      · exact ⟨hlt, rfl⟩
      · have hneg : (n : ℚ) < 0 := by exact_mod_cast hn
        linarith
  · have hneg : x < 0 := not_le.mp hx
    have hkey : voxelKey (1 / 2) x = ⌈2 * x⌉ - 1 := by
      rw [voxelKey_of_neg (by rw [div_half]; linarith), div_half]
    rw [queryKey_of_neg hneg, hkey]
    constructor
    · rintro ⟨hlo, hk⟩
      have hfloor := Int.floor_le (2 * x)
      have hceil := Int.le_ceil (2 * x)
      rw [show ⌈2 * x⌉ = ⌊2 * x⌋ by omega] at hceil
      refine .inr ⟨⌊2 * x⌋, hlo, Int.floor_lt.mpr (by push_cast; linarith), ?_⟩
      linarith
    · rintro (⟨hnonneg, -⟩ | ⟨n, hlo, -, rfl⟩)
      · linarith
      · have htwice : 2 * ((n : ℚ) / 2) = n := by ring
        rw [htwice, Int.floor_intCast, Int.ceil_intCast]
        exact ⟨hlo, rfl⟩

/-- No point of the map is kept under the number the next point will have. -/
def VIOManager.Fresh (v : VIOManager) : Prop :=
  ∀ position, v.points.length ∉ v.featMap.bucket position

/-- The voxel where a search at `p` looks holds the `i`-th point. -/
def VIOManager.Finds (v : VIOManager) (p : V3D) (i : ℕ) : Prop :=
  ∃ position, queryLocation p = .ok position ∧ i ∈ v.featMap.bucket position

/-- A search finds the point just inserted exactly when its key is the one of the insertion. -/
lemma finds_inserted_iff {v : VIOManager} (hv : v.Fresh) (pt : VisualPoint) (q : V3D) :
    (v.insertPointIntoVoxelMap pt).Finds q v.points.length ↔
      queryLocation q = .ok (insertLocation pt.pos) := by
  have hbucket : ∀ position, v.points.length ∈
      (v.insertPointIntoVoxelMap pt).featMap.bucket position ↔
        position = insertLocation pt.pos := by
    intro position
    by_cases hpos : position = insertLocation pt.pos
    · simp [VIOManager.insertPointIntoVoxelMap, FeatMap.push, FeatMap.bucket, hpos]
    · have hold : v.points.length ∉ (v.featMap.find position).getD [] := hv position
      simp [VIOManager.insertPointIntoVoxelMap, FeatMap.push, FeatMap.bucket, hpos, hold]
  constructor
  · rintro ⟨position, hquery, hmem⟩
    rw [hquery, (hbucket position).mp hmem]
  · intro hquery
    exact ⟨_, hquery, (hbucket _).mpr rfl⟩

/-- Below zero the middle of a half-metre tile is searched one tile too low. -/
lemma tile_middle_of_neg {n : ℤ} (hn : n < 0) :
    let x : ℚ := (2 * n - 1) / 4
    voxelKey (1 / 2) x = n - 1 ∧ queryKey x ≠ .ok (n - 1) := by
  intro x
  have hneg : (n : ℚ) < 0 := by exact_mod_cast hn
  have htwice : 2 * x = n - 1 / 2 := by
    show 2 * ((2 * (n : ℚ) - 1) / 4) = _
    ring
  have hx : x < 0 := by linarith
  have hceil : ⌈2 * x⌉ = n := by
    rw [htwice, Int.ceil_eq_iff]
    constructor <;> linarith
  have hfloor : ⌊2 * x⌋ = n - 1 := by
    rw [htwice, Int.floor_eq_iff]
    push_cast
    constructor <;> linarith
  refine ⟨?_, fun hquery => ?_⟩
  · rw [voxelKey_of_neg (by rw [div_half]; linarith), div_half, hceil]
  · have hk := ((queryKey_of_neg hx _).mp hquery).2
    omega

/-- From zero on every coordinate of a tile is searched under the tile's key. -/
lemma queryKey_of_same_tile {x y : ℚ} (hx : 0 ≤ x) (hlt : x < 1073741824)
    (h : voxelKey (1 / 2) y = voxelKey (1 / 2) x) : queryKey y = .ok (voxelKey (1 / 2) x) := by
  have hkey : voxelKey (1 / 2) x = ⌊2 * x⌋ := by
    rw [voxelKey_of_nonneg (by rw [div_half]; linarith), div_half]
  have hbounds := voxelKey_bounds (show (0 : ℚ) < 1 / 2 by norm_num) y
  rw [h, hkey] at hbounds
  have hfloor : (0 : ℚ) ≤ ⌊2 * x⌋ := by exact_mod_cast Int.floor_nonneg.mpr (by linarith)
  have hy : 0 ≤ y := by linarith [hbounds.1]
  have hyfloor : ⌊2 * y⌋ = ⌊2 * x⌋ := by
    rw [← hkey, ← h, voxelKey_of_nonneg (by rw [div_half]; linarith), div_half]
  have hxfloor : ⌊2 * x⌋ < 2147483648 := Int.floor_lt.mpr (by push_cast; linarith)
  refine (queryKey_of_nonneg hy _).mpr ⟨?_, by rw [hkey, hyfloor]⟩
  have hylt := Int.lt_floor_add_one (2 * y)
  rw [hyfloor] at hylt
  have hle : (⌊2 * x⌋ : ℚ) + 1 ≤ 2147483648 := by exact_mod_cast hxfloor
  linarith

/-- Every place of a voxel from zero on, and of no other, is searched under the voxel's key. -/
lemma voxel_searched_iff (p : V3D) :
    (∀ q, insertLocation q = insertLocation p → queryLocation q = .ok (insertLocation p)) ↔
      ∀ j, 0 ≤ p j ∧ p j < 1073741824 := by
  constructor
  · intro h j
    have hagrees := (queryKey_eq_voxelKey_iff (p j)).mp (queryLocation_eq_ok.mp (h p rfl) j)
    rcases hagrees with hnonneg | ⟨n, -, hn, hp⟩
    · exact hnonneg
    · exfalso
      have hneg : (n : ℚ) < 0 := by exact_mod_cast hn
      have hkey : voxelKey (1 / 2) (p j) = n - 1 := by
        rw [voxelKey_of_neg (by rw [div_half, hp]; linarith), div_half, hp,
          show 2 * ((n : ℚ) / 2) = n by ring, Int.ceil_intCast]
      obtain ⟨hmiddle, hsearched⟩ := tile_middle_of_neg hn
      let q : V3D := fun i => if i = j then (2 * n - 1) / 4 else p i
      have hsame : insertLocation q = insertLocation p := by
        funext i
        show voxelKey (1 / 2) (if i = j then _ else p i) = voxelKey (1 / 2) (p i)
        by_cases hi : i = j
        · rw [if_pos hi, hi, hkey, hmiddle]
        · rw [if_neg hi]
      have hquery := queryLocation_eq_ok.mp (h q hsame) j
      rw [show q j = (2 * n - 1) / 4 from if_pos rfl,
        show insertLocation p j = n - 1 from hkey] at hquery
      exact hsearched hquery
  · intro h q hq
    refine queryLocation_eq_ok.mpr fun j => ?_
    exact queryKey_of_same_tile (h j).1 (h j).2 (congrFun hq j)

/-- **When a visual point is found.**  A search at the point's own coordinates, for a scan point or
a sample of a ray, computes the key it is stored under, and finds it, exactly when each coordinate
is non-negative or a negative multiple of half a metre; every search in its voxel does so exactly
when all coordinates are non-negative.  Both within the range of the query's `int`. -/
theorem visualPoint_found_iff (pt : VisualPoint) :
    (queryLocation pt.pos = .ok (insertLocation pt.pos) ↔ ∀ j, KeyAgrees (pt.pos j)) ∧
      (∀ v : VIOManager, v.Fresh →
        ((v.insertPointIntoVoxelMap pt).Finds pt.pos v.points.length ↔
          ∀ j, KeyAgrees (pt.pos j)) ∧
        ((∀ q, insertLocation q = insertLocation pt.pos →
          (v.insertPointIntoVoxelMap pt).Finds q v.points.length) ↔
            ∀ j, 0 ≤ pt.pos j ∧ pt.pos j < 1073741824)) := by
  have hown : queryLocation pt.pos = .ok (insertLocation pt.pos) ↔ ∀ j, KeyAgrees (pt.pos j) := by
    rw [queryLocation_eq_ok]
    exact forall_congr' fun j => queryKey_eq_voxelKey_iff (pt.pos j)
  refine ⟨hown, fun v hv => ⟨?_, ?_⟩⟩
  · rw [finds_inserted_iff hv]
    exact hown
  · rw [← voxel_searched_iff]
    exact forall_congr' fun q => imp_congr_right fun _ => finds_inserted_iff hv pt q

/-- A point in front of the vehicle is found in a map that held nothing before. -/
theorem visualPoint_found_front :
    (({} : VIOManager).insertPointIntoVoxelMap { pos := ![3, 1 / 4, 0] }).Finds
      ![3, 1 / 4, 0] 0 := by
  have hfresh : ({} : VIOManager).Fresh := fun position => List.not_mem_nil
  refine ((visualPoint_found_iff { pos := ![3, 1 / 4, 0] }).2 {} hfresh).1.mpr ?_
  intro j
  fin_cases j <;> exact .inl (by norm_num)

/-- A point ten centimetres to the right is stored in the voxel `-1` and searched in `-2`. -/
theorem visualPoint_right_not_found :
    insertLocation ![0, -1 / 10, 0] = ![0, -1, 0] ∧
      queryLocation ![0, -1 / 10, 0] = .ok ![0, -2, 0] ∧
      ¬(({} : VIOManager).insertPointIntoVoxelMap { pos := ![0, -1 / 10, 0] }).Finds
        ![0, -1 / 10, 0] 0 := by
  have hquery : queryLocation ![0, -1 / 10, 0] = .ok ![0, -2, 0] :=
    queryLocation_eq_ok.mpr (by decide +kernel)
  refine ⟨by decide +kernel, hquery, ?_⟩
  rintro ⟨position, hposition, hmem⟩
  rw [hquery] at hposition
  obtain rfl := Except.ok.inj hposition
  revert hmem
  decide +kernel

/-! ## The keys for the LiDAR map -/

/-- The half-metre tile of a coordinate and its tile of side `s` have one number. -/
def TilesAgree (s x : ℚ) : Prop :=
  if 0 ≤ x then ⌊2 * x⌋ * s ≤ x ∧ x < (⌊2 * x⌋ + 1) * s
  else (⌈2 * x⌉ - 1) * s < x ∧ x ≤ ⌈2 * x⌉ * s

/-- The same for the number a sample of a ray is searched under, which below zero is one less than
the floor; within the range of an `int`. -/
def RayTilesAgree (s x : ℚ) : Prop :=
  if 0 ≤ x then x < 1073741824 ∧ ⌊2 * x⌋ * s ≤ x ∧ x < (⌊2 * x⌋ + 1) * s
  else -2147483648 < ⌊2 * x⌋ ∧ (⌊2 * x⌋ - 1) * s < x ∧ x ≤ ⌊2 * x⌋ * s

instance (s x : ℚ) : Decidable (TilesAgree s x) := by unfold TilesAgree; infer_instance

instance (s x : ℚ) : Decidable (RayTilesAgree s x) := by unfold RayTilesAgree; infer_instance

/-- A number is the stored key of a coordinate from zero on. -/
lemma eq_voxelKey_of_nonneg {s x : ℚ} (hs : 0 < s) (hx : 0 ≤ x) (n : ℤ) :
    n = voxelKey s x ↔ n * s ≤ x ∧ x < (n + 1) * s := by
  rw [voxelKey_of_nonneg (div_nonneg hx hs.le), eq_comm, Int.floor_eq_iff, le_div_iff₀ hs,
    div_lt_iff₀ hs]

/-- A number, less one, is the stored key of a coordinate below zero. -/
lemma pred_eq_voxelKey_of_neg {s x : ℚ} (hs : 0 < s) (hx : x < 0) (n : ℤ) :
    n - 1 = voxelKey s x ↔ (n - 1) * s < x ∧ x ≤ n * s := by
  have hpred : n - 1 = ⌈x / s⌉ - 1 ↔ ⌈x / s⌉ = n := by omega
  rw [voxelKey_of_neg (div_neg_of_neg_of_pos hx hs), hpred, Int.ceil_eq_iff, lt_div_iff₀ hs,
    div_le_iff₀ hs]

lemma voxelKey_half_eq_iff {s : ℚ} (hs : 0 < s) (x : ℚ) :
    voxelKey (1 / 2) x = voxelKey s x ↔ TilesAgree s x := by
  unfold TilesAgree
  by_cases hx : 0 ≤ x
  · have hkey : voxelKey (1 / 2) x = ⌊2 * x⌋ := by
      rw [voxelKey_of_nonneg (by rw [div_half]; linarith), div_half]
    rw [if_pos hx, hkey]
    exact eq_voxelKey_of_nonneg hs hx _
  · have hneg : x < 0 := not_le.mp hx
    have hkey : voxelKey (1 / 2) x = ⌈2 * x⌉ - 1 := by
      rw [voxelKey_of_neg (by rw [div_half]; linarith), div_half]
    rw [if_neg hx, hkey]
    exact pred_eq_voxelKey_of_neg hs hneg _

lemma queryKey_eq_iff {s : ℚ} (hs : 0 < s) (x : ℚ) :
    queryKey x = .ok (voxelKey s x) ↔ RayTilesAgree s x := by
  unfold RayTilesAgree
  by_cases hx : 0 ≤ x
  · rw [if_pos hx, queryKey_of_nonneg hx, eq_comm (a := voxelKey s x),
      eq_voxelKey_of_nonneg hs hx]
  · have hneg : x < 0 := not_le.mp hx
    rw [if_neg hx, queryKey_of_neg hneg, eq_comm (a := voxelKey s x),
      pred_eq_voxelKey_of_neg hs hneg]

/-- Between two different tile sizes some coordinate has tiles of different numbers. -/
lemma exists_not_tilesAgree {s : ℚ} (hs : 0 < s) (hne : s ≠ 1 / 2) : ∃ x, ¬TilesAgree s x := by
  rcases lt_or_gt_of_ne hne with hlt | hgt
  · -- the first wall of the smaller tiles lies inside the first half-metre tile
    refine ⟨s, fun h => ?_⟩
    have hfloor : ⌊2 * s⌋ = 0 := Int.floor_eq_iff.mpr (by constructor <;> push_cast <;> linarith)
    rw [TilesAgree, if_pos hs.le, hfloor] at h
    push_cast at h
    linarith [h.2]
  · -- half a metre lies inside the first of the larger tiles
    refine ⟨1 / 2, fun h => ?_⟩
    have hfloor : ⌊2 * (1 / 2 : ℚ)⌋ = 1 := by norm_num
    rw [TilesAgree, if_pos (by norm_num), hfloor] at h
    push_cast at h
    linarith [h.1]

/-- No tile size suits the search of a ray: a little below zero, in the tile `-1`, it names the tile
`-2`. -/
lemma exists_not_rayTilesAgree {s : ℚ} (hs : 0 < s) : ∃ x, ¬RayTilesAgree s x := by
  by_cases hlt : s < 1
  · refine ⟨-(s / 4), fun h => ?_⟩
    have hneg : ¬(0 : ℚ) ≤ -(s / 4) := by linarith
    have hfloor : ⌊2 * -(s / 4)⌋ = -1 :=
      Int.floor_eq_iff.mpr (by constructor <;> push_cast <;> linarith)
    rw [RayTilesAgree, if_neg hneg, hfloor] at h
    push_cast at h
    linarith [h.2.2]
  · refine ⟨-(1 / 4), fun h => ?_⟩
    have hfloor : ⌊2 * -(1 / 4 : ℚ)⌋ = -1 := Int.floor_eq_iff.mpr (by norm_num)
    rw [RayTilesAgree, if_neg (by norm_num), hfloor] at h
    push_cast at h
    linarith [h.2.2]

/-- **When the visual part looks up the octree of a point.**  At a point, the reference update and
the ray casting use the key under which the point is stored in the LiDAR map exactly when along each
axis the tile they name has that number.  At every point the reference update does so only for a
voxel size of half a metre, and the ray casting for none. -/
theorem planeMap_key_iff (cfg : VoxelMapConfig) :
    (∀ p, (referenceLocation p = voxelLocation cfg.maxVoxelSize p ↔
        ∀ j, TilesAgree cfg.maxVoxelSize (p j)) ∧
      (queryLocation p = .ok (voxelLocation cfg.maxVoxelSize p) ↔
        ∀ j, RayTilesAgree cfg.maxVoxelSize (p j))) ∧
      ((∀ p, referenceLocation p = voxelLocation cfg.maxVoxelSize p) ↔
        cfg.maxVoxelSize = 1 / 2) ∧
      ¬∀ p, queryLocation p = .ok (voxelLocation cfg.maxVoxelSize p) := by
  have hs := cfg.maxVoxelSize_pos
  have href : ∀ p, referenceLocation p = voxelLocation cfg.maxVoxelSize p ↔
      ∀ j, TilesAgree cfg.maxVoxelSize (p j) := by
    intro p
    rw [funext_iff]
    exact forall_congr' fun j => voxelKey_half_eq_iff hs (p j)
  have hray : ∀ p, queryLocation p = .ok (voxelLocation cfg.maxVoxelSize p) ↔
      ∀ j, RayTilesAgree cfg.maxVoxelSize (p j) := by
    intro p
    rw [queryLocation_eq_ok]
    exact forall_congr' fun j => queryKey_eq_iff hs (p j)
  refine ⟨fun p => ⟨href p, hray p⟩, ⟨fun h => ?_, fun h p => ?_⟩, fun h => ?_⟩
  · by_contra hne
    obtain ⟨x, hx⟩ := exists_not_tilesAgree hs hne
    exact hx ((href fun _ => x).mp (h _) 0)
  · rw [h]
    rfl
  · obtain ⟨x, hx⟩ := exists_not_rayTilesAgree hs
    exact hx ((hray fun _ => x).mp (h _) 0)

/-- A point a quarter of a metre behind, in voxels of half a metre, and a point 0.75 m ahead in
voxels of one metre: the octrees of the voxels `-2` and `1` are searched for points stored in `-1`
and `0`. -/
theorem planeMap_key_differs :
    (queryLocation ![-1 / 4, 0, 0] = .ok ![-2, 0, 0] ∧
      voxelLocation (1 / 2) ![-1 / 4, 0, 0] = ![-1, 0, 0]) ∧
    referenceLocation ![3 / 4, 0, 0] = ![1, 0, 0] ∧
      voxelLocation 1 ![3 / 4, 0, 0] = ![0, 0, 0] := by
  refine ⟨⟨queryLocation_eq_ok.mpr (by decide +kernel), by decide +kernel⟩, ?_, ?_⟩
  · decide +kernel
  · decide +kernel

end FastLivo2
