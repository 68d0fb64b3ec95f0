import FastLivo2.Lib.RowMajor
import FastLivo2.VisualMap
import FastLivo2.PixelReads

/-!
# The index of a grid cell

`initializeVIO` divides the image into cells of `grid_size` pixels, of which `grid_n_width` whole
ones fit beside and `grid_n_height` below each other; what is left at the right and the bottom
belongs to no column and no row.  `index` numbers the cells by rows, and the arrays over the grid
have `length` places.  Which pixels are looked up is for `border` to say, and that follows from the
settings of the patches.

So the index of a pixel right of the last whole cell is that of a cell in the next row, or past the
arrays.  `Fits` says when no pixel in the frame is there.  Settings are integers and may be
negative: with a negative `grid_size` the columns count backwards.  They are unbounded here: an
overflow of the code's `int` is left out.
-/

namespace FastLivo2

/-! ## Settings -/

/-- The settings `initializeVIO` derives the grid from, where it does not divide by a zero number of
rows. -/
structure GridSettings where
  gridSizeParam : ℤ := 5
  gridNHeightParam : ℤ := 17
  patchSize : ℤ := 8
  patchPyrimidLevel : ℕ := 4
  rows_ne_zero : gridSizeParam ≤ 10 → gridNHeightParam ≠ 0 := by decide

namespace GridSettings

variable (s : GridSettings) (cam : Camera)

/-- `grid_size`. -/
def gridSize : ℤ :=
  if 10 < s.gridSizeParam then s.gridSizeParam else (cam.height : ℤ).tdiv s.gridNHeightParam

/-- The `ceil` is taken of a quotient of integers. -/
def gridNWidth : ℤ := (cam.width : ℤ).tdiv (s.gridSize cam)

def gridNHeight : ℤ := (cam.height : ℤ).tdiv (s.gridSize cam)

def length : ℤ := s.gridNWidth cam * s.gridNHeight cam

def border : ℤ := (s.patchSize.tdiv 2 + 1) * 2 ^ s.patchPyrimidLevel

/-- `index` of a projection. -/
def index (pc : V2D) : ℤ :=
  truncInt (pc 1 / s.gridSize cam) * s.gridNWidth cam + truncInt (pc 0 / s.gridSize cam)

/-- The frame check in front of every look-up. -/
def Accepts (pc : V2D) : Prop := cam.isInFrame (castInt pc) s.border = true

/-- The row and the column of the cell a pixel lies in. -/
def cell (pc : V2D) : ℤ × ℤ :=
  (⌊pc 1 / |s.gridSize cam|⌋, ⌊pc 0 / |s.gridSize cam|⌋)

/-- Grid indexing: no division by zero, every index in range, and one index for each cell. -/
structure Indexes : Prop where
  size_ne_zero : s.gridSize cam ≠ 0
  index_lt : ∀ pc, s.Accepts cam pc → 0 ≤ s.index cam pc ∧ s.index cam pc < s.length cam
  index_eq_iff : ∀ pc pc', s.Accepts cam pc → s.Accepts cam pc' →
    (s.index cam pc = s.index cam pc' ↔ s.cell cam pc = s.cell cam pc')

/-! ## The condition -/

/-- The row and the column of the first pixel in the frame. -/
def firstCell : ℤ := s.border / |s.gridSize cam|

/-- The row or column of the last pixel in the frame, along an axis of some size. -/
def lastCell (size : ℕ) : ℤ := (size - s.border - 1) / |s.gridSize cam|

/-- The whole cells along an axis. -/
def wholeCells (size : ℕ) : ℤ := size / |s.gridSize cam|

/-- There is a cell size, and if a pixel is in the frame: the border is positive, the cells in the
frame are of one row or fewer columns than a row has, and the least and the greatest of their
indices are in range. -/
def Fits : Prop :=
  s.gridSize cam ≠ 0 ∧
    ((cam.width : ℤ) ≤ 2 * s.border ∨ (cam.height : ℤ) ≤ 2 * s.border ∨
      0 < s.border ∧
        (s.firstCell cam = s.lastCell cam cam.height ∨
          s.lastCell cam cam.width - s.firstCell cam < s.wholeCells cam cam.width) ∧
        let sign := (s.gridSize cam).sign
        let first := sign * s.firstCell cam
        let last := sign * s.lastCell cam cam.width
        0 ≤ s.firstCell cam * s.wholeCells cam cam.width + min first last ∧
          s.lastCell cam cam.height * s.wholeCells cam cam.width + max first last <
            s.wholeCells cam cam.width * s.wholeCells cam cam.height)

instance : Decidable (s.Fits cam) := inferInstanceAs (Decidable (_ ∧ _))

/-! ## Cells -/

variable {s cam}

lemma accepts_iff {pc : V2D} : s.Accepts cam pc ↔
    (s.border ≤ truncInt (pc 0) ∧ truncInt (pc 0) < cam.width - s.border) ∧
      s.border ≤ truncInt (pc 1) ∧ truncInt (pc 1) < cam.height - s.border := by
  unfold Accepts Camera.isInFrame castInt
  rw [decide_eq_true_iff, and_assoc]

/-- A coordinate divided by a cell size of either sign. -/
lemma truncInt_div {x : ℚ} {g : ℤ} (hx : 0 ≤ x) (hg : g ≠ 0) :
    truncInt (x / g) = g.sign * ⌊x / (|g| : ℤ)⌋ := by
  rcases lt_or_gt_of_ne hg with hneg | hpos
  · have habs : |g| = -g := abs_of_neg hneg
    rw [Int.sign_eq_neg_one_of_neg hneg, habs, Int.cast_neg, div_neg, Int.floor_neg]
    have hle : x / g ≤ 0 := div_nonpos_of_nonneg_of_nonpos hx (by exact_mod_cast hneg.le)
    unfold truncInt
    split_ifs with hzero
    · have heq : x / g = 0 := le_antisymm hle hzero
      simp [heq]
    · ring
  · have hge : 0 ≤ x / g := div_nonneg hx (by exact_mod_cast hpos.le)
    rw [Int.sign_eq_one_of_pos hpos, abs_of_pos hpos, one_mul]
    exact if_pos hge

lemma tdiv_eq (n : ℕ) (g : ℤ) : (n : ℤ).tdiv g = g.sign * (n / |g|) := by
  rw [Int.tdiv_eq_ediv_of_nonneg (by positivity)]
  rcases lt_trichotomy g 0 with hneg | rfl | hpos
  · rw [Int.sign_eq_neg_one_of_neg hneg, abs_of_neg hneg, Int.ediv_neg]
    ring
  · simp
  · rw [Int.sign_eq_one_of_pos hpos, abs_of_pos hpos, one_mul]

lemma sign_cases {g : ℤ} (hg : g ≠ 0) : g.sign = 1 ∨ g.sign = -1 := by
  rcases lt_or_gt_of_ne hg with hneg | hpos
  · exact .inr (Int.sign_eq_neg_one_of_neg hneg)
  · exact .inl (Int.sign_eq_one_of_pos hpos)

lemma sign_mul_self {g : ℤ} (hg : g ≠ 0) : g.sign * g.sign = 1 := by
  rcases sign_cases hg with h | h <;> rw [h] <;> rfl

/-- The array lengths do not tell the sign of the cell size. -/
lemma length_eq (hg : s.gridSize cam ≠ 0) :
    s.length cam = s.wholeCells cam cam.width * s.wholeCells cam cam.height := by
  have hsign := sign_mul_self hg
  unfold length gridNWidth gridNHeight wholeCells
  rw [tdiv_eq, tdiv_eq, mul_mul_mul_comm, hsign, one_mul]

/-- The index is the row-major index of the cell. -/
lemma index_eq {pc : V2D} (hg : s.gridSize cam ≠ 0) (h₀ : 0 ≤ pc 0) (h₁ : 0 ≤ pc 1) :
    s.index cam pc =
      RowMajor.index (s.wholeCells cam cam.width) (s.gridSize cam).sign (s.cell cam pc) := by
  have hsign := sign_mul_self hg
  unfold index gridNWidth RowMajor.index cell wholeCells
  rw [truncInt_div h₀ hg, truncInt_div h₁ hg, tdiv_eq, mul_mul_mul_comm, hsign, one_mul]

/-- Where the border is positive, the pixels in the frame are positive. -/
lemma Accepts.floor {pc : V2D} (hb : 0 < s.border) (h : s.Accepts cam pc) :
    (0 ≤ pc 0 ∧ truncInt (pc 0) = ⌊pc 0⌋) ∧ 0 ≤ pc 1 ∧ truncInt (pc 1) = ⌊pc 1⌋ := by
  obtain ⟨⟨h₀, -⟩, h₁, -⟩ := accepts_iff.mp h
  exact ⟨truncInt_eq_floor (by omega), truncInt_eq_floor (by omega)⟩

lemma floor_div_abs (x : ℚ) (g : ℤ) : ⌊x / (|g| : ℤ)⌋ = ⌊x⌋ / |g| := by
  obtain ⟨a, ha⟩ := Int.eq_ofNat_of_zero_le (abs_nonneg g)
  rw [ha, Int.cast_natCast]
  exact Int.floor_div_natCast x a

/-- The cells of the frame, as a rectangle. -/
def frameCells (s : GridSettings) (cam : Camera) : Set (ℤ × ℤ) :=
  RowMajor.cells (s.firstCell cam) (s.lastCell cam cam.height) (s.firstCell cam)
    (s.lastCell cam cam.width)

lemma Accepts.cell_mem {pc : V2D} (hg : s.gridSize cam ≠ 0) (hb : 0 < s.border)
    (h : s.Accepts cam pc) : s.cell cam pc ∈ s.frameCells cam := by
  obtain ⟨⟨-, hx⟩, -, hy⟩ := h.floor hb
  obtain ⟨⟨hx₀, hx₁⟩, hy₀, hy₁⟩ := accepts_iff.mp h
  have habs : 0 < |s.gridSize cam| := abs_pos.mpr hg
  unfold cell
  rw [floor_div_abs, floor_div_abs, ← hx, ← hy]
  exact RowMajor.mem_cells.mpr
    ⟨⟨Int.ediv_le_ediv habs hy₀, Int.ediv_le_ediv habs (by omega)⟩,
      Int.ediv_le_ediv habs hx₀, Int.ediv_le_ediv habs (by omega)⟩

/-- The pixel of a column and a row. -/
def pixelAt (u v : ℚ) : V2D := ![u, v]

lemma accepts_pixelAt {u v : ℚ} : s.Accepts cam (pixelAt u v) ↔
    (s.border ≤ truncInt u ∧ truncInt u < cam.width - s.border) ∧
      s.border ≤ truncInt v ∧ truncInt v < cam.height - s.border :=
  accepts_iff

lemma cell_pixelAt (u v : ℚ) :
    s.cell cam (pixelAt u v) = (⌊v⌋ / |s.gridSize cam|, ⌊u⌋ / |s.gridSize cam|) := by
  rw [← floor_div_abs, ← floor_div_abs]
  rfl

/-- Every cell of the rectangle has a pixel. -/
lemma exists_accepts (hg : s.gridSize cam ≠ 0) (hw : 2 * s.border < cam.width)
    (hh : 2 * s.border < cam.height) {p : ℤ × ℤ} (hp : p ∈ s.frameCells cam) :
    ∃ pc, s.Accepts cam pc ∧ s.cell cam pc = p := by
  obtain ⟨⟨hk₀, hk₁⟩, hc₀, hc₁⟩ := hp
  have habs : 0 < |s.gridSize cam| := abs_pos.mpr hg
  obtain ⟨v, hv, hrow⟩ := RowMajor.exists_ediv_eq habs (by omega) hk₀ hk₁
  obtain ⟨u, hu, hcol⟩ := RowMajor.exists_ediv_eq habs (by omega) hc₀ hc₁
  refine ⟨pixelAt u v, accepts_pixelAt.mpr ?_, ?_⟩
  · rw [truncInt_intCast, truncInt_intCast]
    omega
  · rw [cell_pixelAt, Int.floor_intCast, Int.floor_intCast, hrow, hcol]

/-! ## The index -/

/-- Without a pixel in the frame there is nothing to look up. -/
lemma indexes_of_empty (hg : s.gridSize cam ≠ 0) (h : ∀ pc, ¬s.Accepts cam pc) :
    s.Indexes cam :=
  ⟨hg, fun pc hpc => absurd hpc (h pc), fun pc _ hpc => absurd hpc (h pc)⟩

/-- With no positive border the pixel half a column left of the image shares its index with the
first, but not its cell. -/
lemma Indexes.border_pos (hw : 2 * s.border < cam.width) (hh : 2 * s.border < cam.height)
    (h : s.Indexes cam) : 0 < s.border := by
  by_contra hb
  have hg := h.size_ne_zero
  have hleft : truncInt (-1 / 2 : ℚ) = 0 := truncInt_eq_zero (by norm_num)
  have hzero : truncInt (0 : ℚ) = 0 := truncInt_eq_zero (by norm_num)
  have hin : s.Accepts cam (pixelAt 0 0) := accepts_pixelAt.mpr (by rw [hzero]; omega)
  have hout : s.Accepts cam (pixelAt (-1 / 2) 0) :=
    accepts_pixelAt.mpr (by rw [hleft, hzero]; omega)
  have hsmall : |(-1 / 2 : ℚ) / s.gridSize cam| < 1 := by
    have hone : (1 : ℚ) ≤ |(s.gridSize cam : ℚ)| := by exact_mod_cast Int.one_le_abs hg
    rw [abs_div, div_lt_one (by linarith)]
    norm_num
    linarith
  have hindex : s.index cam (pixelAt (-1 / 2) 0) = s.index cam (pixelAt 0 0) := by
    have hdiv : truncInt ((-1 / 2 : ℚ) / s.gridSize cam) = truncInt ((0 : ℚ) / s.gridSize cam) := by
      rw [truncInt_eq_zero hsmall, zero_div, hzero]
    exact congrArg (truncInt ((0 : ℚ) / s.gridSize cam) * s.gridNWidth cam + ·) hdiv
  have hcell := (h.index_eq_iff _ _ hout hin).mp hindex
  rw [cell_pixelAt, cell_pixelAt] at hcell
  have hcol := congrArg Prod.snd hcell
  have hfloor : ⌊(-1 / 2 : ℚ)⌋ = -1 := by norm_num
  have habs : 0 < |s.gridSize cam| := abs_pos.mpr hg
  dsimp only at hcol
  rw [hfloor, Int.floor_zero, Int.zero_ediv, Int.neg_one_ediv] at hcol
  rw [Int.sign_eq_one_of_pos habs] at hcol
  omega

/-- The indices over the frame are the row-major indices over its cells. -/
lemma indexes_iff_cells (hg : s.gridSize cam ≠ 0) (hb : 0 < s.border)
    (hw : 2 * s.border < cam.width) (hh : 2 * s.border < cam.height) :
    s.Indexes cam ↔
      Set.InjOn (RowMajor.index (s.wholeCells cam cam.width) (s.gridSize cam).sign)
          (s.frameCells cam) ∧
        ∀ p ∈ s.frameCells cam,
          0 ≤ RowMajor.index (s.wholeCells cam cam.width) (s.gridSize cam).sign p ∧
            RowMajor.index (s.wholeCells cam cam.width) (s.gridSize cam).sign p <
              s.wholeCells cam cam.width * s.wholeCells cam cam.height := by
  have hindex : ∀ pc, s.Accepts cam pc → s.index cam pc =
      RowMajor.index (s.wholeCells cam cam.width) (s.gridSize cam).sign (s.cell cam pc) := by
    intro pc hpc
    obtain ⟨⟨h₀, -⟩, h₁, -⟩ := hpc.floor hb
    exact index_eq hg h₀ h₁
  constructor
  · intro h
    constructor
    · intro p hp q hq heq
      obtain ⟨pc, hpc, rfl⟩ := exists_accepts hg hw hh hp
      obtain ⟨qc, hqc, rfl⟩ := exists_accepts hg hw hh hq
      refine (h.index_eq_iff pc qc hpc hqc).mp ?_
      rw [hindex pc hpc, hindex qc hqc]
      exact heq
    · intro p hp
      obtain ⟨pc, hpc, rfl⟩ := exists_accepts hg hw hh hp
      rw [← hindex pc hpc, ← length_eq hg]
      exact h.index_lt pc hpc
  · rintro ⟨hinj, hrange⟩
    refine ⟨hg, fun pc hpc => ?_, fun pc qc hpc hqc => ?_⟩
    · rw [hindex pc hpc, length_eq hg]
      exact hrange _ (hpc.cell_mem hg hb)
    · rw [hindex pc hpc, hindex qc hqc]
      exact hinj.eq_iff (hpc.cell_mem hg hb) (hqc.cell_mem hg hb)

/-- **Grid indexing.**  For every image and every setting, each pixel in the frame has an index in
the arrays and pixels share one exactly when they share a cell, if and only if the grid fits. -/
theorem indexes_iff (s : GridSettings) (cam : Camera) : s.Indexes cam ↔ s.Fits cam := by
  by_cases hg : s.gridSize cam = 0
  · exact ⟨fun h => absurd hg h.size_ne_zero, fun h => absurd hg h.1⟩
  by_cases hempty : (cam.width : ℤ) ≤ 2 * s.border ∨ (cam.height : ℤ) ≤ 2 * s.border
  · refine ⟨fun _ => ⟨hg, ?_⟩, fun _ => indexes_of_empty hg fun pc hpc => ?_⟩
    · rw [← or_assoc]
      exact .inl hempty
    · have hframe := accepts_iff.mp hpc
      omega
  obtain ⟨hw, hh⟩ := not_or.mp hempty
  by_cases hb : 0 < s.border
  · have habs : 0 < |s.gridSize cam| := abs_pos.mpr hg
    have hrows : s.firstCell cam ≤ s.lastCell cam cam.height :=
      Int.ediv_le_ediv habs (by omega)
    have hcols : s.firstCell cam ≤ s.lastCell cam cam.width :=
      Int.ediv_le_ediv habs (by omega)
    have hW : 0 ≤ s.wholeCells cam cam.width := Int.ediv_nonneg (by omega) habs.le
    rw [indexes_iff_cells hg hb (not_le.mp hw) (not_le.mp hh)]
    unfold frameCells
    rw [RowMajor.injOn_iff hrows hcols hW (sign_cases hg),
      RowMajor.index_mem_range_iff hrows hcols hW (sign_cases hg)]
    constructor
    · rintro ⟨hinj, hrange⟩
      exact ⟨hg, .inr (.inr ⟨hb, hinj, hrange⟩)⟩
    · rintro ⟨-, hw' | hh' | ⟨-, hinj, hrange⟩⟩
      · exact absurd hw' hw
      · exact absurd hh' hh
      · exact ⟨hinj, hrange⟩
  · constructor
    · intro h
      exact absurd (h.border_pos (not_le.mp hw) (not_le.mp hh)) hb
    · rintro ⟨-, hw' | hh' | ⟨hb', -⟩⟩
      · exact absurd hw' hw
      · exact absurd hh' hh
      · exact absurd hb' hb

/-- The usual settings fit the usual camera. -/
example : GridSettings.Fits {} vgaCamera := by decide

/-- Cells of fifty pixels, with patches read on two levels. -/
def coarseGrid : GridSettings where
  gridSizeParam := 50
  patchPyrimidLevel := 1

/-- Twelve columns of fifty pixels leave forty at the right of the image, ten rows twelve at the
bottom. -/
theorem coarseGrid_index :
    (coarseGrid.Accepts vgaCamera (pixelAt 620 501) ∧
        coarseGrid.index vgaCamera (pixelAt 620 501) = 132 ∧ coarseGrid.length vgaCamera = 120) ∧
      (coarseGrid.index vgaCamera (pixelAt 620 100) = coarseGrid.index vgaCamera (pixelAt 20 150) ∧
        coarseGrid.cell vgaCamera (pixelAt 620 100) ≠ coarseGrid.cell vgaCamera (pixelAt 20 150)) ∧
      ¬coarseGrid.Indexes vgaCamera := by
  have hin : coarseGrid.Accepts vgaCamera (pixelAt 620 501) := by
    show Camera.isInFrame _ _ _ = true
    decide +kernel
  have hindex : coarseGrid.index vgaCamera (pixelAt 620 501) = 132 := by decide +kernel
  have hlength : coarseGrid.length vgaCamera = 120 := by decide +kernel
  refine ⟨⟨hin, hindex, hlength⟩, ⟨by decide +kernel, by decide +kernel⟩, fun h => ?_⟩
  have hlt := (h.index_lt _ hin).2
  omega

end GridSettings

/-! ## The look-ups of the visual map -/

namespace VioConfig

variable (cfg : VioConfig) (cam : Camera)

/-- The settings of a manager. -/
def gridSettings (h : cfg.gridSizeParam ≤ 10 → cfg.gridNHeightParam ≠ 0) : GridSettings where
  gridSizeParam := cfg.gridSizeParam
  gridNHeightParam := cfg.gridNHeightParam
  patchSize := cfg.patchSize
  patchPyrimidLevel := cfg.patchPyrimidLevel
  rows_ne_zero hle := by
    have hne := h (by omega)
    omega

variable (h : cfg.gridSizeParam ≤ 10 → cfg.gridNHeightParam ≠ 0)

lemma gridSettings_gridSize : (cfg.gridSettings h).gridSize cam = cfg.gridSize cam := by
  unfold GridSettings.gridSize gridSize gridSettings
  dsimp only
  by_cases hten : 10 < cfg.gridSizeParam
  · rw [if_pos hten, if_pos (by omega)]
  · rw [if_neg hten, if_neg (by omega)]
    rfl

lemma gridSettings_gridNWidth : (cfg.gridSettings h).gridNWidth cam = cfg.gridNWidth cam := by
  unfold GridSettings.gridNWidth gridNWidth
  rw [gridSettings_gridSize]
  rfl

lemma gridSettings_length : (cfg.gridSettings h).length cam = cfg.length cam := by
  unfold GridSettings.length GridSettings.gridNHeight length gridNHeight
  rw [gridSettings_gridNWidth, gridSettings_gridSize]
  rfl

lemma gridSettings_border : (cfg.gridSettings h).border = cfg.border := by
  unfold GridSettings.border border patchSizeHalf gridSettings
  dsimp only
  rw [Int.tdiv_eq_ediv_of_nonneg (by positivity)]
  rfl

end VioConfig

namespace VIOManager

variable {L : VioLibs} {cfg : VioConfig}

/-- **A look-up in a grid that fits** finds the place of the projection's cell. -/
theorem cellIndex_of_fits (h : cfg.gridSizeParam ≤ 10 → cfg.gridNHeightParam ≠ 0)
    (hfits : (cfg.gridSettings h).Fits L.cam) {pc : V2D}
    (hframe : L.cam.isInFrame (castInt pc) cfg.border = true) :
    ∃ n : ℕ, cellIndex L cfg pc = .ok n ∧ (cfg.gridSettings h).index L.cam pc = n := by
  have hindexes := (GridSettings.indexes_iff _ _).mpr hfits
  have haccepts : (cfg.gridSettings h).Accepts L.cam pc := by
    unfold GridSettings.Accepts
    rw [VioConfig.gridSettings_border]
    exact hframe
  have hrange := hindexes.index_lt pc haccepts
  have hsize := hindexes.size_ne_zero
  rw [VioConfig.gridSettings_length] at hrange
  unfold GridSettings.index at hrange ⊢
  rw [VioConfig.gridSettings_gridSize] at hsize
  rw [VioConfig.gridSettings_gridSize, VioConfig.gridSettings_gridNWidth] at hrange ⊢
  refine ⟨_, ?_, (Int.toNat_of_nonneg hrange.1).symm⟩
  unfold cellIndex
  rw [if_neg (by exact_mod_cast hsize)]
  exact if_pos hrange

end VIOManager

end FastLivo2
