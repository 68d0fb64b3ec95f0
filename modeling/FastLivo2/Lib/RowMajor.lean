import Mathlib

/-!
# Row-major indices

The cell in row `k` and column `c` of a grid with rows of `W` cells has the index `k * W + c`; with
the columns numbered backwards it is `k * W - c`.  On a rectangle of cells that may not lie within
the rows, the index tells the cells apart exactly when the rectangle has one row or is narrower than
a row (`injOn_iff`).
-/

namespace FastLivo2

namespace RowMajor

/-- The index of a cell, `sign` being one or minus one. -/
def index (W sign : ℤ) (p : ℤ × ℤ) : ℤ := p.1 * W + sign * p.2

/-- The cells of a rectangle. -/
def cells (k₀ k₁ c₀ c₁ : ℤ) : Set (ℤ × ℤ) := Set.Icc k₀ k₁ ×ˢ Set.Icc c₀ c₁

variable {W sign k₀ k₁ c₀ c₁ : ℤ}

lemma mem_cells {k c : ℤ} :
    (k, c) ∈ cells k₀ k₁ c₀ c₁ ↔ (k₀ ≤ k ∧ k ≤ k₁) ∧ c₀ ≤ c ∧ c ≤ c₁ := Iff.rfl

/-- Within fewer columns than a row has, the row of an index is determined. -/
lemma index_injOn (hsign : sign = 1 ∨ sign = -1) (h : k₀ = k₁ ∨ c₁ - c₀ < W) :
    Set.InjOn (index W sign) (cells k₀ k₁ c₀ c₁) := by
  rintro ⟨k, c⟩ ⟨⟨hk, hk'⟩, hc, hc'⟩ ⟨l, d⟩ ⟨⟨hl, hl'⟩, hd, hd'⟩ heq
  dsimp only [index] at *
  have hrows : k = l := by
    rcases h with hone | hnarrow
    · omega
    · have hdiff : (k - l) * W = sign * (d - c) := by linarith
      -- The difference of the columns is a multiple of the width and smaller than it.
      have hbound : |(k - l) * W| < W := by
        rw [hdiff, abs_mul]
        have hone : |sign| = 1 := by rcases hsign with rfl | rfl <;> rfl
        rw [hone, one_mul, abs_lt]
        constructor <;> omega
      have hpos : 0 < W := by omega
      rw [abs_mul, abs_of_pos hpos] at hbound
      have hlt : |k - l| < 1 := by
        by_contra hge
        exact absurd hbound (not_lt.mpr (le_mul_of_one_le_left hpos.le (not_lt.mp hge)))
      have hzero := Int.abs_lt_one_iff.mp hlt
      omega
  subst hrows
  rcases hsign with rfl | rfl
  · exact Prod.ext rfl (by dsimp only; omega)
  · exact Prod.ext rfl (by dsimp only; omega)

/-- **When the index tells the cells of a rectangle apart.** -/
theorem injOn_iff (hk : k₀ ≤ k₁) (hc : c₀ ≤ c₁) (hW : 0 ≤ W) (hsign : sign = 1 ∨ sign = -1) :
    Set.InjOn (index W sign) (cells k₀ k₁ c₀ c₁) ↔ k₀ = k₁ ∨ c₁ - c₀ < W := by
  refine ⟨fun hinj => ?_, index_injOn hsign⟩
  by_contra hwide
  obtain ⟨hrows, hcols⟩ := not_or.mp hwide
  -- A cell of the first row and one of the second share an index.
  rcases hsign with rfl | rfl
  · have heq : index W 1 (k₀, c₀ + W) = index W 1 (k₀ + 1, c₀) := by
      unfold index
      ring
    have hcell := hinj (mem_cells.mpr ⟨⟨le_rfl, hk⟩, by omega, by omega⟩)
      (mem_cells.mpr ⟨⟨by omega, by omega⟩, le_rfl, hc⟩) heq
    have hrow := congrArg Prod.fst hcell
    dsimp only at hrow
    omega
  · have heq : index W (-1) (k₀, c₀) = index W (-1) (k₀ + 1, c₀ + W) := by
      unfold index
      ring
    have hcell := hinj (mem_cells.mpr ⟨⟨le_rfl, hk⟩, le_rfl, hc⟩)
      (mem_cells.mpr ⟨⟨by omega, by omega⟩, by omega, by omega⟩) heq
    have hrow := congrArg Prod.fst hcell
    dsimp only at hrow
    omega

/-- The least and the greatest index of a rectangle decide whether all are in range. -/
theorem index_mem_range_iff {n : ℤ} (hk : k₀ ≤ k₁) (hc : c₀ ≤ c₁) (hW : 0 ≤ W)
    (hsign : sign = 1 ∨ sign = -1) :
    (∀ p ∈ cells k₀ k₁ c₀ c₁, 0 ≤ index W sign p ∧ index W sign p < n) ↔
      0 ≤ k₀ * W + min (sign * c₀) (sign * c₁) ∧ k₁ * W + max (sign * c₀) (sign * c₁) < n := by
  have hcol : ∀ c, c₀ ≤ c → c ≤ c₁ →
      min (sign * c₀) (sign * c₁) ≤ sign * c ∧ sign * c ≤ max (sign * c₀) (sign * c₁) := by
    intro c h h'
    rcases hsign with rfl | rfl <;> constructor <;> omega
  constructor
  · intro h
    have hcorner : ∀ k c, k₀ ≤ k → k ≤ k₁ → c₀ ≤ c → c ≤ c₁ →
        0 ≤ k * W + sign * c ∧ k * W + sign * c < n :=
      fun k c h₁ h₂ h₃ h₄ => h (k, c) (mem_cells.mpr ⟨⟨h₁, h₂⟩, h₃, h₄⟩)
    have hfirst := hcorner k₀ c₀ le_rfl hk le_rfl hc
    have hfirst' := hcorner k₀ c₁ le_rfl hk hc le_rfl
    have hlast := hcorner k₁ c₀ hk le_rfl le_rfl hc
    have hlast' := hcorner k₁ c₁ hk le_rfl hc le_rfl
    constructor <;> omega
  · rintro ⟨hlow, hhigh⟩ ⟨k, c⟩ ⟨⟨hk₀, hk₁⟩, hc₀, hc₁⟩
    obtain ⟨hmin, hmax⟩ := hcol c hc₀ hc₁
    have hrow := mul_le_mul_of_nonneg_right hk₀ hW
    have hrow' := mul_le_mul_of_nonneg_right hk₁ hW
    dsimp only [index] at *
    constructor <;> omega

/-- Every cell between the first and the last of an interval of pixels has a pixel. -/
lemma exists_ediv_eq {a lo hi c : ℤ} (ha : 0 < a) (hlohi : lo ≤ hi) (hlow : lo / a ≤ c)
    (hhigh : c ≤ hi / a) : ∃ t, (lo ≤ t ∧ t ≤ hi) ∧ t / a = c := by
  rcases hlow.eq_or_lt with rfl | hlt
  · exact ⟨lo, ⟨le_rfl, hlohi⟩, rfl⟩
  · have hstart : lo < c * a := (Int.ediv_lt_iff_lt_mul ha).mp hlt
    have hend : c * a ≤ hi := (Int.le_ediv_iff_mul_le ha).mp hhigh
    exact ⟨c * a, ⟨hstart.le, hend⟩, Int.mul_ediv_cancel c ha.ne'⟩

end RowMajor

end FastLivo2
