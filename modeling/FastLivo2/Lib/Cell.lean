import Mathlib

/-!
# Cells and their orthants

A cell is a closed axis-parallel cube given by its centre and a quarter of its side, in
coordinates indexed by any type.  A point's side of the centre along each axis names one of the
cell's orthants; the points on a dividing plane are counted with the lower side.  The orthant is
again a cell (`child`), and a point of a cell lies in the child its sides name (`mem_child`).
Cells of one size tile the space along integer keys (`grid`).
-/

namespace FastLivo2

/-- A closed cube: its centre and a quarter of its side. -/
structure Cell (ι K : Type*) where
  centre : ι → K
  quarter : K

namespace Cell

variable {ι K : Type*} [Field K] [LinearOrder K]

/-- The point lies in the cube. -/
def Mem (c : Cell ι K) (p : ι → K) : Prop :=
  ∀ j, c.centre j - 2 * c.quarter ≤ p j ∧ p j ≤ c.centre j + 2 * c.quarter

/-- On which side of the centre a point lies, along each axis. -/
def side (c : Cell ι K) (p : ι → K) : ι → Bool := fun j => decide (c.centre j < p j)

/-- The orthant on the given sides. -/
def child (c : Cell ι K) (s : ι → Bool) : Cell ι K where
  centre := fun j => c.centre j + (2 * (if s j then 1 else 0) - 1) * c.quarter
  quarter := c.quarter / 2

/-- The cell of a tiling by cubes of the given side. -/
def grid (size : K) (k : ι → ℤ) : Cell ι K where
  centre := fun j => (1 / 2 + (k j : K)) * size
  quarter := size / 4

variable [IsStrictOrderedRing K]

/-- A point of a cell lies in the orthant its sides name. -/
theorem mem_child {c : Cell ι K} {p : ι → K} (h : c.Mem p) : (c.child (c.side p)).Mem p := by
  intro j
  obtain ⟨hlo, hhi⟩ := h j
  by_cases hside : c.centre j < p j
  · simp only [child, side, hside, decide_true, if_true]
    constructor <;> linarith
  · simp only [child, side, hside, decide_false, Bool.false_eq_true, if_false]
    constructor <;> linarith

/-- A point between the walls of a grid cell lies in it. -/
theorem mem_grid {size : K} {k : ι → ℤ} {p : ι → K} :
    (grid size k).Mem p ↔ ∀ j, k j * size ≤ p j ∧ p j ≤ (k j + 1) * size := by
  have hlo : ∀ j, (1 / 2 + (k j : K)) * size - 2 * (size / 4) = k j * size := fun j => by ring
  have hhi : ∀ j, (1 / 2 + (k j : K)) * size + 2 * (size / 4) = (k j + 1) * size :=
    fun j => by ring
  simp only [Mem, grid, hlo, hhi]

end Cell

end FastLivo2
