import Mathlib

/-!
# Least squares planes

A family of points `p i` and a plane `u ⬝ᵥ x + e = 0`, `u` a unit vector.  The mean of the squared
distances of the points from the plane is a quadratic form of `u` in the scatter matrix of the
points, and a square that vanishes for the plane through their centre (`meanSq_eq`).  So in an
orthonormal basis of eigenvectors of the scatter matrix the best plane has an eigenvector of the
least eigenvalue as its normal, and that eigenvalue is what it leaves (`best_plane`).

When one point moves, the scatter matrix, the centre and the normal move with it.  `response` is
the first-order change of the normal: the only vector orthogonal to it for which the moved normal
solves the moved eigenvalue equation up to second order (`response_spec`, `response_unique`).
-/

namespace FastLivo2

open Matrix

/-! ## Points -/

section Points

variable {ι n K : Type*} [Fintype ι] [Fintype n] [Field K]

/-- The centre of a family of points. -/
def centre (p : ι → n → K) : n → K := (Fintype.card ι : K)⁻¹ • ∑ i, p i

/-- The scatter matrix: the mean of the outer squares, less the outer square of the centre. -/
def scatter (p : ι → n → K) : Matrix n n K :=
  (Fintype.card ι : K)⁻¹ • ∑ i, vecMulVec (p i) (p i) - vecMulVec (centre p) (centre p)

/-- The mean of the squared distances from the plane `u ⬝ᵥ x + e = 0`. -/
def meanSq (p : ι → n → K) (u : n → K) (e : K) : K :=
  (Fintype.card ι : K)⁻¹ * ∑ i, (u ⬝ᵥ p i + e) ^ 2

omit [Fintype ι] in
lemma quad_vecMulVec (u a b : n → K) : u ⬝ᵥ (vecMulVec a b).mulVec u = (u ⬝ᵥ a) * (u ⬝ᵥ b) := by
  rw [vecMulVec_mulVec, dotProduct_smul, MulOpposite.smul_eq_mul_unop, MulOpposite.unop_op,
    dotProduct_comm b u]

lemma dotProduct_centre (p : ι → n → K) (u : n → K) :
    u ⬝ᵥ centre p = (Fintype.card ι : K)⁻¹ * ∑ i, u ⬝ᵥ p i := by
  rw [centre, dotProduct_smul, smul_eq_mul, dotProduct_sum]

lemma quad_scatter (p : ι → n → K) (u : n → K) :
    u ⬝ᵥ (scatter p).mulVec u =
      (Fintype.card ι : K)⁻¹ * ∑ i, (u ⬝ᵥ p i) ^ 2 - (u ⬝ᵥ centre p) ^ 2 := by
  rw [scatter, Matrix.sub_mulVec, dotProduct_sub, quad_vecMulVec, Matrix.smul_mulVec,
    dotProduct_smul, Matrix.sum_mulVec, dotProduct_sum, smul_eq_mul, sq (u ⬝ᵥ centre p)]
  congr 2
  exact Finset.sum_congr rfl fun i _ => by rw [quad_vecMulVec, sq]

variable [CharZero K] [Nonempty ι]

omit [Fintype n] in
lemma card_ne_zero_cast : (Fintype.card ι : K) ≠ 0 := Nat.cast_ne_zero.mpr Fintype.card_ne_zero

/-- **The squared distances.**  Their mean is the quadratic form of the normal, and the square of
the distance of the centre. -/
theorem meanSq_eq (p : ι → n → K) (u : n → K) (e : K) :
    meanSq p u e = u ⬝ᵥ (scatter p).mulVec u + (u ⬝ᵥ centre p + e) ^ 2 := by
  have hcard : (Fintype.card ι : K)⁻¹ * Fintype.card ι = 1 := inv_mul_cancel₀ card_ne_zero_cast
  have hexpand : ∑ i, (u ⬝ᵥ p i + e) ^ 2 =
      ∑ i, (u ⬝ᵥ p i) ^ 2 + 2 * e * ∑ i, u ⬝ᵥ p i + Fintype.card ι * e ^ 2 := by
    have hterm : ∀ i, (u ⬝ᵥ p i + e) ^ 2 = (u ⬝ᵥ p i) ^ 2 + 2 * e * (u ⬝ᵥ p i) + e ^ 2 :=
      fun i => by ring
    simp only [hterm, Finset.sum_add_distrib, ← Finset.mul_sum, Finset.sum_const,
      Finset.card_univ, nsmul_eq_mul]
  calc meanSq p u e
      = (Fintype.card ι : K)⁻¹ * ∑ i, (u ⬝ᵥ p i) ^ 2 +
          2 * e * ((Fintype.card ι : K)⁻¹ * ∑ i, u ⬝ᵥ p i) +
          (Fintype.card ι : K)⁻¹ * Fintype.card ι * e ^ 2 := by
        rw [meanSq, hexpand]
        ring
    _ = u ⬝ᵥ (scatter p).mulVec u + (u ⬝ᵥ centre p + e) ^ 2 := by
        rw [hcard, quad_scatter, dotProduct_centre]
        ring

end Points

/-! ## Eigenvectors -/

section Eigen

variable {n K : Type*} [Fintype n] [DecidableEq n] [Field K]

/-- The columns of `V` are an orthonormal basis of eigenvectors of `C`. -/
structure EigenBasis (C V : Matrix n n K) (lam : n → K) : Prop where
  orthonormal : Vᵀ * V = 1
  eigen : C * V = V * diagonal lam

namespace EigenBasis

variable {C V : Matrix n n K} {lam : n → K} (h : EigenBasis C V lam)
include h

lemma col_mul_row : V * Vᵀ = 1 := mul_eq_one_comm.mp h.orthonormal

lemma col_dot_col (i j : n) : V.col i ⬝ᵥ V.col j = if i = j then 1 else 0 := by
  have hentry := congrFun (congrFun h.orthonormal i) j
  rwa [Matrix.mul_apply, Matrix.one_apply] at hentry

lemma mulVec_col (i : n) : C.mulVec (V.col i) = lam i • V.col i := by
  funext a
  have hentry := congrFun (congrFun h.eigen a) i
  rw [Matrix.mul_apply, Matrix.mul_diagonal] at hentry
  rw [Matrix.mulVec, dotProduct, Pi.smul_apply, smul_eq_mul, mul_comm (lam i)]
  exact hentry

/-- A vector in the basis. -/
lemma expand (x : n → K) : x = ∑ i, (V.col i ⬝ᵥ x) • V.col i := by
  have hid : (V * Vᵀ).mulVec x = x := by rw [h.col_mul_row, Matrix.one_mulVec]
  conv_lhs => rw [← hid, ← Matrix.mulVec_mulVec]
  funext a
  rw [Finset.sum_apply, Matrix.mulVec, dotProduct]
  exact Finset.sum_congr rfl fun i _ => mul_comm _ _

/-- Two vectors with the same coordinates are equal. -/
lemma ext_coords {x y : n → K} (hxy : ∀ i, V.col i ⬝ᵥ x = V.col i ⬝ᵥ y) : x = y := by
  rw [h.expand x, h.expand y]
  simp only [hxy]

lemma dot_self (x : n → K) : x ⬝ᵥ x = ∑ i, (V.col i ⬝ᵥ x) ^ 2 := by
  conv_lhs => rw [h.expand x]
  rw [sum_dotProduct]
  refine Finset.sum_congr rfl fun i _ => ?_
  rw [smul_dotProduct, smul_eq_mul, ← h.expand x, sq]

lemma symm : Cᵀ = C := by
  have hC : C = V * diagonal lam * Vᵀ := by
    rw [← h.eigen, Matrix.mul_assoc, h.col_mul_row, Matrix.mul_one]
  rw [hC, Matrix.transpose_mul, Matrix.transpose_mul, Matrix.transpose_transpose,
    Matrix.diagonal_transpose, Matrix.mul_assoc]

lemma col_dot_mulVec (i : n) (x : n → K) : V.col i ⬝ᵥ C.mulVec x = lam i * (V.col i ⬝ᵥ x) := by
  rw [Matrix.dotProduct_mulVec, ← Matrix.mulVec_transpose, h.symm, h.mulVec_col, smul_dotProduct,
    smul_eq_mul]

lemma quad (x : n → K) : x ⬝ᵥ C.mulVec x = ∑ i, lam i * (V.col i ⬝ᵥ x) ^ 2 := by
  conv_lhs => enter [1]; rw [h.expand x]
  rw [sum_dotProduct]
  refine Finset.sum_congr rfl fun i _ => ?_
  rw [smul_dotProduct, h.col_dot_mulVec, smul_eq_mul]
  ring

omit h in
/-- A basis stays one in a greater field. -/
lemma map {K' : Type*} [Field K'] (h : EigenBasis C V lam) (f : K →+* K') :
    EigenBasis (C.map f) (V.map f) (f ∘ lam) := by
  constructor
  · rw [← Matrix.transpose_map, ← Matrix.map_mul, h.orthonormal,
      Matrix.map_one f f.map_zero f.map_one]
  · rw [← Matrix.map_mul, h.eigen, Matrix.map_mul, Matrix.diagonal_map f.map_zero]
    rfl

end EigenBasis

/-- **A basis for every symmetric matrix.**  Over the reals the eigenvectors can always be taken
orthonormal. -/
theorem exists_eigenBasis {C : Matrix n n ℝ} (h : Cᵀ = C) :
    ∃ (V : Matrix n n ℝ) (lam : n → ℝ), EigenBasis C V lam := by
  have hC : C.IsHermitian := by rw [IsHermitian, conjTranspose_eq_transpose_of_trivial, h]
  refine ⟨hC.eigenvectorUnitary, hC.eigenvalues, ?_, ?_⟩
  · rw [← conjTranspose_eq_transpose_of_trivial, ← star_eq_conjTranspose]
    exact Unitary.coe_star_mul_self hC.eigenvectorUnitary
  · ext i j
    rw [Matrix.mul_diagonal, hC.eigenvectorUnitary_apply, mul_comm]
    have hcol := congrFun (hC.mulVec_eigenvectorBasis j) i
    rwa [← hC.eigenvectorUnitary_col_eq] at hcol

end Eigen

/-! ## The best plane -/

section BestPlane

variable {ι n K : Type*} [Fintype ι] [Nonempty ι] [Fintype n] [DecidableEq n] [Field K]
  [LinearOrder K] [IsStrictOrderedRing K] {p : ι → n → K} {V : Matrix n n K} {lam : n → K} {i₀ : n}

omit [Fintype ι] [Nonempty ι] in
/-- A quadratic form is at least its least eigenvalue on unit vectors. -/
lemma EigenBasis.least_le_quad {C : Matrix n n K} (h : EigenBasis C V lam)
    (hleast : ∀ j, lam i₀ ≤ lam j) {u : n → K} (hu : u ⬝ᵥ u = 1) :
    lam i₀ ≤ u ⬝ᵥ C.mulVec u := by
  calc lam i₀ = ∑ i, lam i₀ * (V.col i ⬝ᵥ u) ^ 2 := by
        rw [← Finset.mul_sum, ← h.dot_self, hu, mul_one]
    _ ≤ ∑ i, lam i * (V.col i ⬝ᵥ u) ^ 2 :=
        Finset.sum_le_sum fun i _ => mul_le_mul_of_nonneg_right (hleast i) (sq_nonneg _)
    _ = u ⬝ᵥ C.mulVec u := (h.quad u).symm

/-- What the plane of an eigenvector through the centre leaves. -/
lemma meanSq_eigenvector (h : EigenBasis (scatter p) V lam) (i : n) :
    meanSq p (V.col i) (-(V.col i ⬝ᵥ centre p)) = lam i := by
  rw [meanSq_eq, h.mulVec_col, dotProduct_smul, h.col_dot_col, if_pos rfl]
  simp

/-- **The best plane.**  The plane through the centre whose normal is an eigenvector of the least
eigenvalue leaves that eigenvalue, and no plane leaves less. -/
theorem best_plane (h : EigenBasis (scatter p) V lam) (hleast : ∀ j, lam i₀ ≤ lam j) {u : n → K}
    (hu : u ⬝ᵥ u = 1) (e : K) :
    meanSq p (V.col i₀) (-(V.col i₀ ⬝ᵥ centre p)) ≤ meanSq p u e := by
  rw [meanSq_eigenvector h, meanSq_eq]
  have hquad := h.least_le_quad hleast hu
  have hsq := sq_nonneg (u ⬝ᵥ centre p + e)
  linarith

end BestPlane

/-! ## One point moves -/

section Moved

variable {ι n K : Type*} [Fintype ι] [DecidableEq ι] [Fintype n] [Field K]

/-- The points once one of them has moved. -/
def moved (p : ι → n → K) (i : ι) (x : n → K) : ι → n → K := Function.update p i (p i + x)

/-- The first-order change of the scatter matrix when a point moves by `x`. -/
def variation (p : ι → n → K) (i : ι) (x : n → K) : Matrix n n K :=
  (Fintype.card ι : K)⁻¹ • (vecMulVec x (p i - centre p) + vecMulVec (p i - centre p) x)

/-- Its second-order change. -/
def variation₂ (ι : Type*) [Fintype ι] (x : n → K) : Matrix n n K :=
  ((Fintype.card ι : K)⁻¹ - (Fintype.card ι : K)⁻¹ ^ 2) • vecMulVec x x

omit [Fintype n] in
lemma sum_moved {M : Type*} [AddCommGroup M] (f : (n → K) → M) (p : ι → n → K) (i : ι)
    (x : n → K) : ∑ j, f (moved p i x j) = ∑ j, f (p j) + (f (p i + x) - f (p i)) := by
  rw [← Finset.add_sum_erase _ _ (Finset.mem_univ i), ← Finset.add_sum_erase _ (fun j => f (p j))
    (Finset.mem_univ i), moved, Function.update_self]
  have hrest : ∑ j ∈ Finset.univ.erase i, f (Function.update p i (p i + x) j) =
      ∑ j ∈ Finset.univ.erase i, f (p j) :=
    Finset.sum_congr rfl fun j hj => by rw [Function.update_of_ne (Finset.ne_of_mem_erase hj)]
  rw [hrest]
  abel

omit [Fintype n] in
lemma centre_moved (p : ι → n → K) (i : ι) (x : n → K) :
    centre (moved p i x) = centre p + (Fintype.card ι : K)⁻¹ • x := by
  have hsum := sum_moved (fun y : n → K => y) p i x
  rw [centre, hsum, centre, add_sub_cancel_left, smul_add]

omit [Fintype n] in
lemma scatter_moved (p : ι → n → K) (i : ι) (x : n → K) (t : K) :
    scatter (moved p i (t • x)) =
      scatter p + t • variation p i x + t ^ 2 • variation₂ ι x := by
  have hsum := sum_moved (fun y : n → K => vecMulVec y y) p i (t • x)
  rw [scatter, hsum, centre_moved]
  ext a b
  simp only [scatter, variation, variation₂, Matrix.sub_apply, Matrix.add_apply, Matrix.smul_apply,
    vecMulVec_apply, Pi.add_apply, Pi.sub_apply, Pi.smul_apply, smul_eq_mul]
  ring

end Moved

/-! ## The response of the normal -/

section Response

variable {ι n K : Type*} [Fintype ι] [DecidableEq ι] [Fintype n] [DecidableEq n] [Field K]
  {p : ι → n → K} {C D V : Matrix n n K} {lam : n → K} {i₀ : n}

/-- The first-order change of an eigenvector when the matrix changes by `D`. -/
def response (V : Matrix n n K) (lam : n → K) (i₀ : n) (D : Matrix n n K) : n → K :=
  ∑ m ∈ Finset.univ.erase i₀, (V.col m ⬝ᵥ D.mulVec (V.col i₀) / (lam i₀ - lam m)) • V.col m

/-- Along `y` a normal follows a point that moves along `x`: it stays a unit vector and solves the
moved eigenvalue equation, both up to second order. -/
structure NormalFollows (p : ι → n → K) (i : ι) (x u : n → K) (ev : K) (y : n → K) : Prop where
  orthogonal : u ⬝ᵥ y = 0
  solves : ∃ (ev' : K) (r₀ r₁ : n → K), ∀ t : K,
    (scatter (moved p i (t • x))).mulVec (u + t • y) =
      (ev + t * ev') • (u + t • y) + t ^ 2 • (r₀ + t • r₁)

lemma EigenBasis.col_dot_response (h : EigenBasis C V lam) (m : n) :
    V.col m ⬝ᵥ response V lam i₀ D =
      if m = i₀ then 0 else V.col m ⬝ᵥ D.mulVec (V.col i₀) / (lam i₀ - lam m) := by
  rw [response, dotProduct_sum]
  simp only [dotProduct_smul, h.col_dot_col, smul_eq_mul, mul_ite, mul_one, mul_zero]
  by_cases hm : m = i₀
  · rw [if_pos hm]
    refine Finset.sum_eq_zero fun j hj => if_neg ?_
    rw [hm]
    exact (Finset.ne_of_mem_erase hj).symm
  · rw [if_neg hm, Finset.sum_ite_eq, if_pos (Finset.mem_erase.mpr ⟨hm, Finset.mem_univ m⟩)]

/-- The response solves the linearised eigenvalue equation. -/
lemma EigenBasis.linearised (h : EigenBasis C V lam) (hsimple : ∀ j, j ≠ i₀ → lam i₀ ≠ lam j) :
    C.mulVec (response V lam i₀ D) + D.mulVec (V.col i₀) = lam i₀ • response V lam i₀ D +
      (V.col i₀ ⬝ᵥ D.mulVec (V.col i₀)) • V.col i₀ := by
  refine h.ext_coords fun m => ?_
  rw [dotProduct_add, dotProduct_add, h.col_dot_mulVec, dotProduct_smul, dotProduct_smul,
    h.col_dot_response, h.col_dot_col, smul_eq_mul, smul_eq_mul]
  by_cases hm : m = i₀
  · rw [if_pos hm, if_pos hm, hm]
    ring
  · rw [if_neg hm, if_neg hm]
    have hne : lam i₀ - lam m ≠ 0 := sub_ne_zero.mpr (hsimple m hm)
    field_simp
    ring

/-- Only the response solves it. -/
lemma EigenBasis.eq_response (h : EigenBasis C V lam) (hsimple : ∀ j, j ≠ i₀ → lam i₀ ≠ lam j)
    {y : n → K} {ev' : K} (horth : V.col i₀ ⬝ᵥ y = 0)
    (hy : C.mulVec y + D.mulVec (V.col i₀) = lam i₀ • y + ev' • V.col i₀) :
    y = response V lam i₀ D := by
  refine h.ext_coords fun m => ?_
  rw [h.col_dot_response]
  by_cases hm : m = i₀
  · rw [if_pos hm, hm, horth]
  · rw [if_neg hm, eq_div_iff (sub_ne_zero.mpr (hsimple m hm))]
    have hcoord := congrArg (V.col m ⬝ᵥ ·) hy
    simp only [dotProduct_add, dotProduct_smul, h.col_dot_mulVec, h.col_dot_col, if_neg hm,
      smul_eq_mul] at hcoord
    linear_combination -hcoord

omit [Fintype n] [DecidableEq n] in
/-- A cubic family of vectors without a constant term that vanishes has no linear term. -/
lemma linear_term_eq_zero [CharZero K] {a b c : n → K}
    (habc : ∀ t : K, t • a + t ^ 2 • (b + t • c) = 0) : a = 0 := by
  funext j
  have hone := congrFun (habc 1) j
  have hneg := congrFun (habc (-1)) j
  have htwo := congrFun (habc 2) j
  simp only [Pi.add_apply, Pi.smul_apply, smul_eq_mul, Pi.zero_apply] at hone hneg htwo ⊢
  have hsix : (6 : K) * a j = 0 := by linear_combination 6 * hone - 2 * hneg - htwo
  simpa using hsix

/-- **The response of the normal.**  When a point moves, exactly one vector is such that the normal
follows the point along it: the response to the variation of the scatter matrix. -/
theorem normalFollows_iff [CharZero K] (h : EigenBasis (scatter p) V lam)
    (hsimple : ∀ j, j ≠ i₀ → lam i₀ ≠ lam j) (i : ι) (x y : n → K) :
    NormalFollows p i x (V.col i₀) (lam i₀) y ↔ y = response V lam i₀ (variation p i x) := by
  have hexpand : ∀ (y : n → K) (t : K),
      (scatter (moved p i (t • x))).mulVec (V.col i₀ + t • y) = lam i₀ • V.col i₀ +
        t • ((scatter p).mulVec y + (variation p i x).mulVec (V.col i₀)) +
        t ^ 2 • ((variation p i x).mulVec y + (variation₂ ι x).mulVec (V.col i₀) +
          t • (variation₂ ι x).mulVec y) := by
    intro y t
    rw [scatter_moved, Matrix.mulVec_add, Matrix.mulVec_smul, Matrix.add_mulVec, Matrix.add_mulVec,
      Matrix.add_mulVec, Matrix.add_mulVec, Matrix.smul_mulVec, Matrix.smul_mulVec,
      Matrix.smul_mulVec, Matrix.smul_mulVec, h.mulVec_col]
    module
  constructor
  · rintro ⟨horth, ev', r₀, r₁, hsolves⟩
    have hlinear : (scatter p).mulVec y + (variation p i x).mulVec (V.col i₀) =
        lam i₀ • y + ev' • V.col i₀ := by
      refine sub_eq_zero.mp (linear_term_eq_zero
        (b := (variation p i x).mulVec y + (variation₂ ι x).mulVec (V.col i₀) - ev' • y - r₀)
        (c := (variation₂ ι x).mulVec y - r₁) fun t => ?_)
      have ht := (hexpand y t).symm.trans (hsolves t)
      rw [← sub_eq_zero] at ht
      rw [← ht]
      module
    exact h.eq_response hsimple horth hlinear
  · rintro rfl
    generalize hy : response V lam i₀ (variation p i x) = y at hexpand ⊢
    have hlinear := h.linearised (D := variation p i x) hsimple
    rw [hy] at hlinear
    refine ⟨by rw [← hy, h.col_dot_response, if_pos rfl],
      V.col i₀ ⬝ᵥ (variation p i x).mulVec (V.col i₀),
      (variation p i x).mulVec y + (variation₂ ι x).mulVec (V.col i₀) -
        (V.col i₀ ⬝ᵥ (variation p i x).mulVec (V.col i₀)) • y,
      (variation₂ ι x).mulVec y, fun t => ?_⟩
    rw [hexpand, hlinear]
    module

end Response

end FastLivo2
