import Mathlib

/-!
# Steps that tile an interval

A list of step lengths *tiles* the interval from `a` to `b` when no step is negative and the
steps add up to `b - a`.  The standard tiling is by the gaps between the marks `a ≤ m₁ ≤ m₂ ≤ …`
(`tiles_gaps`), and tilings of adjacent intervals join (`Tiles.append`).
-/

namespace FastLivo2

variable {K : Type*} [AddCommGroup K] [LinearOrder K]

/-- The steps go forward and add up to the length of the interval. -/
def Tiles (ds : List K) (a b : K) : Prop := (∀ d ∈ ds, 0 ≤ d) ∧ ds.sum = b - a

/-- The distances from `a` to the first mark and from each mark to the next. -/
def gaps (a : K) : List K → List K
  | [] => []
  | m :: ms => (m - a) :: gaps m ms

lemma tiles_nil {a b : K} : Tiles [] a b ↔ b = a := by
  simp [Tiles, eq_comm, sub_eq_zero]

lemma tiles_singleton {d a b : K} : Tiles [d] a b ↔ 0 ≤ d ∧ d = b - a := by
  simp [Tiles]

lemma Tiles.append {ds es : List K} {a b c : K} (h : Tiles ds a b) (h' : Tiles es b c) :
    Tiles (ds ++ es) a c := by
  refine ⟨fun d hd => ?_, ?_⟩
  · rcases List.mem_append.mp hd with hd | hd
    · exact h.1 d hd
    · exact h'.1 d hd
  · rw [List.sum_append, h.2, h'.2]
    abel

omit [LinearOrder K] in
lemma sum_gaps (a : K) (ms : List K) : (gaps a ms).sum = ms.getLastD a - a := by
  induction ms generalizing a with
  | nil => simp [gaps]
  | cons m ms ih =>
      rw [gaps, List.sum_cons, ih, List.getLastD_cons]
      abel

lemma gaps_nonneg_iff [IsOrderedAddMonoid K] (a : K) (ms : List K) :
    (∀ d ∈ gaps a ms, 0 ≤ d) ↔ (a :: ms).IsChain (· ≤ ·) := by
  induction ms generalizing a with
  | nil => simp [gaps]
  | cons m ms ih => simp [gaps, ih, sub_nonneg]

/-- The gaps between marks in order tile the stretch from `a` to the last mark. -/
theorem tiles_gaps [IsOrderedAddMonoid K] {a : K} {ms : List K} (h : (a :: ms).IsChain (· ≤ ·)) :
    Tiles (gaps a ms) a (ms.getLastD a) :=
  ⟨(gaps_nonneg_iff a ms).mpr h, sum_gaps a ms⟩

end FastLivo2
