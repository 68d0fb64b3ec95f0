import Mathlib

/-!
# Running means

The arithmetic mean of a list of vectors, and the loop that carries it along: the `n`-th value
moves the mean by the `n`-th part of its distance (`mean_concat`).  The first value takes all of
the distance, so it does not matter where the loop sets out from (`RunningMean.next`).

A mean so carried depends on the values only, not on the lots they came in.
-/

namespace FastLivo2

section Definitions

variable (K : Type*) {M : Type*} [Field K] [AddCommGroup M] [Module K M]

/-- The arithmetic mean of a list; `0` for the empty one. -/
def mean (l : List M) : M := (l.length : K)⁻¹ • l.sum

/-- The mean `μ` of the values seen, as a loop carries it: it may be anything before the first. -/
def RunningMean (seen : List M) (μ : M) : Prop := seen ≠ [] → μ = mean K seen

lemma RunningMean.start (μ : M) : RunningMean K [] μ := fun h => absurd rfl h

end Definitions

variable {K M : Type*} [Field K] [CharZero K] [AddCommGroup M] [Module K M]

lemma length_smul_mean (l : List M) : (l.length : K) • mean K l = l.sum := by
  cases l with
  | nil => simp
  | cons x l => rw [mean, smul_inv_smul₀ (Nat.cast_ne_zero.mpr (Nat.succ_ne_zero _))]

/-- One more value moves the mean by its share of the distance. -/
lemma mean_concat (l : List M) (x : M) :
    mean K (l ++ [x]) = mean K l + (1 / ((l.length : K) + 1)) • (x - mean K l) := by
  have hn : (l.length : K) + 1 ≠ 0 := Nat.cast_add_one_ne_zero _
  have hsum : (l ++ [x]).sum = ((l.length : K) + 1) • mean K l + (x - mean K l) := by
    rw [List.sum_append, List.sum_singleton, ← length_smul_mean (K := K) l, add_smul, one_smul]
    abel
  rw [mean, List.length_append, List.length_singleton, Nat.cast_add, Nat.cast_one, hsum, smul_add,
    inv_smul_smul₀ hn, one_div]

/-- The turn of a loop. -/
lemma RunningMean.next {seen : List M} {μ : M} (h : RunningMean K seen μ) (x : M) :
    RunningMean K (seen ++ [x]) (μ + (1 / ((seen.length : K) + 1)) • (x - μ)) := by
  intro _
  by_cases hseen : seen = []
  · -- the share of the first value is one
    rw [hseen, List.nil_append, mean]
    simp
  · rw [h hseen, mean_concat]

end FastLivo2
