import Mathlib.Algebra.BigOperators.Group.Finset.Piecewise

/-!
# Matching by keys

What was sent and what was received are matched by a key that need not be unique.  The number of
items sent that have no received one of their own is the size of a difference of multisets.
Counting the keys that were sent and not received is not the same: the two differ by the keys that
stand for no item, and by the items beyond those that a key accounts for.
-/

namespace FastLivo2

namespace KeyMatch

variable {κ : Type*} [DecidableEq κ]

/-- The items without a received one of their own. -/
def unmatched (sent received : List κ) : ℕ :=
  Multiset.card ((sent : Multiset κ) - (received : Multiset κ))

/-- The keys that were not received. -/
def absent (keys received : List κ) : Finset κ := keys.toFinset.filter fun k => k ∉ received

/-- The keys that were not received, and under which nothing was sent. -/
def void (keys sent received : List κ) : Finset κ :=
  keys.toFinset.filter fun k => k ∉ received ∧ sent.count k = 0

/-- The items under a key that are not accounted for by it: those beyond the received ones, or
beyond the first if none was received. -/
def missed (sent received : List κ) (k : κ) : ℕ :=
  if k ∈ received then sent.count k - received.count k else sent.count k - 1

variable {keys sent received : List κ}

/-- The unmatched items, key by key. -/
lemma unmatched_eq_sum (hkeys : ∀ k ∈ sent, k ∈ keys) :
    unmatched sent received = ∑ k ∈ keys.toFinset, (sent.count k - received.count k) := by
  have hmem : ∀ k ∈ (sent : Multiset κ) - (received : Multiset κ), k ∈ keys.toFinset := fun k hk =>
    List.mem_toFinset.mpr (hkeys k (Multiset.mem_of_le (Multiset.sub_le_self _ _) hk))
  unfold unmatched
  rw [← Multiset.sum_count_eq_card hmem]
  refine Finset.sum_congr rfl fun k _ => ?_
  rw [Multiset.count_sub, Multiset.coe_count, Multiset.coe_count]

/-- What one key adds on either side. -/
lemma count_add_void (sent received : List κ) (k : κ) :
    (sent.count k - received.count k) + (if k ∉ received ∧ sent.count k = 0 then 1 else 0) =
      (if k ∉ received then 1 else 0) + missed sent received k := by
  unfold missed
  by_cases hk : k ∈ received
  · simp [hk]
  · have hzero : received.count k = 0 := List.count_eq_zero.mpr hk
    by_cases hsent : sent.count k = 0
    · simp [hk, hsent]
    · simp only [hk, hsent, hzero, not_false_eq_true, and_false, if_true, if_false]
      omega

/-- **Items and keys.**  The unmatched items and the void keys are as many as the absent keys and
the missed items. -/
theorem unmatched_add_card_void (hkeys : ∀ k ∈ sent, k ∈ keys) (received : List κ) :
    unmatched sent received + (void keys sent received).card =
      (absent keys received).card + ∑ k ∈ keys.toFinset, missed sent received k := by
  rw [unmatched_eq_sum hkeys, void, absent, Finset.card_filter, Finset.card_filter,
    ← Finset.sum_add_distrib, ← Finset.sum_add_distrib]
  exact Finset.sum_congr rfl fun k _ => count_add_void sent received k

end KeyMatch

end FastLivo2
