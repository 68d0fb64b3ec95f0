import Mathlib

/-!
# Correlations whose sums run on

A thing is correlated with each of a list of others: with covariances `u`, variances `d` of the
others and a variance `D` of its own, the correlation with one of them alone is `|u| / √(D * d)`.
When the sums are not reset from one to the next, the `k`-th quotient is that of the sums so far
(`terms`).

From the least correlation upwards, no running quotient is above the correlation alone
(`sum_terms_le`).  So the totals agree in every order exactly when there is nothing to sum up, or
nothing but the same sums again and again (`sum_terms_eq_iff`).  Larger variances make the quotients
smaller, strictly where something is summed up (`terms_mono`, `head_eq_zero`).
-/

namespace FastLivo2

namespace RunningSums

variable {α : Type*} (u d : α → ℝ) (D : ℝ)

/-- The correlation with one of the others alone. -/
noncomputable def alone (a : α) : ℝ := |u a| / √(D * d a)

/-- The running quotients, from `k` others with the sums `U` and `V`. -/
noncomputable def terms : ℕ → ℝ → ℝ → List α → List ℝ
  | _, _, _, [] => []
  | k, U, V, a :: l =>
      |U + u a| / √((k + 1) * D * (V + d a)) :: terms (k + 1) (U + u a) (V + d a) l

variable {u d D} {k : ℕ} {U V c : ℝ} {a b : α} {l : List α}

lemma sum_terms_cons : (terms u d D k U V (a :: l)).sum =
    |U + u a| / √((k + 1) * D * (V + d a)) + (terms u d D (k + 1) (U + u a) (V + d a) l).sum :=
  List.sum_cons

lemma terms_congr {u' d' : α → ℝ} : ∀ {l : List α} {k : ℕ} {U V : ℝ},
    (∀ a ∈ l, u a = u' a ∧ d a = d' a) → terms u d D k U V l = terms u' d' D k U V l
  | [], _, _, _, _ => rfl
  | a :: l, k, U, V, h => by
      obtain ⟨⟨hu, hd⟩, h⟩ := List.forall_mem_cons.mp h
      rw [terms, terms, hu, hd, terms_congr h]

lemma alone_nonneg : 0 ≤ alone u d D a := div_nonneg (abs_nonneg _) (Real.sqrt_nonneg _)

lemma abs_eq_alone_mul (hD : 0 < D) (ha : 0 < d a) : |u a| = alone u d D a * √(D * d a) :=
  (div_mul_cancel₀ _ (Real.sqrt_pos.mpr (mul_pos hD ha)).ne').symm

lemma den_pos (hD : 0 < D) (hV : 0 ≤ V) (ha : 0 < d a) : 0 < √((k + 1) * D * (V + d a)) := by
  refine Real.sqrt_pos.mpr ?_
  positivity

/-- The first quotient is that of the first pair alone. -/
lemma sum_terms_first : (terms u d D 0 0 0 (a :: l)).sum =
    alone u d D a + (terms u d D 1 (u a) (d a) l).sum := by
  rw [sum_terms_cons, zero_add, zero_add, Nat.cast_zero, zero_add, one_mul]
  rfl

/-! ## From the least upwards -/

/-- Two roots are together at most the root of the running product. -/
lemma sqrt_add_sqrt_le {k V d : ℝ} (hk : 0 ≤ k) (hV : 0 ≤ V) (hd : 0 ≤ d) :
    √(k * V) + √d ≤ √((k + 1) * (V + d)) := by
  apply Real.le_sqrt_of_sq_le
  have hkV := Real.sq_sqrt (mul_nonneg hk hV)
  have hd' := Real.sq_sqrt hd
  have hkd := Real.sq_sqrt (mul_nonneg hk hd)
  have hV' := Real.sq_sqrt hV
  have hcross : √(k * V) * √d = √(k * d) * √V := by
    rw [← Real.sqrt_mul (mul_nonneg hk hV), ← Real.sqrt_mul (mul_nonneg hk hd)]
    congr 1
    ring
  nlinarith [sq_nonneg (√(k * d) - √V)]

/-- What is summed up so far stays below the latest correlation. -/
lemma running_le (hD : 0 < D) (hV : 0 ≤ V) (ha : 0 < d a) (hU : |U| ≤ c * √(k * D * V))
    (hc : c ≤ alone u d D a) :
    |U + u a| ≤ alone u d D a * √((k + 1) * D * (V + d a)) := by
  have hroots : √(k * D * V) + √(D * d a) ≤ √((k + 1) * D * (V + d a)) := by
    have h := sqrt_add_sqrt_le (Nat.cast_nonneg (α := ℝ) k) (mul_nonneg hD.le hV)
      (mul_pos hD ha).le
    rwa [← mul_add, ← mul_assoc, ← mul_assoc] at h
  calc |U + u a| ≤ |U| + |u a| := abs_add_le U (u a)
    _ ≤ alone u d D a * √(k * D * V) + alone u d D a * √(D * d a) := by
        rw [← abs_eq_alone_mul hD ha]
        exact add_le_add_left
          (hU.trans (mul_le_mul_of_nonneg_right hc (Real.sqrt_nonneg _))) |u a|
    _ = alone u d D a * (√(k * D * V) + √(D * d a)) := (mul_add _ _ _).symm
    _ ≤ alone u d D a * √((k + 1) * D * (V + d a)) :=
        mul_le_mul_of_nonneg_left hroots alone_nonneg

/-- **From the least correlation upwards** the running quotients are at most the correlations
alone. -/
theorem sum_terms_le (hD : 0 < D) : ∀ {l : List α} {k : ℕ} {U V c : ℝ}, (∀ a ∈ l, 0 < d a) →
    l.Pairwise (fun a b => alone u d D a ≤ alone u d D b) → (∀ a ∈ l, c ≤ alone u d D a) →
    0 ≤ V → |U| ≤ c * √(k * D * V) → (terms u d D k U V l).sum ≤ (l.map (alone u d D)).sum
  | [], _, _, _, _, _, _, _, _, _ => le_rfl
  | a :: l, k, U, V, c, hd, hsorted, hc, hV, hU => by
      obtain ⟨ha, hd⟩ := List.forall_mem_cons.mp hd
      obtain ⟨hle, hsorted⟩ := List.pairwise_cons.mp hsorted
      have hrun := running_le (k := k) hD hV ha hU (hc a (by simp))
      have hrest := sum_terms_le (k := k + 1) (U := U + u a) hD hd hsorted hle
        (add_nonneg hV ha.le) (by push_cast; exact hrun)
      rw [sum_terms_cons, List.map_cons, List.sum_cons]
      exact add_le_add ((div_le_iff₀ (den_pos hD hV ha)).mpr hrun) hrest

/-- Behind uncorrelated ones, only uncorrelated ones keep the total. -/
lemma eq_zero_of_sum_eq (hD : 0 < D) : ∀ {l : List α} {k : ℕ} {V : ℝ}, (∀ a ∈ l, 0 < d a) →
    l.Pairwise (fun a b => alone u d D a ≤ alone u d D b) → 0 < k → 0 ≤ V →
    (terms u d D k 0 V l).sum = (l.map (alone u d D)).sum → ∀ a ∈ l, u a = 0
  | [], _, _, _, _, _, _, _ => by simp
  | a :: l, k, V, hd, hsorted, hk, hV, heq => by
      obtain ⟨ha, hd⟩ := List.forall_mem_cons.mp hd
      obtain ⟨hle, hsorted⟩ := List.pairwise_cons.mp hsorted
      rw [sum_terms_cons, List.map_cons, List.sum_cons, zero_add] at heq
      have hrun := running_le (u := u) (k := k) (U := 0) (c := 0) hD hV ha (by simp) alone_nonneg
      rw [zero_add] at hrun
      have hhead : |u a| / √((k + 1) * D * (V + d a)) ≤ alone u d D a :=
        (div_le_iff₀ (den_pos hD hV ha)).mpr hrun
      have htail := sum_terms_le (k := k + 1) (U := u a) hD hd hsorted hle (add_nonneg hV ha.le)
        (by push_cast; exact hrun)
      -- Its own quotient is as large as the correlation alone, over a larger root.
      have hquot : |u a| / √((k + 1) * D * (V + d a)) = alone u d D a :=
        le_antisymm hhead (by linarith)
      have hua : u a = 0 := by
        by_contra hne
        have hroot : √(D * d a) < √((k + 1) * D * (V + d a)) := by
          refine Real.sqrt_lt_sqrt (mul_pos hD ha).le ?_
          have hk' : (0 : ℝ) < k := by exact_mod_cast hk
          have hpos : 0 < (k : ℝ) * D * (V + d a) := by positivity
          nlinarith [mul_nonneg hD.le hV]
        exact (div_lt_div_of_pos_left (abs_pos.mpr hne)
          (Real.sqrt_pos.mpr (mul_pos hD ha)) hroot).ne hquot
      rw [hquot, hua] at heq
      have hrest := eq_zero_of_sum_eq (k := k + 1) hD hd hsorted k.succ_pos (add_nonneg hV ha.le)
        (add_left_cancel heq)
      exact List.forall_mem_cons.mpr ⟨hua, hrest⟩

/-- A running quotient that reaches a correlation no smaller than those before is that of the same
sums again. -/
lemma eq_of_quotient_eq {k u₀ d₀ u d : ℝ} (hk : 0 < k) (hD : 0 < D) (hd₀ : 0 < d₀) (hd : 0 < d)
    (hu₀ : u₀ ≠ 0) (hle : |u₀| / √(D * d₀) ≤ |u| / √(D * d))
    (heq : |k * u₀ + u| / √((k + 1) * D * (k * d₀ + d)) = |u| / √(D * d)) :
    u = u₀ ∧ d = d₀ := by
  have hDd := mul_pos hD hd
  have hDd₀ := mul_pos hD hd₀
  have hden : 0 < (k + 1) * D * (k * d₀ + d) := by positivity
  have hsq : (k * u₀ + u) ^ 2 * (D * d) = u ^ 2 * ((k + 1) * D * (k * d₀ + d)) := by
    rw [div_eq_div_iff (Real.sqrt_pos.mpr hden).ne' (Real.sqrt_pos.mpr hDd).ne'] at heq
    have h := congrArg (· ^ 2) heq
    simpa only [mul_pow, sq_abs, Real.sq_sqrt hDd.le, Real.sq_sqrt hden.le] using h
  have hsq₀ : u₀ ^ 2 * (D * d) ≤ u ^ 2 * (D * d₀) := by
    rw [div_le_div_iff₀ (Real.sqrt_pos.mpr hDd₀) (Real.sqrt_pos.mpr hDd)] at hle
    have h := pow_le_pow_left₀ (by positivity) hle 2
    simpa only [mul_pow, sq_abs, Real.sq_sqrt hDd.le, Real.sq_sqrt hDd₀.le] using h
  have hone : u₀ ^ 2 * d ≤ u ^ 2 * d₀ := by nlinarith
  have htwo : k * (u₀ ^ 2 * d) + 2 * (u₀ * u * d) = u ^ 2 * (k * d₀ + d + d₀) := by
    have h : D * k * (k * (u₀ ^ 2 * d) + 2 * (u₀ * u * d)) =
        D * k * (u ^ 2 * (k * d₀ + d + d₀)) := by linarith
    exact mul_left_cancel₀ (mul_pos hD hk).ne' h
  have hthree : u ^ 2 * (d + d₀) ≤ 2 * (u₀ * u * d) := by nlinarith
  have hu : 0 < u ^ 2 := by
    have hpos : 0 < u₀ ^ 2 * d := by positivity
    by_contra hnot
    have hzero : u ^ 2 = 0 := le_antisymm (not_lt.mp hnot) (sq_nonneg u)
    rw [hzero, zero_mul] at hone
    linarith
  -- The square of the mixed product is bounded by the variances from above and below.
  have hmixed : (u ^ 2 * (d + d₀)) ^ 2 ≤ (u ^ 2) ^ 2 * (4 * (d * d₀)) := by
    calc (u ^ 2 * (d + d₀)) ^ 2
        ≤ (2 * (u₀ * u * d)) ^ 2 := pow_le_pow_left₀ (by positivity) hthree 2
      _ = 4 * (u ^ 2 * d) * (u₀ ^ 2 * d) := by ring
      _ ≤ 4 * (u ^ 2 * d) * (u ^ 2 * d₀) := mul_le_mul_of_nonneg_left hone (by positivity)
      _ = (u ^ 2) ^ 2 * (4 * (d * d₀)) := by ring
  have hd_eq : d = d₀ := by
    rw [mul_pow] at hmixed
    have h := le_of_mul_le_mul_left hmixed (pow_pos hu 2)
    have hzero : (d - d₀) ^ 2 ≤ 0 := by linarith
    exact sub_eq_zero.mp (pow_eq_zero_iff two_ne_zero |>.mp (le_antisymm hzero (sq_nonneg _)))
  subst hd_eq
  have hle' : u₀ ^ 2 ≤ u ^ 2 := le_of_mul_le_mul_right hone hd
  have hge : u ^ 2 ≤ u₀ * u := by
    have h : u ^ 2 * (2 * d) ≤ u₀ * u * (2 * d) := by linarith
    exact le_of_mul_le_mul_right h (by linarith)
  have hzero : (u - u₀) ^ 2 ≤ 0 := by linarith
  exact ⟨sub_eq_zero.mp (pow_eq_zero_iff two_ne_zero |>.mp (le_antisymm hzero (sq_nonneg _))), rfl⟩

/-- Behind equal pairs, only equal ones keep the total. -/
lemma eq_of_sum_eq (hD : 0 < D) {u₀ d₀ : ℝ} (hu₀ : u₀ ≠ 0) (hd₀ : 0 < d₀) :
    ∀ {l : List α} {k : ℕ}, (∀ a ∈ l, 0 < d a) →
    l.Pairwise (fun a b => alone u d D a ≤ alone u d D b) →
    (∀ a ∈ l, |u₀| / √(D * d₀) ≤ alone u d D a) → 0 < k →
    (terms u d D k (k * u₀) (k * d₀) l).sum = (l.map (alone u d D)).sum →
    ∀ a ∈ l, u a = u₀ ∧ d a = d₀
  | [], _, _, _, _, _, _ => by simp
  | a :: l, k, hd, hsorted, hc, hk, heq => by
      obtain ⟨ha, hd⟩ := List.forall_mem_cons.mp hd
      obtain ⟨hle, hsorted⟩ := List.pairwise_cons.mp hsorted
      obtain ⟨hca, hc⟩ := List.forall_mem_cons.mp hc
      have hk' : (0 : ℝ) < k := by exact_mod_cast hk
      have hV : 0 ≤ k * d₀ := by positivity
      have hU : |(k : ℝ) * u₀| ≤ |u₀| / √(D * d₀) * √(k * D * (k * d₀)) := by
        have hroot : √(k * D * (k * d₀)) = k * √(D * d₀) := by
          rw [show (k : ℝ) * D * (k * d₀) = k ^ 2 * (D * d₀) by ring,
            Real.sqrt_mul (sq_nonneg _), Real.sqrt_sq hk'.le]
        have hne := (Real.sqrt_pos.mpr (mul_pos hD hd₀)).ne'
        rw [hroot, abs_mul, abs_of_pos hk']
        apply le_of_eq
        field_simp
      have hrun := running_le (k := k) hD hV ha hU hca
      have hhead := (div_le_iff₀ (den_pos (k := k) hD hV ha)).mpr hrun
      have htail := sum_terms_le (k := k + 1) hD hd hsorted hle (add_nonneg hV ha.le)
        (by push_cast; exact hrun)
      rw [sum_terms_cons, List.map_cons, List.sum_cons] at heq
      have hquot : |k * u₀ + u a| / √((k + 1) * D * (k * d₀ + d a)) = alone u d D a :=
        le_antisymm hhead (by linarith)
      obtain ⟨hua, hda⟩ := eq_of_quotient_eq hk' hD hd₀ ha hu₀ hca hquot
      have hnext := eq_of_sum_eq (k := k + 1) hD hu₀ hd₀ hd hsorted hc k.succ_pos (by
        have hsumU : ((k + 1 : ℕ) : ℝ) * u₀ = k * u₀ + u a := by rw [hua]; push_cast; ring
        have hsumV : ((k + 1 : ℕ) : ℝ) * d₀ = k * d₀ + d a := by rw [hda]; push_cast; ring
        rw [hsumU, hsumV]
        linarith)
      exact List.forall_mem_cons.mpr ⟨⟨hua, hda⟩, hnext⟩

/-! ## In every order -/

/-- Nothing to sum up. -/
lemma sum_terms_zero : ∀ {l : List α} {k : ℕ} {V : ℝ}, (∀ a ∈ l, u a = 0) →
    (terms u d D k 0 V l).sum = 0
  | [], _, _, _ => rfl
  | a :: l, k, V, h => by
      obtain ⟨ha, h⟩ := List.forall_mem_cons.mp h
      rw [sum_terms_cons, ha, add_zero, abs_zero, zero_div, zero_add]
      exact sum_terms_zero h

/-- The same sums again and again. -/
lemma sum_terms_same (hD : 0 < D) {u₀ d₀ : ℝ} (hd₀ : 0 < d₀) : ∀ {l : List α} {k : ℕ},
    (∀ a ∈ l, u a = u₀ ∧ d a = d₀) →
    (terms u d D k (k * u₀) (k * d₀) l).sum = (l.map (alone u d D)).sum
  | [], _, _ => rfl
  | a :: l, k, h => by
      obtain ⟨⟨hua, hda⟩, h⟩ := List.forall_mem_cons.mp h
      have hrest := sum_terms_same (k := k + 1) hD hd₀ h
      have hk : (0 : ℝ) < k + 1 := by positivity
      have hquot : |k * u₀ + u a| / √((k + 1) * D * (k * d₀ + d a)) = alone u d D a := by
        have hroot : √((k + 1) * D * (k * d₀ + d₀)) = (k + 1) * √(D * d₀) := by
          rw [show ((k : ℝ) + 1) * D * (k * d₀ + d₀) = (k + 1) ^ 2 * (D * d₀) by ring,
            Real.sqrt_mul (sq_nonneg _), Real.sqrt_sq hk.le]
        have hsum : (k : ℝ) * u₀ + u₀ = (k + 1) * u₀ := by ring
        unfold alone
        rw [hua, hda, hroot, hsum, abs_mul, abs_of_pos hk, mul_div_mul_left _ _ hk.ne']
      rw [sum_terms_cons, hquot, List.map_cons, List.sum_cons, ← hrest]
      push_cast
      rw [hua, hda, add_one_mul, add_one_mul]

/-- From the least upwards, the total is that of the pairs alone only if nothing is summed up or the
same sums again and again. -/
lemma of_sorted_sum_eq (hD : 0 < D) (hd : ∀ a ∈ l, 0 < d a)
    (hsorted : l.Pairwise fun a b => alone u d D a ≤ alone u d D b)
    (heq : (terms u d D 0 0 0 l).sum = (l.map (alone u d D)).sum) :
    (∀ a ∈ l, u a = 0) ∨ ∀ a ∈ l, ∀ b ∈ l, u a = u b ∧ d a = d b := by
  cases l with
  | nil => exact .inl fun a ha => absurd ha List.not_mem_nil
  | cons a s =>
      obtain ⟨ha, hds⟩ := List.forall_mem_cons.mp hd
      obtain ⟨hle, hsorted⟩ := List.pairwise_cons.mp hsorted
      rw [sum_terms_first, List.map_cons, List.sum_cons] at heq
      have htail := add_left_cancel heq
      by_cases hua : u a = 0
      · rw [hua] at htail
        have hrest := eq_zero_of_sum_eq hD hds hsorted one_pos ha.le htail
        exact .inl (List.forall_mem_cons.mpr ⟨hua, hrest⟩)
      · have hrest := eq_of_sum_eq (k := 1) hD hua ha hds hsorted hle one_pos
          (by rw [Nat.cast_one, one_mul, one_mul]; exact htail)
        have hall : ∀ b ∈ a :: s, u b = u a ∧ d b = d a :=
          List.forall_mem_cons.mpr ⟨⟨rfl, rfl⟩, hrest⟩
        exact .inr fun b hb b' hb' => ⟨(hall b hb).1.trans (hall b' hb').1.symm,
          (hall b hb).2.trans (hall b' hb').2.symm⟩

lemma sum_alone_zero (h : ∀ a ∈ l, u a = 0) : (l.map (alone u d D)).sum = 0 := by
  refine List.sum_eq_zero (List.forall_mem_map.mpr fun a ha => ?_)
  rw [alone, h a ha, abs_zero, zero_div]

/-- From the first pair on. -/
lemma sum_terms_same_first (hD : 0 < D) (hd : ∀ a ∈ l, 0 < d a)
    (hsame : ∀ a ∈ l, ∀ b ∈ l, u a = u b ∧ d a = d b) :
    (terms u d D 0 0 0 l).sum = (l.map (alone u d D)).sum := by
  cases l with
  | nil => rfl
  | cons a s =>
      have hrest := sum_terms_same (u := u) (k := 1) (l := s) hD (hd a (by simp)) fun b hb =>
        hsame b (List.mem_cons_of_mem a hb) a (by simp)
      rw [Nat.cast_one, one_mul, one_mul] at hrest
      rw [sum_terms_first, hrest, List.map_cons, List.sum_cons]

/-- **Running sums in every order.**  The totals are those of the pairs alone exactly when no pair
is correlated or all pairs have the same sums. -/
theorem sum_terms_eq_iff (hD : 0 < D) (hd : ∀ a ∈ l, 0 < d a) :
    (∀ l', l'.Perm l → (terms u d D 0 0 0 l').sum = (l'.map (alone u d D)).sum) ↔
      (∀ a ∈ l, u a = 0) ∨ ∀ a ∈ l, ∀ b ∈ l, u a = u b ∧ d a = d b := by
  constructor
  · intro h
    classical
    let r : α → α → Prop := fun a b => alone u d D a ≤ alone u d D b
    have htotal : Std.Total r := ⟨fun a b => le_total _ _⟩
    have htrans : IsTrans α r := ⟨fun a b c => le_trans⟩
    have hperm := List.perm_insertionSort r l
    have hsorted := of_sorted_sum_eq hD (fun a ha => hd a (hperm.mem_iff.mp ha))
      (List.pairwise_insertionSort r l) (h _ hperm)
    simpa only [hperm.mem_iff] using hsorted
  · rintro (hzero | hsame) l' hl'
    · have hzero' : ∀ a ∈ l', u a = 0 := fun a ha => hzero a (hl'.mem_iff.mp ha)
      rw [sum_terms_zero hzero', sum_alone_zero hzero']
    · exact sum_terms_same_first hD (fun a ha => hd a (hl'.mem_iff.mp ha)) fun a ha b hb =>
        hsame a (hl'.mem_iff.mp ha) b (hl'.mem_iff.mp hb)

/-! ## Larger variances -/

/-- Larger variances make the running quotients smaller. -/
lemma terms_mono {d' : α → ℝ} {D' : ℝ} (hD : 0 < D) (hDD' : D ≤ D') :
    ∀ {l : List α} {k : ℕ} {U V V' : ℝ}, (∀ a ∈ l, 0 < d a ∧ d a ≤ d' a) → 0 ≤ V → V ≤ V' →
      (terms u d' D' k U V' l).sum ≤ (terms u d D k U V l).sum
  | [], _, _, _, _, _, _, _ => le_rfl
  | a :: l, k, U, V, V', hd, hV, hVV' => by
      obtain ⟨⟨ha, haa'⟩, hd⟩ := List.forall_mem_cons.mp hd
      have hrest := terms_mono (k := k + 1) (U := U + u a) hD hDD' hd (add_nonneg hV ha.le)
        (add_le_add hVV' haa')
      rw [sum_terms_cons, sum_terms_cons]
      refine add_le_add (div_le_div_of_nonneg_left (abs_nonneg _) (den_pos hD hV ha) ?_) hrest
      have hD' : 0 ≤ D' := hD.le.trans hDD'
      refine Real.sqrt_le_sqrt ?_
      gcongr

/-- Where the total does not get smaller for it, nothing is summed up, and the rest of the total
does not either. -/
lemma head_eq_zero {d' : α → ℝ} {D' V' : ℝ} (hD : 0 < D) (hDD' : D ≤ D')
    (hd : ∀ b ∈ a :: l, 0 < d b ∧ d b ≤ d' b) (hV : 0 ≤ V) (hVV' : V ≤ V')
    (hlt : D * (V + d a) < D' * (V' + d' a))
    (heq : (terms u d' D' k U V' (a :: l)).sum = (terms u d D k U V (a :: l)).sum) :
    U + u a = 0 ∧ (terms u d' D' (k + 1) (U + u a) (V' + d' a) l).sum =
      (terms u d D (k + 1) (U + u a) (V + d a) l).sum := by
  obtain ⟨⟨ha, haa'⟩, hd⟩ := List.forall_mem_cons.mp hd
  have hrest := terms_mono (u := u) (k := k + 1) (U := U + u a) hD hDD' hd (add_nonneg hV ha.le)
    (add_le_add hVV' haa')
  have hroot : √((k + 1) * D * (V + d a)) < √((k + 1) * D' * (V' + d' a)) := by
    refine Real.sqrt_lt_sqrt (by positivity) ?_
    rw [mul_assoc, mul_assoc]
    exact mul_lt_mul_of_pos_left hlt (by positivity)
  rw [sum_terms_cons, sum_terms_cons] at heq
  have hhead : |U + u a| / √((k + 1) * D' * (V' + d' a)) ≤
      |U + u a| / √((k + 1) * D * (V + d a)) :=
    div_le_div_of_nonneg_left (abs_nonneg _) (den_pos hD hV ha) hroot.le
  have hzero : U + u a = 0 := by
    by_contra hne
    have hstrict := div_lt_div_of_pos_left (abs_pos.mpr hne) (den_pos (k := k) hD hV ha) hroot
    linarith
  exact ⟨hzero, by linarith⟩

/-- A first pair that is correlated makes the total positive. -/
lemma sum_terms_pos (hD : 0 < D) (ha : 0 < d a) (hV : 0 ≤ V) (hU : U + u a ≠ 0) :
    0 < (terms u d D k U V (a :: l)).sum := by
  have hnonneg : ∀ {l : List α} {k : ℕ} {U V : ℝ}, 0 ≤ (terms u d D k U V l).sum := by
    intro l
    induction l with
    | nil => exact fun {_ _ _} => le_rfl
    | cons b l ih =>
        intro k U V
        rw [sum_terms_cons]
        exact add_nonneg (div_nonneg (abs_nonneg _) (Real.sqrt_nonneg _)) ih
  rw [sum_terms_cons]
  exact add_pos_of_pos_of_nonneg (div_pos (abs_pos.mpr hU) (den_pos hD hV ha)) hnonneg

end RunningSums

end FastLivo2
