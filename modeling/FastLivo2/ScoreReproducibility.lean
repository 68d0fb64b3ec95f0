import FastLivo2.ReferenceScore
import FastLivo2.Covariance

/-!
# When a score is that of the pairs

The score of an observation is the wanted one, in every order of the observations and with every
mean computed before or not, for some patches only (`Reproducible`).  A mean that has been computed
reads as anything, so the sums of the pair are then those about another mean (`offSums_eq`); and
the sums run on from pair to pair, which keeps the total only where nothing is summed up or the same
sums again and again (`RunningSums.sum_terms_eq_iff`).
-/

namespace FastLivo2

namespace VIOManager

/-! ## Sums about a mean -/

section

variable (cfg : VioConfig)

/-- The covariance of two patches, not divided by their size. -/
def covariance (f g : Feature) : ℚ :=
  patchSum cfg fun k => (f.patch.at k - meanOf cfg f) * (g.patch.at k - meanOf cfg g)

/-- The sums of a pair with the means off by this much. -/
def offSums (f : Feature) (a : ℚ) (b : Feature → ℚ) (g : Feature) : NccSums :=
  pairSums cfg f (meanOf cfg f - a) g (meanOf cfg g - b g)

/-- A patch of one grey value. -/
def Flat (g : Feature) : Prop := covariance cfg g g = 0

/-- A mean that counts as not computed, and is computed again in every turn. -/
def Unkept (g : Feature) : Prop := |meanOf cfg g| < 1 / 1000000

/-- The patches for which the score does not depend on the order and on the means computed. -/
def Reproducible (f : Feature) (obs : List Feature) : Prop :=
  (Flat cfg f ∧ Unkept cfg f) ∨ (∀ g ∈ obs, Flat cfg g ∧ Unkept cfg g) ∨
  ((¬ Flat cfg f ∧ ∀ g ∈ obs, ¬ Flat cfg g) ∧
    (((∀ g ∈ obs, covariance cfg f g = 0) ∧ (Unkept cfg f ∨ ∀ g ∈ obs, Unkept cfg g)) ∨
      ((Unkept cfg f ∧ ∀ g ∈ obs, Unkept cfg g) ∧ ∀ g ∈ obs, ∀ h ∈ obs,
        covariance cfg f g = covariance cfg f h ∧ covariance cfg g g = covariance cfg h h)))

end

variable {L : VioLibs} {cfg : VioConfig} {pt : VisualPoint} {f g : Feature} {obs l : List Feature}
  {a : ℚ} {b : Feature → ℚ} {c : ℚ}

lemma patchSum_eq (a : ℕ → ℚ) : patchSum cfg a = ∑ k ∈ Finset.range cfg.patchSizeTotal, a k := rfl

lemma patchSum_sub_mean (cfg : VioConfig) (a : ℕ → ℚ) :
    patchSum cfg (fun k => a k - patchMean cfg.patchSizeTotal a) = 0 := by
  have hmean : patchMean cfg.patchSizeTotal a = patchSum cfg a / cfg.patchSizeTotal := rfl
  rw [patchSum_eq, Finset.sum_sub_distrib, Finset.sum_const, Finset.card_range, nsmul_eq_mul, hmean,
    ← patchSum_eq]
  rcases eq_or_ne cfg.patchSizeTotal 0 with h | h
  · rw [patchSum_eq, h]
    simp
  · rw [mul_div_cancel₀ _ (by exact_mod_cast h), sub_self]

/-- A sum of products about other means. -/
lemma patchSum_shift (cfg : VioConfig) (a b : ℕ → ℚ) (x y : ℚ) :
    patchSum cfg (fun k => (a k - x) * (b k - y)) =
      patchSum cfg (fun k => (a k - patchMean cfg.patchSizeTotal a) *
        (b k - patchMean cfg.patchSizeTotal b)) +
      cfg.patchSizeTotal * (patchMean cfg.patchSizeTotal a - x) *
        (patchMean cfg.patchSizeTotal b - y) := by
  have ha := patchSum_sub_mean cfg a
  have hb := patchSum_sub_mean cfg b
  generalize patchMean cfg.patchSizeTotal a = μ at *
  generalize patchMean cfg.patchSizeTotal b = ν at *
  have hsplit : ∀ k, (a k - x) * (b k - y) = (a k - μ) * (b k - ν) + (μ - x) * (b k - ν) +
      (ν - y) * (a k - μ) + (μ - x) * (ν - y) := fun k => by ring
  rw [patchSum_eq] at ha hb ⊢
  rw [patchSum_eq, Finset.sum_congr rfl fun k _ => hsplit k, Finset.sum_add_distrib,
    Finset.sum_add_distrib, Finset.sum_add_distrib, ← Finset.mul_sum, ← Finset.mul_sum, ha, hb,
    Finset.sum_const, Finset.card_range, nsmul_eq_mul]
  ring

lemma offSums_eq (f : Feature) (a : ℚ) (b : Feature → ℚ) (g : Feature) :
    offSums cfg f a b g =
      ⟨covariance cfg f g + cfg.patchSizeTotal * a * b g,
        covariance cfg f f + cfg.patchSizeTotal * a * a,
        covariance cfg g g + cfg.patchSizeTotal * b g * b g⟩ := by
  have hf : meanOf cfg f - (meanOf cfg f - a) = a := sub_sub_cancel _ _
  have hg : meanOf cfg g - (meanOf cfg g - b g) = b g := sub_sub_cancel _ _
  have hup := patchSum_shift cfg f.patch.at g.patch.at (meanOf cfg f - a)
    (meanOf cfg g - b g)
  have hdown1 := patchSum_shift cfg f.patch.at f.patch.at (meanOf cfg f - a)
    (meanOf cfg f - a)
  have hdown2 := patchSum_shift cfg g.patch.at g.patch.at (meanOf cfg g - b g)
    (meanOf cfg g - b g)
  simp only [← meanOf.eq_1, hf, hg] at hup hdown1 hdown2
  exact NccSums.ext hup hdown1 hdown2

lemma covariance_self_nonneg (cfg : VioConfig) (g : Feature) : 0 ≤ covariance cfg g g := by
  unfold covariance
  rw [patchSum_eq]
  exact Finset.sum_nonneg fun k _ => mul_self_nonneg _

lemma covariance_self_pos (h : ¬ Flat cfg g) : 0 < covariance cfg g g :=
  (covariance_self_nonneg cfg g).lt_of_ne' h

lemma real_covariance_self_pos (h : ¬ Flat cfg g) : (0 : ℝ) < covariance cfg g g := by
  exact_mod_cast covariance_self_pos h

lemma patchSizeTotal_pos_of_not_flat (h : ¬ Flat cfg g) : (0 : ℝ) < cfg.patchSizeTotal := by
  rw [Nat.cast_pos]
  refine Nat.pos_of_ne_zero fun hzero => h ?_
  unfold Flat covariance
  rw [patchSum_eq, hzero, Finset.range_zero, Finset.sum_empty]

lemma patchSizeTotal_pos_of_kept (h : ¬ Unkept cfg g) : (0 : ℚ) < cfg.patchSizeTotal := by
  rw [Nat.cast_pos]
  refine Nat.pos_of_ne_zero fun hzero => h ?_
  unfold Unkept meanOf patchMean
  rw [hzero]
  norm_num

/-! ## Scores -/

/-- A quotient. -/
noncomputable def quotient (s : NccSums) : ℝ := |s.up / exactRoot (s.down1 * s.down2)|

/-- No quotient divides by zero. -/
def Defined (sums : List NccSums) : Prop := ∀ s ∈ sums, exactRoot (s.down1 * s.down2) ≠ 0

lemma scoreOf_of_defined {sums : List NccSums} (h : Defined sums) (hne : sums ≠ []) :
    scoreOf exactRoot c sums =
      some ((sums.map quotient).sum / sums.length + c) := by
  have hlen : (sums.length : ℝ) ≠ 0 := by
    exact_mod_cast (List.length_pos_iff.mpr hne).ne'
  unfold Defined at h
  unfold scoreOf
  rw [foldl_addQuotient, if_pos h, zero_add]
  exact if_neg hlen

lemma scoreOf_eq_none {sums : List NccSums} (h : ¬ Defined sums) :
    scoreOf exactRoot c sums = none := by
  unfold Defined at h
  unfold scoreOf
  rw [foldl_addQuotient, if_neg h]
  rfl

/-- Scores of as many quotients agree when none is a number, or the totals agree. -/
lemma scoreOf_eq_iff {s t : List NccSums} (hlen : s.length = t.length) (hne : s ≠ []) :
    scoreOf exactRoot c s = scoreOf exactRoot c t ↔
      (Defined s ↔ Defined t) ∧ (Defined s → (s.map quotient).sum = (t.map quotient).sum) := by
  have hne' : t ≠ [] := by
    rw [← List.length_pos_iff, ← hlen]
    exact List.length_pos_iff.mpr hne
  have hpos : (0 : ℝ) < t.length := by exact_mod_cast List.length_pos_iff.mpr hne'
  by_cases hs : Defined s <;> by_cases ht : Defined t
  · rw [scoreOf_of_defined hs hne, scoreOf_of_defined ht hne', hlen, Option.some_inj, add_left_inj,
      div_left_inj' hpos.ne']
    simp [hs, ht]
  · rw [scoreOf_of_defined hs hne, scoreOf_eq_none ht]
    simp [hs, ht]
  · rw [scoreOf_eq_none hs, scoreOf_of_defined ht hne']
    simp [hs, ht]
  · rw [scoreOf_eq_none hs, scoreOf_eq_none ht]
    simp [hs, ht]

/-- A score does not depend on the order of quotients of their own. -/
lemma scoreOf_perm {s t : List NccSums} (h : s.Perm t) :
    scoreOf exactRoot c s = scoreOf exactRoot c t := by
  rcases eq_or_ne s [] with rfl | hne
  · rw [h.nil_eq]
  · refine (scoreOf_eq_iff h.length_eq hne).mpr ⟨?_, fun _ => (h.map quotient).sum_eq⟩
    unfold Defined
    simp only [h.mem_iff]

/-! ## Sums that run on -/

/-- What the sums of a pair are in exact arithmetic. -/
lemma map_quotient_runSums (pair : Feature → NccSums) {D : ℚ} (hD : ∀ g, (pair g).down1 = D) :
    ∀ (l : List Feature) (k : ℕ) (U V : ℚ),
      (runSums ⟨U, k * D, V⟩ (l.map pair)).map quotient =
        RunningSums.terms (fun g => ((pair g).up : ℝ)) (fun g => ((pair g).down2 : ℝ)) D k U V l
  | [], _, _, _ => rfl
  | g :: l, k, U, V => by
      have hadd : NccSums.add ⟨U, k * D, V⟩ (pair g) =
          ⟨U + (pair g).up, (k + 1 : ℕ) * D, V + (pair g).down2⟩ := by
        ext
        · rfl
        · show k * D + (pair g).down1 = (k + 1 : ℕ) * D
          rw [hD]
          push_cast
          ring
        · rfl
      have hrest := map_quotient_runSums pair hD l (k + 1) (U + (pair g).up) (V + (pair g).down2)
      rw [List.map_cons, runSums, hadd, List.map_cons, hrest, RunningSums.terms]
      unfold quotient exactRoot
      push_cast
      rw [abs_div, abs_of_nonneg (Real.sqrt_nonneg _)]

lemma exactRoot_ne_zero {q : ℚ} : exactRoot q ≠ 0 ↔ 0 < q := by
  rw [exactRoot, Real.sqrt_ne_zero', Rat.cast_pos]

lemma exactRoot_mul_self {q : ℚ} (hq : 0 ≤ q) : exactRoot (q * q) = q := by
  rw [exactRoot, Rat.cast_mul, Real.sqrt_mul_self (by exact_mod_cast hq)]

/-- Sums that are positive once stay so. -/
lemma defined_runSums : ∀ {l : List NccSums} {acc : NccSums},
    (∀ s ∈ l, 0 ≤ s.down1 ∧ 0 ≤ s.down2) → 0 < acc.down1 → 0 < acc.down2 →
    Defined (runSums acc l)
  | [], _, _, _, _ => by simp [Defined, runSums]
  | s :: l, acc, hl, h1, h2 => by
      obtain ⟨⟨hs1, hs2⟩, hl⟩ := List.forall_mem_cons.mp hl
      have h1' : 0 < (acc.add s).down1 := add_pos_of_pos_of_nonneg h1 hs1
      have h2' : 0 < (acc.add s).down2 := add_pos_of_pos_of_nonneg h2 hs2
      exact List.forall_mem_cons.mpr
        ⟨exactRoot_ne_zero.mpr (mul_pos h1' h2'), defined_runSums hl h1' h2'⟩

/-- The quotients are numbers when the first one is. -/
lemma defined_runSums_cons {s : NccSums} {l : List NccSums} (hs : 0 ≤ s.down1 ∧ 0 ≤ s.down2)
    (hl : ∀ t ∈ l, 0 ≤ t.down1 ∧ 0 ≤ t.down2) :
    Defined (runSums {} (s :: l)) ↔ 0 < s.down1 ∧ 0 < s.down2 := by
  have hfirst : NccSums.add {} s = s := by
    ext
    exacts [zero_add _, zero_add _, zero_add _]
  rw [runSums, hfirst]
  constructor
  · intro h
    have hpos := exactRoot_ne_zero.mp (h s (by simp))
    refine ⟨hs.1.lt_of_ne' ?_, hs.2.lt_of_ne' ?_⟩ <;> intro hzero
    · rw [hzero, zero_mul] at hpos
      exact lt_irrefl _ hpos
    · rw [hzero, mul_zero] at hpos
      exact lt_irrefl _ hpos
  · rintro ⟨h1, h2⟩
    exact List.forall_mem_cons.mpr
      ⟨exactRoot_ne_zero.mpr (mul_pos h1 h2), defined_runSums hl h1 h2⟩

lemma offSums_nonneg (f : Feature) (a : ℚ) (b : Feature → ℚ) (g : Feature) :
    0 ≤ (offSums cfg f a b g).down1 ∧ 0 ≤ (offSums cfg f a b g).down2 := by
  constructor <;> exact List.sum_nonneg (by simp +contextual [mul_self_nonneg])

/-- The total in exact arithmetic, with the means off by this much. -/
noncomputable def offTotal (cfg : VioConfig) (f : Feature) (a : ℚ) (b : Feature → ℚ)
    (l : List Feature) : ℝ :=
  (RunningSums.terms
    (fun g => (covariance cfg f g + cfg.patchSizeTotal * a * b g : ℝ))
    (fun g => (covariance cfg g g + cfg.patchSizeTotal * b g * b g : ℝ))
    (covariance cfg f f + cfg.patchSizeTotal * a * a) 0 0 0 l).sum

lemma sum_quotient_offSums (f : Feature) (a : ℚ) (b : Feature → ℚ) (l : List Feature) :
    ((runSums {} (l.map (offSums cfg f a b))).map quotient).sum = offTotal cfg f a b l := by
  have hrun := map_quotient_runSums (offSums cfg f a b)
    (D := covariance cfg f f + cfg.patchSizeTotal * a * a) (fun g => by rw [offSums_eq]) l 0 0 0
  rw [Nat.cast_zero, zero_mul] at hrun
  refine (congrArg List.sum hrun).trans ?_
  unfold offTotal
  simp only [offSums_eq]
  push_cast
  rfl

/-- The total of the pairs alone. -/
noncomputable def ownTotal (cfg : VioConfig) (f : Feature) (l : List Feature) : ℝ :=
  (l.map (RunningSums.alone (fun g => (covariance cfg f g : ℝ))
    (fun g => (covariance cfg g g : ℝ)) (covariance cfg f f))).sum

lemma sum_quotient_ownSums (f : Feature) (l : List Feature) :
    ((l.map (ownSums cfg f)).map quotient).sum = ownTotal cfg f l := by
  have hpair : ∀ g, quotient (ownSums cfg f g) = RunningSums.alone
      (fun g => (covariance cfg f g : ℝ)) (fun g => (covariance cfg g g : ℝ))
      (covariance cfg f f) g := by
    intro g
    show |((covariance cfg f g : ℚ) : ℝ) / exactRoot (covariance cfg f f * covariance cfg g g)| = _
    unfold exactRoot RunningSums.alone
    push_cast
    rw [abs_div, abs_of_nonneg (Real.sqrt_nonneg _)]
  unfold ownTotal
  rw [List.map_map]
  exact congrArg List.sum (List.map_congr_left fun g _ => hpair g)

lemma defined_ownSums {f : Feature} {l : List Feature} :
    Defined (l.map (ownSums cfg f)) ↔ ∀ g ∈ l, ¬ Flat cfg f ∧ ¬ Flat cfg g := by
  have hpair : ∀ g, exactRoot ((ownSums cfg f g).down1 * (ownSums cfg f g).down2) ≠ 0 ↔
      ¬ Flat cfg f ∧ ¬ Flat cfg g := by
    intro g
    show exactRoot (covariance cfg f f * covariance cfg g g) ≠ 0 ↔ _
    have hnonneg := mul_nonneg (covariance_self_nonneg cfg f)
      (covariance_self_nonneg cfg g)
    rw [exactRoot_ne_zero, hnonneg.lt_iff_ne', mul_ne_zero_iff]
    rfl
  simp only [Defined, List.forall_mem_map, hpair]

lemma defined_offSums {f g : Feature} {l : List Feature} :
    Defined (runSums {} ((g :: l).map (offSums cfg f a b))) ↔
      0 < covariance cfg f f + cfg.patchSizeTotal * a * a ∧
      0 < covariance cfg g g + cfg.patchSizeTotal * b g * b g := by
  have hall : ∀ s ∈ l.map (offSums cfg f a b), 0 ≤ s.down1 ∧ 0 ≤ s.down2 :=
    List.forall_mem_map.mpr fun g _ => offSums_nonneg f a b g
  rw [List.map_cons, defined_runSums_cons (offSums_nonneg f a b g) hall, offSums_eq]

/-! ## Enough -/

lemma Reproducible.ownTotal_eq (hf : ¬ Flat cfg f) (hl : ∀ g ∈ l, ¬ Flat cfg g)
    (h : ((∀ g ∈ l, covariance cfg f g = 0) ∧ (a = 0 ∨ ∀ g ∈ l, b g = 0)) ∨
      ((a = 0 ∧ ∀ g ∈ l, b g = 0) ∧ ∀ g ∈ l, ∀ h ∈ l,
        covariance cfg f g = covariance cfg f h ∧ covariance cfg g g = covariance cfg h h)) :
    offTotal cfg f a b l = ownTotal cfg f l := by
  unfold offTotal ownTotal
  rcases h with ⟨hzero, hoff⟩ | ⟨⟨ha, hb⟩, hsame⟩
  · have hup : ∀ g ∈ l, (covariance cfg f g + cfg.patchSizeTotal * a * b g : ℝ) = 0 := by
      intro g hg
      rcases hoff with ha | hb
      · simp [hzero g hg, ha]
      · simp [hzero g hg, hb g hg]
    rw [RunningSums.sum_terms_zero hup,
      RunningSums.sum_alone_zero fun g hg => by rw [hzero g hg, Rat.cast_zero]]
  · have hD : (0 : ℝ) < covariance cfg f f := real_covariance_self_pos hf
    have hd : ∀ g ∈ l, (0 : ℝ) < covariance cfg g g := fun g hg =>
      real_covariance_self_pos (hl g hg)
    have hall := (RunningSums.sum_terms_eq_iff (u := fun g => (covariance cfg f g : ℝ)) hD hd).mpr
      (.inr fun g hg h hh => by exact_mod_cast hsame g hg h hh) l (List.Perm.refl l)
    rw [← hall, ha, Rat.cast_zero, mul_zero, mul_zero, add_zero]
    refine congrArg List.sum (RunningSums.terms_congr fun g hg => ?_)
    simp [hb g hg]

/-- The score is that of the pairs, whichever means are off. -/
theorem Reproducible.score_eq (h : Reproducible cfg f l) (c : ℚ)
    (ha : Unkept cfg f → a = 0)
    (hb : ∀ g ∈ l, Unkept cfg g → b g = 0) :
    scoreOf exactRoot c (runSums {} (l.map (offSums cfg f a b))) =
      scoreOf exactRoot c (l.map (ownSums cfg f)) := by
  cases hl : l with
  | nil => rfl
  | cons g s =>
      rw [← hl]
      have hg : g ∈ l := by simp [hl]
      refine (scoreOf_eq_iff (by simp [length_runSums]) (by simp [hl, runSums])).mpr ?_
      rw [sum_quotient_offSums, sum_quotient_ownSums]
      have hrun : Defined (runSums {} (l.map (offSums cfg f a b))) ↔
          0 < covariance cfg f f + cfg.patchSizeTotal * a * a ∧
          0 < covariance cfg g g + cfg.patchSizeTotal * b g * b g := by
        rw [hl]
        exact defined_offSums
      rw [hrun, defined_ownSums]
      rcases h with ⟨hflat, hunkept⟩ | hall | ⟨⟨hf, hflats⟩, htotal⟩
      · have hzero : covariance cfg f f = 0 := hflat
        have hnot : ¬ 0 < covariance cfg f f + cfg.patchSizeTotal * a * a := by
          rw [hzero, ha hunkept]
          simp
        exact ⟨⟨fun hpos => absurd hpos.1 hnot, fun hown => absurd hflat (hown g hg).1⟩,
          fun hpos => absurd hpos.1 hnot⟩
      · obtain ⟨hflat, hunkept⟩ := hall g hg
        have hzero : covariance cfg g g = 0 := hflat
        have hnot : ¬ 0 < covariance cfg g g + cfg.patchSizeTotal * b g * b g := by
          rw [hzero, hb g hg hunkept]
          simp
        exact ⟨⟨fun hpos => absurd hpos.2 hnot, fun hown => absurd hflat (hown g hg).2⟩,
          fun hpos => absurd hpos.2 hnot⟩
      · have hvar : ∀ {g : Feature} (c : ℚ), ¬ Flat cfg g →
            0 < covariance cfg g g + cfg.patchSizeTotal * c * c := fun c hg => by
          have hsq : (0 : ℚ) ≤ cfg.patchSizeTotal * c * c := by
            rw [mul_assoc]
            exact mul_nonneg (Nat.cast_nonneg _) (mul_self_nonneg c)
          linarith [covariance_self_pos hg]
        refine ⟨⟨fun _ g hg => ⟨hf, hflats g hg⟩, fun _ => ⟨hvar a hf, hvar (b g) (hflats g hg)⟩⟩,
          fun _ => Reproducible.ownTotal_eq hf hflats ?_⟩
        rcases htotal with ⟨hzero, hoff⟩ | ⟨⟨hunkept, hall⟩, hsame⟩
        · exact .inl ⟨hzero, hoff.imp ha fun h g hg => hb g hg (h g hg)⟩
        · exact .inr ⟨⟨ha hunkept, fun g hg => hb g hg (hall g hg)⟩, hsame⟩

/-! ## Needed -/

/-- A mean that has been computed is off by this much. -/
def slip (cfg : VioConfig) (t : ℚ) (g : Feature) : ℚ :=
  if |meanOf cfg g| < 1 / 1000000 then 0 else t

lemma slip_zero (g : Feature) : slip cfg 0 g = 0 := ite_self 0

lemma slip_of_kept {t : ℚ} (h : ¬ Unkept cfg g) : slip cfg t g = t := if_neg h

lemma exists_perm_cons (h : g ∈ obs) : ∃ l, (g :: l).Perm obs := by
  obtain ⟨s, t, rfl⟩ := List.append_of_mem h
  exact ⟨s ++ t, List.perm_middle.symm⟩

/-- A patch that is not flat, or whose mean is off, makes a positive sum. -/
lemma slip_pos (h : ¬ (Flat cfg g ∧ Unkept cfg g)) :
    0 < covariance cfg g g + cfg.patchSizeTotal * slip cfg 1 g * slip cfg 1 g := by
  have hcov := covariance_self_nonneg cfg g
  by_cases hflat : Flat cfg g
  · have hkept : ¬ Unkept cfg g := fun hunkept => h ⟨hflat, hunkept⟩
    have hsize := patchSizeTotal_pos_of_kept hkept
    rw [slip_of_kept hkept]
    linarith
  · have hsq : (0 : ℚ) ≤ cfg.patchSizeTotal * slip cfg 1 g * slip cfg 1 g := by
      rw [mul_assoc]
      exact mul_nonneg (Nat.cast_nonneg _) (mul_self_nonneg _)
    linarith [covariance_self_pos hflat]

/-- What is asked of the totals, in every order and with means that are off. -/
def Agrees (cfg : VioConfig) (f : Feature) (obs : List Feature) : Prop :=
  ∀ l : List Feature, l.Perm obs → ∀ s t : ℚ,
    offTotal cfg f (slip cfg s f) (slip cfg t) l = ownTotal cfg f l

section

variable (hf : ¬ Flat cfg f) (hobs : ∀ g ∈ obs, ¬ Flat cfg g) (h : Agrees cfg f obs)

include hf hobs h

/-- With a mean of its own that has been computed, nothing may be correlated. -/
lemma Agrees.uncorrelated_of_kept (hkept : ¬ Unkept cfg f) (hg : g ∈ obs) :
    covariance cfg f g = 0 := by
  obtain ⟨l, hl⟩ := exists_perm_cons hg
  have hon := h (g :: l) hl 0 0
  have hoff := h (g :: l) hl 1 0
  rw [slip_zero] at hon
  rw [slip_of_kept hkept] at hoff
  unfold offTotal at hon hoff
  have hb : ∀ g, slip cfg 0 g = 0 := slip_zero
  simp only [hb, Rat.cast_zero, Rat.cast_one, mul_zero, add_zero, mul_one] at hon hoff
  have hD : (0 : ℝ) < covariance cfg f f := real_covariance_self_pos hf
  have hsize := patchSizeTotal_pos_of_not_flat hf
  have hd : ∀ g ∈ obs, (0 : ℝ) < covariance cfg g g := fun g hg =>
    real_covariance_self_pos (hobs g hg)
  have hhead := RunningSums.head_eq_zero (u := fun g => (covariance cfg f g : ℝ))
    (d := fun g => (covariance cfg g g : ℝ)) (k := 0) (U := 0) hD (le_add_of_nonneg_right hsize.le)
    (fun b hb => ⟨hd b (hl.mem_iff.mp hb), le_rfl⟩) le_rfl le_rfl ?_ (hoff.trans hon.symm)
  · have hzero := hhead.1
    rw [zero_add] at hzero
    exact_mod_cast hzero
  · rw [zero_add]
    exact mul_lt_mul_of_pos_right (lt_add_of_pos_right _ hsize) (hd g hg)

/-- With another mean that has been computed, nothing may be correlated. -/
lemma Agrees.uncorrelated_of_other_kept (hg : g ∈ obs) (hkept : ¬ Unkept cfg g) :
    ∀ h ∈ obs, covariance cfg f h = 0 := by
  have hD : (0 : ℝ) < covariance cfg f f := real_covariance_self_pos hf
  have hsize := patchSizeTotal_pos_of_not_flat hf
  have hd : ∀ b ∈ obs, (0 : ℝ) < covariance cfg b b ∧ (covariance cfg b b : ℝ) ≤
      covariance cfg b b + cfg.patchSizeTotal * slip cfg 1 b * slip cfg 1 b := fun b hb => by
    refine ⟨real_covariance_self_pos (hobs b hb), le_add_of_nonneg_right ?_⟩
    rw [mul_assoc]
    exact mul_nonneg hsize.le (mul_self_nonneg _)
  have hlt : (covariance cfg f f : ℝ) * (0 + covariance cfg g g) < covariance cfg f f *
      (0 + (covariance cfg g g + cfg.patchSizeTotal * slip cfg 1 g * slip cfg 1 g)) := by
    rw [slip_of_kept hkept, Rat.cast_one, mul_one, mul_one, zero_add, zero_add]
    exact mul_lt_mul_of_pos_left (lt_add_of_pos_right _ hsize) hD
  -- the totals of one order, without and with the other means off
  have htotals : ∀ l, (g :: l).Perm obs → covariance cfg f g = 0 ∧
      (RunningSums.terms (fun g => (covariance cfg f g : ℝ))
        (fun g => (covariance cfg g g + cfg.patchSizeTotal * slip cfg 1 g * slip cfg 1 g : ℝ))
        (covariance cfg f f) 1 (0 + covariance cfg f g)
        (0 + (covariance cfg g g + cfg.patchSizeTotal * slip cfg 1 g * slip cfg 1 g)) l).sum =
      (RunningSums.terms (fun g => (covariance cfg f g : ℝ)) (fun g => (covariance cfg g g : ℝ))
        (covariance cfg f f) 1 (0 + covariance cfg f g) (0 + covariance cfg g g) l).sum := by
    intro l hl
    have hon := h (g :: l) hl 0 0
    have hoff := h (g :: l) hl 0 1
    unfold offTotal at hon hoff
    have hb : ∀ g, slip cfg 0 g = 0 := slip_zero
    simp only [hb, Rat.cast_zero, mul_zero, zero_mul, add_zero] at hon hoff
    have hhead := RunningSums.head_eq_zero (k := 0) (U := 0) hD le_rfl
      (fun b hb => hd b (hl.mem_iff.mp hb)) le_rfl le_rfl hlt (hoff.trans hon.symm)
    refine ⟨?_, hhead.2⟩
    have hzero := hhead.1
    rw [zero_add] at hzero
    exact_mod_cast hzero
  obtain ⟨l, hl⟩ := exists_perm_cons hg
  have hfg := (htotals l hl).1
  intro h hh
  rcases List.mem_cons.mp (hl.mem_iff.mpr hh) with rfl | hmem
  · exact hfg
  · obtain ⟨l', hl'⟩ := exists_perm_cons hmem
    have hperm : (g :: h :: l').Perm obs := (hl'.cons g).trans hl
    have htail := (htotals (h :: l') hperm).2
    rw [hfg, Rat.cast_zero, add_zero] at htail
    have hmem' : ∀ b ∈ h :: l', b ∈ obs := fun b hb =>
      hperm.mem_iff.mp (List.mem_cons_of_mem g hb)
    have hg' := hd g hg
    have hhead := RunningSums.head_eq_zero hD le_rfl (fun b hb => hd b (hmem' b hb))
      (add_nonneg le_rfl hg'.1.le) (add_le_add_right hg'.2 0) ?_ htail
    · have hzero := hhead.1
      rw [zero_add] at hzero
      exact_mod_cast hzero
    · have hh' := hd h hh
      nlinarith

/-- Where nothing is correlated, two means that have been computed make it so. -/
lemma Agrees.unkept_of_uncorrelated (hzero : ∀ g ∈ obs, covariance cfg f g = 0) :
    Unkept cfg f ∨ ∀ g ∈ obs, Unkept cfg g := by
  by_contra hnot
  push Not at hnot
  obtain ⟨hkept, g, hg, hkept'⟩ := hnot
  obtain ⟨l, hl⟩ := exists_perm_cons hg
  have hsize := patchSizeTotal_pos_of_not_flat hf
  have hD : (0 : ℝ) < covariance cfg f f := real_covariance_self_pos hf
  have hd : (0 : ℝ) < covariance cfg g g := real_covariance_self_pos (hobs g hg)
  have hoff := h (g :: l) hl 1 1
  have hown : ownTotal cfg f (g :: l) = 0 := RunningSums.sum_alone_zero fun b hb => by
    rw [hzero b (hl.mem_iff.mp hb), Rat.cast_zero]
  rw [hown, slip_of_kept hkept] at hoff
  refine (RunningSums.sum_terms_pos (k := 0) ?_ ?_ le_rfl ?_).ne' hoff
  · simp only [Rat.cast_one]
    linarith
  · rw [slip_of_kept hkept', Rat.cast_one]
    linarith
  · rw [slip_of_kept hkept', hzero g hg, Rat.cast_one, Rat.cast_zero]
    linarith

/-- Where something is correlated, totals that agree in every order make the others similar. -/
lemma Agrees.similar_of_correlated (hcorrelated : ¬ ∀ g ∈ obs, covariance cfg f g = 0) :
    ∀ b ∈ obs, ∀ c ∈ obs,
      covariance cfg f b = covariance cfg f c ∧ covariance cfg b b = covariance cfg c c := by
  have hD : (0 : ℝ) < covariance cfg f f := real_covariance_self_pos hf
  have hd : ∀ b ∈ obs, (0 : ℝ) < covariance cfg b b := fun b hb =>
    real_covariance_self_pos (hobs b hb)
  have hrun := (RunningSums.sum_terms_eq_iff (u := fun b => (covariance cfg f b : ℝ)) hD hd).mp
    fun l hl => by
      have htotal := h l hl 0 0
      unfold offTotal ownTotal at htotal
      have hb : ∀ g, slip cfg 0 g = 0 := slip_zero
      simpa only [hb, Rat.cast_zero, mul_zero, add_zero] using htotal
  rcases hrun with hcov | hsame
  · exact absurd (fun b hb => by exact_mod_cast hcov b hb) hcorrelated
  · exact fun b hb c hc => by exact_mod_cast hsame b hb c hc

end

/-- **Only for such patches** does the score never depend on the order and on the means. -/
theorem reproducible_of_scores (c : ℚ) (h : ∀ l : List Feature, l.Perm obs → ∀ s t : ℚ,
    scoreOf exactRoot c (runSums {} (l.map (offSums cfg f (slip cfg s f) (slip cfg t)))) =
      scoreOf exactRoot c (l.map (ownSums cfg f))) : Reproducible cfg f obs := by
  by_cases hall : ∀ g ∈ obs, Flat cfg g ∧ Unkept cfg g
  · exact .inr (.inl hall)
  by_cases hself : Flat cfg f ∧ Unkept cfg f
  · exact .inl hself
  have hscores : ∀ l : List Feature, l.Perm obs → l ≠ [] → ∀ s t : ℚ,
      (Defined (runSums {} (l.map (offSums cfg f (slip cfg s f) (slip cfg t)))) ↔
        Defined (l.map (ownSums cfg f))) ∧
      (Defined (runSums {} (l.map (offSums cfg f (slip cfg s f) (slip cfg t)))) →
        offTotal cfg f (slip cfg s f) (slip cfg t) l = ownTotal cfg f l) := by
    intro l hl hne s t
    rw [← sum_quotient_offSums, ← sum_quotient_ownSums]
    refine (scoreOf_eq_iff (by rw [length_runSums, List.length_map, List.length_map]) ?_).mp
      (h l hl s t)
    rw [← List.length_pos_iff, length_runSums, List.length_map]
    exact List.length_pos_iff.mpr hne
  -- with the right one first, the code's score is a number, so the claimed one is as well
  push Not at hall
  obtain ⟨g, hg, hnot⟩ := hall
  obtain ⟨l, hl⟩ := exists_perm_cons hg
  have hown : Defined ((g :: l).map (ownSums cfg f)) :=
    (hscores (g :: l) hl (List.cons_ne_nil g l) 1 1).1.mp
      (defined_offSums.mpr ⟨slip_pos hself, slip_pos fun hboth => hnot hboth.1 hboth.2⟩)
  rw [defined_ownSums] at hown
  have hf : ¬ Flat cfg f := (hown g (by simp)).1
  have hobs : ∀ b ∈ obs, ¬ Flat cfg b := fun b hb => (hown b (hl.mem_iff.mpr hb)).2
  have hagrees : Agrees cfg f obs := by
    intro l' hl' s t
    have hne : l' ≠ [] := fun hnil => by
      rw [hnil] at hl'
      exact absurd (hl'.mem_iff.mpr hg) List.not_mem_nil
    have hdef : Defined (l'.map (ownSums cfg f)) :=
      defined_ownSums.mpr fun b hb => ⟨hf, hobs b (hl'.mem_iff.mp hb)⟩
    obtain ⟨hiff, htotal⟩ := hscores l' hl' hne s t
    exact htotal (hiff.mpr hdef)
  refine .inr (.inr ⟨⟨hf, hobs⟩, ?_⟩)
  by_cases hzero : ∀ b ∈ obs, covariance cfg f b = 0
  · exact .inl ⟨hzero, hagrees.unkept_of_uncorrelated hf hobs hzero⟩
  · have hunkept : Unkept cfg f := by
      by_contra hkept
      exact hzero fun b hb => hagrees.uncorrelated_of_kept hf hobs hkept hb
    have hothers : ∀ b ∈ obs, Unkept cfg b := by
      intro b hb
      by_contra hkept
      exact hzero (hagrees.uncorrelated_of_other_kept hf hobs hb hkept)
    exact .inr ⟨⟨hunkept, hothers⟩, hagrees.similar_of_correlated hf hobs hzero⟩

/-! ## The turns -/

lemma others_congr (h : g.id = f.id) (obs : List Feature) : others g obs = others f obs := by
  unfold others
  rw [h]

lemma others_map_core (f : Feature) (obs : List Feature) :
    (others f obs).map Feature.core = others f (obs.map Feature.core) := by
  unfold others
  rw [List.filter_map]
  rfl

lemma Reproducible.perm (h : Reproducible cfg f obs)
    (hperm : (l.map Feature.core).Perm (obs.map Feature.core)) : Reproducible cfg f l := by
  have hcore : ∀ m : List Feature, Reproducible cfg f (m.map Feature.core) ↔
      Reproducible cfg f m := fun m => by
    unfold Reproducible
    simp only [List.forall_mem_map]
    exact Iff.rfl
  rw [← hcore] at h ⊢
  unfold Reproducible at h ⊢
  simpa only [hperm.mem_iff] using h

lemma localMean_fst_of_unkept (h : MeanKept cfg g) (hunkept : Unkept cfg g) (x : ℚ) :
    (localMean cfg x g).1 = meanOf cfg g := by
  have hmean : |g.mean| < 1 / 1000000 := by
    rcases h with h | h <;> rw [h]
    · norm_num
    · exact hunkept
  unfold localMean
  rw [if_pos hmean]
  rfl

/-- The sums of a turn are those of the pairs with the means off. -/
lemma turnSums_eq_offSums (L : VioLibs) (pt : VisualPoint) {i : ℕ} (hf : pt.obs[i]? = some f)
    (hmeans : ∀ g ∈ pt.obs, MeanKept cfg g) :
    ∃ (l : List Feature) (a : ℚ) (b : Feature → ℚ),
      l.map Feature.core = (others f pt.obs).map Feature.core ∧
      (Unkept cfg f → a = 0) ∧ (∀ g ∈ l, Unkept cfg g → b g = 0) ∧
      turnSums L cfg pt i = runSums {} (l.map (offSums cfg f a b)) := by
  obtain ⟨g, hg, hgcore⟩ := turn_getElem? L cfg hf i
  have hturned := turn_turned L cfg pt i
  obtain ⟨⟨refMean, ftr⟩, hmean⟩ : ∃ m, localMean cfg (L.indeterminate g g) g = m := ⟨_, rfl⟩
  have hcore : ftr.core = g.core := by
    have hkeep : (localMean cfg (L.indeterminate g g) g).2.core = g.core := localMean_core _ g
    rwa [hmean] at hkeep
  have hfcore : ftr.core = f.core := hcore.trans hgcore
  have hpatch : ftr.patch = f.patch := (congrArg Feature.patch hfcore : _ = f.core.patch)
  have hid : ftr.id = f.id := (congrArg Feature.id hfcore : _ = f.core.id)
  have hkept := hturned.means hmeans
  have hgkept := hkept g (List.mem_of_getElem? hg)
  refine ⟨others ftr ((turn L cfg pt i).pt.obs.set i ftr), meanOf cfg f - refMean,
    fun h => meanOf cfg h - (localMean cfg (L.indeterminate ftr h) h).1, ?_, fun hunkept => ?_,
    fun h hh hunkept => ?_, ?_⟩
  · rw [others_map_core, map_core_set hg hcore, hturned.cores, ← others_map_core,
      others_congr hid]
  · have hown := localMean_fst_of_unkept hgkept
      (show Unkept cfg g.core by rw [hgcore]; exact hunkept) (L.indeterminate g g)
    have hmeanOf : meanOf cfg g.core = meanOf cfg f.core := by rw [hgcore]
    rw [hmean] at hown
    exact sub_eq_zero.mpr (hmeanOf.symm.trans hown.symm)
  · have hmem : h ∈ (turn L cfg pt i).pt.obs.set i ftr := (List.mem_filter.mp hh).1
    have hne : h ≠ ftr := by
      rintro rfl
      simpa using (List.mem_filter.mp hh).2
    have hhkept := hkept h ((List.mem_or_eq_of_mem_set hmem).resolve_right hne)
    exact sub_eq_zero.mpr (localMean_fst_of_unkept hhkept hunkept _).symm
  · rw [turnSums_eq hg hmean]
    unfold roundSums
    refine congrArg (runSums {}) (List.map_congr_left fun h _ => ?_)
    unfold offSums pairSums
    rw [sub_sub_cancel, sub_sub_cancel, hpatch]

/-- An observation with its mean computed before. -/
def kept (cfg : VioConfig) (g : Feature) : Feature := { g with mean := meanOf cfg g }

lemma localMean_kept (t : ℚ) (g : Feature) :
    localMean cfg (meanOf cfg g - t) (kept cfg g) =
      (meanOf cfg g - slip cfg t g, kept cfg g) := by
  unfold localMean slip
  show (if |meanOf cfg g| < 1 / 1000000 then _ else _) = _
  split_ifs
  · rw [sub_zero]
    rfl
  · rfl

/-- Any order of the others can be met in the first turn. -/
lemma exists_arrangement (hf : f ∈ obs) (hl : l.Perm (others f obs)) :
    ∃ rest : List Feature, (∀ g ∈ rest, g.id = f.id) ∧ (f :: (l ++ rest)).Perm obs := by
  obtain ⟨m, hm⟩ := exists_perm_cons hf
  refine ⟨m.filter fun g => !decide (g.id ≠ f.id), by simp, ?_⟩
  have hothers : (others f obs).Perm (others f m) := by
    have hperm := (hm.filter fun g => decide (g.id ≠ f.id)).symm
    simpa [others] using hperm
  have hsplit : (others f m ++ m.filter fun g => !decide (g.id ≠ f.id)).Perm m :=
    List.filter_append_perm _ m
  exact (((hl.trans hothers).append_right _).trans hsplit).cons f |>.trans hm

/-- The first turn of an arrangement with every mean computed before. -/
lemma turnSums_kept {rest : List Feature} {s t : ℚ} {p : VisualPoint}
    (hl : ∀ g ∈ l, g.id ≠ f.id) (hrest : ∀ g ∈ rest, g.id = f.id)
    (hr : L.indeterminate = fun g h => meanOf cfg h - if h.id = g.id then s else t)
    (hp : p.obs = (f :: (l ++ rest)).map (kept cfg)) :
    turnSums L cfg p 0 = runSums {} (l.map (offSums cfg f (slip cfg s f) (slip cfg t))) := by
  have hmean : localMean cfg (L.indeterminate (kept cfg f) (kept cfg f)) (kept cfg f) =
      (meanOf cfg f - slip cfg s f, kept cfg f) := by
    rw [hr]
    dsimp only
    rw [if_pos rfl]
    exact localMean_kept s f
  have hobs : (turn L cfg p 0).pt.obs = (f :: (l ++ rest)).map (kept cfg) := hp
  have hget : (turn L cfg p 0).pt.obs[0]? = some (kept cfg f) := by rw [hobs]; rfl
  have hothers : others (kept cfg f) ((turn L cfg p 0).pt.obs.set 0 (kept cfg f)) =
      l.map (kept cfg) := by
    rw [hobs, List.map_cons, List.set_cons_zero, ← List.map_cons]
    unfold others
    have hleft : l.filter (fun g => decide (g.id ≠ f.id)) = l :=
      List.filter_eq_self.mpr fun g hg => decide_eq_true (hl g hg)
    have hright : rest.filter (fun g => decide (g.id ≠ f.id)) = [] :=
      List.filter_eq_nil_iff.mpr fun g hg => by simp [hrest g hg]
    rw [List.filter_map]
    show ((f :: (l ++ rest)).filter fun g => decide (g.id ≠ f.id)).map (kept cfg) = _
    rw [List.filter_cons_of_neg (by simp), List.filter_append, hleft, hright, List.append_nil]
  rw [turnSums_eq hget hmean]
  unfold roundSums
  rw [hothers, List.map_map]
  refine congrArg (runSums {}) (List.map_congr_left fun g hg => ?_)
  have hother : localMean cfg (L.indeterminate (kept cfg f) (kept cfg g)) (kept cfg g) =
      (meanOf cfg g - slip cfg t g, kept cfg g) := by
    have hid : (kept cfg g).id ≠ (kept cfg f).id := hl g hg
    rw [hr]
    dsimp only
    rw [if_neg hid]
    exact localMean_kept t g
  show pairSums cfg (kept cfg f) _ (kept cfg g) _ = _
  rw [hother]
  rfl

/-- The sums of the pairs alone, in another order. -/
lemma ownSums_perm (f : Feature) {m : List Feature}
    (h : (l.map Feature.core).Perm (m.map Feature.core)) :
    (l.map (ownSums cfg f)).Perm (m.map (ownSums cfg f)) := by
  have hcore : ∀ n : List Feature, n.map (ownSums cfg f) =
      (n.map Feature.core).map (ownSums cfg f) := fun n => by
    rw [List.map_map]
    rfl
  rw [hcore l, hcore m]
  exact h.map _

lemma exactScore_eq {i : ℕ} (hf : pt.obs[i]? = some f) :
    exactScore L cfg pt i = scoreOf exactRoot (cosAngle L pt f) (turnSums L cfg pt i) := by
  unfold exactScore
  rw [hf]
  rfl

/-- **The reference score**: in every order of the observations, with every mean computed before or
not and whatever a mean that is not read back is, the scores are the wanted ones exactly when the
patches allow it. -/
theorem scores_right_iff (L : VioLibs) (cfg : VioConfig) (pt : VisualPoint) :
    (∀ obs' r, Rearranged cfg pt.obs obs' → ∀ i f, obs'[i]? = some f →
      exactScore { L with indeterminate := r } cfg { pt with obs := obs' } i =
        wantedScore L cfg pt f) ↔
      ∀ f ∈ pt.obs, Reproducible cfg f (others f pt.obs) := by
  constructor
  · -- the observation in front, the others behind it in any order, and all means computed before
    intro h f hf
    refine reproducible_of_scores (cosAngle L pt f) fun l hl s t => ?_
    obtain ⟨rest, hrest, hperm⟩ := exists_arrangement hf hl
    let r : Feature → Feature → ℚ := fun g h => meanOf cfg h - if h.id = g.id then s else t
    have harranged : Rearranged cfg pt.obs ((f :: (l ++ rest)).map (kept cfg)) := by
      refine ⟨?_, List.forall_mem_map.mpr fun g _ => .inr rfl⟩
      rw [List.map_map]
      exact hperm.map Feature.core
    have hl' : ∀ g ∈ l, g.id ≠ f.id := fun g hg =>
      of_decide_eq_true (List.mem_filter.mp (hl.mem_iff.mp hg)).2
    have hsums := turnSums_kept (L := { L with indeterminate := r })
      (p := { pt with obs := (f :: (l ++ rest)).map (kept cfg) }) hl' hrest rfl rfl
    have hwanted : wantedScore L cfg pt (kept cfg f) =
        scoreOf exactRoot (cosAngle L pt f) (l.map (ownSums cfg f)) :=
      scoreOf_perm (ownSums_perm f (hl.map Feature.core).symm)
    rw [← hwanted, ← h _ r harranged 0 (kept cfg f) rfl, ← hsums]
    rfl
  · intro h obs' r harranged i f hf
    obtain ⟨l, a, b, hcores, ha, hb, hsums⟩ :=
      turnSums_eq_offSums { L with indeterminate := r } { pt with obs := obs' } hf
        harranged.means
    have hperm : (l.map Feature.core).Perm ((others f pt.obs).map Feature.core) := by
      rw [hcores, others_map_core, others_map_core]
      exact harranged.perm.filter _
    obtain ⟨g, hg, hgf⟩ := List.mem_map.mp
      (harranged.perm.mem_iff.mp (List.mem_map_of_mem (List.mem_of_getElem? hf)))
    have hid : g.id = f.id := (congrArg Feature.id hgf : g.core.id = f.core.id)
    have hrep : Reproducible cfg f.core (others f pt.obs) := by
      rw [← hgf, ← others_congr hid]
      exact h g hg
    have hrep' : Reproducible cfg f l := Reproducible.perm hrep hperm
    rw [exactScore_eq hf, hsums, hrep'.score_eq _ ha hb]
    exact scoreOf_perm (ownSums_perm f hperm)

/-! ## A point seen six times -/

/-- An observation of bright and dark columns, the other way round in every other frame. -/
def stripedFeature (n : ℕ) : Feature where
  addr := n
  id := n
  img := {}
  px := ![320, 240]
  f := ![0, 0, 1]
  level := 0
  tFW := {}
  patch := ⟨n, (List.range 64).map fun k => if (k + n) % 2 = 0 then 101 else 99⟩
  invExpoTime := 1

/-- A point seen in six frames. -/
def stripedPoint : VisualPoint where
  pos := ![0, 0, 1]
  normal := ![0, 0, 1]
  obs := (List.range 6).map stripedFeature

lemma turnSums_stripedPoint : turnSums restLibs {} stripedPoint 0 =
    [⟨-64, 64, 64⟩, ⟨0, 128, 128⟩, ⟨-64, 192, 192⟩, ⟨0, 256, 256⟩, ⟨-64, 320, 320⟩] := by
  decide +kernel

lemma ownSums_stripedPoint :
    (others (stripedFeature 0) stripedPoint.obs).map (ownSums {} (stripedFeature 0)) =
      [⟨-64, 64, 64⟩, ⟨64, 64, 64⟩, ⟨-64, 64, 64⟩, ⟨64, 64, 64⟩, ⟨-64, 64, 64⟩] := by
  decide +kernel

lemma cosAngle_stripedPoint : cosAngle restLibs stripedPoint (stripedFeature 0) = 1 := by
  decide +kernel

/-- Every pair of the first observation is fully correlated; its score is far below that, with no
mean computed before. -/
theorem striped_score : (∀ g ∈ stripedPoint.obs, g.mean = 0) ∧
    stripedPoint.obs[0]? = some (stripedFeature 0) ∧
    exactScore restLibs {} stripedPoint 0 = some (23 / 75 + 1) ∧
    wantedScore restLibs {} stripedPoint (stripedFeature 0) = some (1 + 1) := by
  refine ⟨List.forall_mem_map.mpr fun _ _ => rfl, rfl, ?_, ?_⟩
  · rw [exactScore_eq rfl, cosAngle_stripedPoint, turnSums_stripedPoint,
      scoreOf_of_defined (by simp [Defined, exactRoot_mul_self]) (List.cons_ne_nil _ _)]
    simp [quotient, exactRoot_mul_self]
    norm_num
  · unfold wantedScore
    rw [ownSums_stripedPoint, cosAngle_stripedPoint,
      scoreOf_of_defined (by simp [Defined, exactRoot_mul_self]) (List.cons_ne_nil _ _)]
    simp [quotient, exactRoot_mul_self]
    norm_num

end VIOManager

end FastLivo2
