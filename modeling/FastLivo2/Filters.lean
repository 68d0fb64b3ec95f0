import FastLivo2.StampFilters
import FastLivo2.Lib.Gate
import FastLivo2.Lib.Precision

/-!
# When the stamp filters take up a stream

`imu_cbk` and `img_cbk` compare each message with the last stamp they accepted and drop it
without a trace when it lies before that stamp or, for the IMU, more than 0.2 s after it.  Both
are gates in the sense of `Gate`, so the question whether a stream that has become regular is
taken up again has an exact answer.

The image gate opens again as soon as the stream has passed the remembered stamp.  The IMU gate
never opens again once a message lies more than 0.2 s ahead of that stamp, since the
"imu time stamp Jumps" branch leaves the stamp as it is; and neither opens while a stamp from the
future is remembered.  A step of just 0.2 s or 0.05 s can round to either side of the gate.
-/

namespace FastLivo2

/-! ## What the filters need of the rounding -/

/-- The rounding keeps the order, the small whole numbers, and the sign of 0.05. -/
structure Rounding (fl : ℚ → ℚ) : Prop where
  mono : Monotone fl
  natCast : ∀ n : ℕ, n ≤ 1000000000 → fl n = n
  pos : 0 < fl (1 / 20)

lemma rounding_toDouble : Rounding toDouble where
  mono := toPrecision_mono (by norm_num)
  natCast n hn := by simpa using toPrecision_of_digits (p := 53) (m := n) (by omega) 0
  pos := by decide +kernel

namespace StampFilters

variable {fl : ℚ → ℚ} {cfg : Config}

section Rounded

variable (hfl : Rounding fl)
include hfl

lemma fl_zero : fl 0 = 0 := by simpa using hfl.natCast 0 (by norm_num)

lemma fl_nonneg {x : ℚ} (hx : 0 ≤ x) : 0 ≤ fl x := by
  have hmono := hfl.mono hx
  rwa [fl_zero hfl] at hmono

lemma stamp2Sec_mono {m n : Stamp} (h : m ≤ n) : stamp2Sec fl m ≤ stamp2Sec fl n := by
  have hcast : (m : ℚ) ≤ n := by exact_mod_cast h
  exact hfl.mono (div_le_div_of_nonneg_right (hfl.mono hcast) (by norm_num))

lemma stamp2Sec_nonneg (n : Stamp) : 0 ≤ stamp2Sec fl n :=
  fl_nonneg hfl (div_nonneg (fl_nonneg hfl n.cast_nonneg) (by norm_num))

/-- A second has no more than 1000000000 nanoseconds, rounded or not. -/
lemma truncated_mono {t u : ℚ} (h : t ≤ u) : truncated fl t ≤ truncated fl u := by
  have hnanos : ∀ {x y : ℚ}, x ≤ y → ⌊fl (fl x * 1000000000)⌋ ≤ ⌊fl (fl y * 1000000000)⌋ :=
    fun hxy => Int.floor_mono
      (hfl.mono (mul_le_mul_of_nonneg_right (hfl.mono hxy) (by norm_num)))
  have hone : ⌊fl (fl 1 * 1000000000)⌋ = 1000000000 := by
    have h1 : fl 1 = 1 := by simpa using hfl.natCast 1 (by norm_num)
    have h2 : fl 1000000000 = 1000000000 := by simpa using hfl.natCast 1000000000 le_rfl
    rw [h1, one_mul, h2]
    norm_num
  have hfirst : 0 ≤ ⌊fl (fl (u - ⌊u⌋) * 1000000000)⌋ :=
    Int.floor_nonneg.mpr (fl_nonneg hfl
      (mul_nonneg (fl_nonneg hfl (sub_nonneg.mpr (Int.floor_le u))) (by norm_num)))
  have hlast := hnanos (show t - ⌊t⌋ ≤ 1 by linarith [Int.lt_floor_add_one t])
  rw [hone] at hlast
  refine Int.toNat_le_toNat ?_
  rcases (Int.floor_mono h).lt_or_eq with hlt | heq
  · omega
  · have hle := hnanos (show t - ⌊t⌋ ≤ u - ⌊u⌋ by rw [heq]; linarith)
    rw [heq] at hle ⊢
    exact add_le_add_right hle _

end Rounded

/-- The time `imu_cbk` gives a message when the driver fix is off. -/
def imuTime (fl : ℚ → ℚ) (cfg : Config) (msg : Imu) : ℚ :=
  stamp2Sec fl (truncated fl (fl (stamp2Sec fl msg.stamp - cfg.imuTimeOffset)))

lemma imuTimestamp_eq_imuTime {s : StampFilters} {msg : Imu} {t : ℚ}
    (hfix : cfg.rosDriverFixEn = false) (h : s.imuTimestamp fl cfg msg = .ok t) :
    t = imuTime fl cfg msg := by
  simp only [imuTimestamp, sec2Stamp, hfix, Bool.false_eq_true, if_false] at h
  split_ifs at h
  exact (Except.ok.inj h).symm

lemma imuTime_mono (hfl : Rounding fl) {a b : Imu} (h : a.stamp ≤ b.stamp) :
    imuTime fl cfg a ≤ imuTime fl cfg b :=
  stamp2Sec_mono hfl (truncated_mono hfl
    (hfl.mono (sub_le_sub_right (stamp2Sec_mono hfl h) _)))

lemma imuTime_nonneg (hfl : Rounding fl) (msg : Imu) : 0 ≤ imuTime fl cfg msg :=
  stamp2Sec_nonneg hfl _

lemma imgTime_mono (hfl : Rounding fl) {a b : Image} (h : a.stamp ≤ b.stamp) :
    imgTime fl cfg a ≤ imgTime fl cfg b :=
  hfl.mono (add_le_add_left (stamp2Sec_mono hfl h) _)

/-! ## The gates, from a run -/

section Verdicts

variable {s t : StampFilters} {tr : List FilterTurn}

/-- The turn's IMU message, and whether it was pushed. -/
def imuArrival (x : FilterTurn) : Option (Imu × Bool) := x.event.imuMsg.map fun msg => (msg, x.obs)

/-- The turn's image, and whether it was pushed. -/
def imgArrival (x : FilterTurn) : Option (Image × Bool) :=
  x.event.imgMsg.map fun msg => (msg, x.obs)

/-- A LiDAR scan has been seen when the turn is taken. -/
def LidarSeen (x : FilterTurn) : Prop := 0 ≤ x.pre.lastTimestampLidar

lemma imuCbk_eq_ok {msg : Imu} {pushed : Bool} (himu : cfg.imuEn = true)
    (hfix : cfg.rosDriverFixEn = false) (hlidar : 0 ≤ s.lastTimestampLidar)
    (h : s.imuCbk fl cfg msg = .ok (t, pushed)) :
    pushed = decide (ImuGate fl s.lastTimestampImu (imuTime fl cfg msg)) ∧
      t = if ImuGate fl s.lastTimestampImu (imuTime fl cfg msg) then
        { s with lastTimestampImu := imuTime fl cfg msg } else s := by
  simp only [imuCbk, himu, Bool.not_true, Bool.false_eq_true, if_false,
    if_neg (not_lt.mpr hlidar)] at h
  split at h
  · cases h
  · rename_i time htime
    obtain rfl := imuTimestamp_eq_imuTime hfix htime
    split at h
    · cases h
    · split_ifs at h ⊢ with hpass
      · obtain ⟨rfl, rfl⟩ := Prod.mk.inj (Except.ok.inj h)
        exact ⟨(decide_eq_true hpass).symm, rfl⟩
      · obtain ⟨rfl, rfl⟩ := Prod.mk.inj (Except.ok.inj h)
        exact ⟨(decide_eq_false hpass).symm, rfl⟩

lemma imgCbk_eq {msg : Image} {pushed : Bool} (himg : cfg.imgEn = true)
    (hhilti : cfg.hiltiEn = false) (hlidar : 0 ≤ s.lastTimestampLidar)
    (h : s.imgCbk fl cfg msg = (t, pushed)) :
    pushed = decide (ImgGate fl s.lastTimestampImg (imgTime fl cfg msg)) ∧
      t = if ImgGate fl s.lastTimestampImg (imgTime fl cfg msg) then
        { s with lastTimestampImg := imgTime fl cfg msg } else s := by
  simp only [imgCbk, countFrame, himg, hhilti, Bool.not_true, Bool.false_eq_true, if_false,
    false_and, not_lt, hlidar, true_and] at h
  split_ifs at h ⊢ with hpass
  · obtain ⟨rfl, rfl⟩ := Prod.mk.inj h
    exact ⟨(decide_eq_true hpass).symm, rfl⟩
  · obtain ⟨rfl, rfl⟩ := Prod.mk.inj h
    exact ⟨(decide_eq_false hpass).symm, rfl⟩

lemma step_pclCbk {driver : LidarDriver} {msg : LidarMsg} {pushed : Bool}
    (h : s.step fl cfg (.pclCbk driver msg) = .ok (t, pushed)) :
    t.lastTimestampImu = s.lastTimestampImu ∧ t.lastTimestampImg = s.lastTimestampImg := by
  simp only [StampFilters.step] at h
  split_ifs at h <;> obtain ⟨rfl, -⟩ := Prod.mk.inj (Except.ok.inj h) <;> exact ⟨rfl, rfl⟩

/-- Along a run `imu_cbk` is the IMU gate on the times it gives the messages. -/
lemma imu_verdicts (himu : cfg.imuEn = true) (hfix : cfg.rosDriverFixEn = false)
    (h : Exec (StampFilters.step fl cfg) s tr t) (hlidar : ∀ x ∈ tr, LidarSeen x) :
    (tr.filterMap imuArrival).map Prod.snd =
      Gate.verdicts (ImuGate fl) s.lastTimestampImu
        ((tr.filterMap imuArrival).map fun a => imuTime fl cfg a.1) := by
  refine (Gate.verdicts_exec (ImuGate fl) StampFilters.lastTimestampImu ?_ ?_ h hlidar).1
  · rintro ⟨s, a, pushed, t⟩ hx - hnone
    simp only [Turn.Taken] at hx
    cases a with
    | pclCbk driver msg => exact (step_pclCbk hx).1
    | imuCbk msg => cases hnone
    | imgCbk msg =>
        obtain rfl : (s.imgCbk fl cfg msg).1 = t := congrArg Prod.fst (Except.ok.inj hx)
        dsimp only [imgCbk, countFrame]
        split_ifs <;> rfl
  · rintro ⟨s, a, pushed, t⟩ m hx hseen hsome
    simp only [Turn.Taken] at hx
    cases a with
    | pclCbk driver msg => cases hsome
    | imgCbk msg => cases hsome
    | imuCbk msg =>
        obtain rfl := Option.some.inj hsome
        obtain ⟨hpushed, hpost⟩ := imuCbk_eq_ok himu hfix hseen hx
        refine ⟨hpushed, ?_⟩
        rw [hpost]
        split_ifs <;> rfl

/-- Along a run `img_cbk` is the image gate on the header times. -/
lemma img_verdicts (himg : cfg.imgEn = true) (hhilti : cfg.hiltiEn = false)
    (h : Exec (StampFilters.step fl cfg) s tr t) (hlidar : ∀ x ∈ tr, LidarSeen x) :
    (tr.filterMap imgArrival).map Prod.snd =
      Gate.verdicts (ImgGate fl) s.lastTimestampImg
        ((tr.filterMap imgArrival).map fun a => imgTime fl cfg a.1) := by
  refine (Gate.verdicts_exec (ImgGate fl) StampFilters.lastTimestampImg ?_ ?_ h hlidar).1
  · rintro ⟨s, a, pushed, t⟩ hx - hnone
    simp only [Turn.Taken] at hx
    cases a with
    | pclCbk driver msg => exact (step_pclCbk hx).2
    | imuCbk msg =>
        dsimp only [StampFilters.step, imuCbk] at hx
        split_ifs at hx
        · obtain ⟨rfl, -⟩ := Prod.mk.inj (Except.ok.inj hx)
          rfl
        · obtain ⟨rfl, -⟩ := Prod.mk.inj (Except.ok.inj hx)
          rfl
        · split at hx
          · cases hx
          · split at hx
            · cases hx
            · split_ifs at hx <;> obtain ⟨rfl, -⟩ := Prod.mk.inj (Except.ok.inj hx) <;> rfl
    | imgCbk msg => cases hnone
  · rintro ⟨s, a, pushed, t⟩ m hx hseen hsome
    simp only [Turn.Taken] at hx
    cases a with
    | pclCbk driver msg => cases hsome
    | imuCbk msg => cases hsome
    | imgCbk msg =>
        obtain rfl := Option.some.inj hsome
        obtain ⟨hpushed, hpost⟩ := imgCbk_eq himg hhilti hseen (Except.ok.inj hx)
        refine ⟨hpushed, ?_⟩
        rw [hpost]
        split_ifs <;> rfl

end Verdicts

/-! ## Regular stretches -/

/-- The IMU gate opens upwards: not more than 0.2 s after the stamp remembered, if one is. -/
def Within (fl : ℚ → ℚ) (last t : ℚ) : Prop := last ≤ 0 ∨ t ≤ fl (last + fl (1 / 5))

instance (fl : ℚ → ℚ) : DecidableRel (Within fl) := fun last t =>
  inferInstanceAs (Decidable (last ≤ 0 ∨ t ≤ fl (last + fl (1 / 5))))

lemma imuGate_iff {last t : ℚ} (h : last ≤ t) : ImuGate fl last t ↔ Within fl last t := by
  unfold ImuGate Within
  rw [not_and, not_and, not_lt, not_lt]
  constructor
  · rintro ⟨-, hjump⟩
    exact (le_or_gt last 0).imp id hjump
  · rintro (hunset | hle)
    · exact ⟨fun hset => absurd hset (not_lt.mpr hunset),
        fun hset => absurd hset (not_lt.mpr hunset)⟩
    · exact ⟨fun _ => h, fun _ => hle⟩

lemma not_imuGate {last t : ℚ} (ht : 0 ≤ t) (h : t < last) : ¬ImuGate fl last t :=
  fun hgate => hgate.1 ⟨ht.trans_lt h, h⟩

/-- Once a message lies too far ahead, so do all later ones. -/
lemma Within.anti {last t u : ℚ} (h : Within fl last u) (htu : t ≤ u) : Within fl last t :=
  h.imp id htu.trans

/-- Along ordered times, the gate is its upper side. -/
lemma isChain_imuGate_iff {last : ℚ} {ts : List ℚ} (h : (last :: ts).IsChain (· ≤ ·)) :
    (last :: ts).IsChain (ImuGate fl) ↔ (last :: ts).IsChain (Within fl) := by
  induction ts generalizing last with
  | nil => simp
  | cons t ts ih =>
      obtain ⟨hle, htail⟩ := List.isChain_cons_cons.mp h
      rw [List.isChain_cons_cons, List.isChain_cons_cons, imuGate_iff hle, ih htail]

/-- When the IMU gate accepts everything after its first stamps: exactly when the stamp
remembered is not after the first of the rest, and from it on, without the stamps before it, no
stamp is more than 0.2 s after the last. -/
lemma imuGate_chain_iff {last t : ℚ} {ts us : List ℚ} (hnonneg : ∀ u ∈ ts ++ t :: us, 0 ≤ u)
    (horder : (ts ++ t :: us).IsChain (· ≤ ·)) :
    (Gate.remembered (ImuGate fl) last ts :: t :: us).IsChain (ImuGate fl) ↔
      last ≤ t ∧ (last :: (ts ++ t :: us).dropWhile (· < last)).IsChain (Within fl) := by
  induction ts generalizing last with
  | nil =>
      rw [Gate.remembered, List.nil_append]
      rcases lt_or_ge t last with hlt | hle
      · have hclosed : ¬ImuGate fl last t := not_imuGate (hnonneg t (by simp)) hlt
        exact iff_of_false (fun h => hclosed (List.isChain_cons_cons.mp h).1)
          fun h => absurd h.1 (not_le.mpr hlt)
      · rw [List.dropWhile_cons_of_neg (by simpa using hle),
          isChain_imuGate_iff (.cons_cons hle horder)]
        exact (and_iff_right hle).symm
  | cons a ts ih =>
      have hnonneg' := (List.forall_mem_cons.mp hnonneg).2
      have horder' : (ts ++ t :: us).IsChain (· ≤ ·) := horder.tail
      rw [List.cons_append] at horder ⊢
      rcases lt_or_ge a last with hlt | hle
      · -- before the stamp remembered: turned away, and left out on the right
        rw [Gate.remembered, if_neg (not_imuGate (hnonneg a (by simp)) hlt), ih hnonneg' horder',
          List.dropWhile_cons_of_pos (by simpa using hlt)]
      · have hpairs := List.isChain_iff_pairwise.mp horder
        have hlater : ∀ u ∈ ts ++ t :: us, a ≤ u := (List.pairwise_cons.mp hpairs).1
        have hkept : ∀ b ≤ a, (ts ++ t :: us).dropWhile (· < b) = ts ++ t :: us := by
          intro b hb
          cases hrest : ts ++ t :: us with
          | nil => rfl
          | cons c l =>
              have hc := hb.trans (hlater c (by simp [hrest]))
              exact List.dropWhile_cons_of_neg (by simpa using hc)
        have hat : a ≤ t := hlater t (by simp)
        rw [List.dropWhile_cons_of_neg (by simpa using hle)]
        by_cases hwithin : Within fl last a
        · rw [Gate.remembered, if_pos ((imuGate_iff hle).mpr hwithin), ih hnonneg' horder',
            hkept a le_rfl, List.isChain_cons_cons]
          exact ⟨fun h => ⟨hle.trans hat, hwithin, h.2⟩, fun h => ⟨hat, h.2.2⟩⟩
        · -- too far ahead: so is everything after it
          rw [Gate.remembered, if_neg fun h => hwithin ((imuGate_iff hle).mp h),
            ih hnonneg' horder', hkept last hle, List.isChain_cons_cons]
          refine iff_of_false (fun h => hwithin ?_) fun h => hwithin h.2.1
          obtain ⟨b, hb⟩ : ∃ b, b ∈ (ts ++ t :: us).head? := by cases ts <;> simp
          have hnext := (List.isChain_cons.mp h.2).1 b hb
          exact hnext.anti (hlater b (List.mem_of_mem_head? hb))

/-- The image gate: 0.05 s after the stamp remembered, as the difference is rounded. -/
def Apart (fl : ℚ → ℚ) (last t : ℚ) : Prop := fl (1 / 20) ≤ fl (t - last)

instance (fl : ℚ → ℚ) : DecidableRel (Apart fl) := fun last t =>
  inferInstanceAs (Decidable (fl (1 / 20) ≤ fl (t - last)))

/-- Its last test makes the other two. -/
lemma imgGate_iff (hfl : Rounding fl) {last t : ℚ} : ImgGate fl last t ↔ Apart fl last t := by
  unfold ImgGate Apart
  rw [not_lt, not_lt, not_lt]
  refine ⟨fun h => h.2.2, fun h => ⟨?_, ?_, h⟩⟩
  · have hmin : fl (1 / 1000) ≤ fl (1 / 20) := hfl.mono (by norm_num)
    exact hmin.trans (h.trans (le_abs_self _))
  · by_contra hlt
    have hneg : fl (t - last) ≤ fl 0 := hfl.mono (by linarith)
    rw [fl_zero hfl] at hneg
    exact absurd (hfl.pos.trans_le h) (not_lt.mpr hneg)

lemma Apart.le (hfl : Rounding fl) {last t : ℚ} (h : Apart fl last t) : last ≤ t :=
  not_lt.mp ((imgGate_iff hfl).mpr h).2.1

/-- An earlier stamp remembered, or a later image, does no harm. -/
lemma Apart.mono (hfl : Rounding fl) {a b t u : ℚ} (h : Apart fl b t) (hab : a ≤ b)
    (htu : t ≤ u) : Apart fl a u :=
  le_trans h (hfl.mono (by linarith))

/-- When the image gate accepts the third of three times: it is 0.05 s after the stamp
remembered before them, and after each of the first two that got in. -/
lemma apart_remembered_iff (hfl : Rounding fl) {last t₁ t₂ t₃ : ℚ} (h₁ : t₁ ≤ t₂) :
    ImgGate fl (Gate.remembered (ImgGate fl) last [t₁, t₂]) t₃ ↔
      Apart fl last t₃ ∧ (Apart fl last t₁ → Apart fl t₁ t₃) ∧
        (Apart fl last t₂ → (Apart fl last t₁ → Apart fl t₁ t₂) → Apart fl t₂ t₃) := by
  rw [imgGate_iff hfl]
  simp only [Gate.remembered, imgGate_iff hfl]
  by_cases hfirst : Apart fl last t₁
  · rw [if_pos hfirst]
    by_cases hsecond : Apart fl t₁ t₂
    · rw [if_pos hsecond]
      refine ⟨fun h => ⟨h.mono hfl ((hfirst.le hfl).trans h₁) le_rfl,
        fun _ => h.mono hfl h₁ le_rfl, fun _ _ => h⟩, fun h => h.2.2 ?_ fun _ => hsecond⟩
      exact hfirst.mono hfl le_rfl h₁
    · rw [if_neg hsecond]
      exact ⟨fun h => ⟨h.mono hfl (hfirst.le hfl) le_rfl, fun _ => h,
        fun _ h' => absurd (h' hfirst) hsecond⟩, fun h => h.2.1 hfirst⟩
  · rw [if_neg hfirst]
    by_cases hsecond : Apart fl last t₂
    · rw [if_pos hsecond]
      exact ⟨fun h => ⟨h.mono hfl (hsecond.le hfl) le_rfl, fun h' => absurd h' hfirst,
        fun _ _ => h⟩, fun h => h.2.2 hsecond fun h' => absurd h' hfirst⟩
    · rw [if_neg hsecond]
      exact ⟨fun h => ⟨h, fun h' => absurd h' hfirst, fun h' => absurd h' hsecond⟩, fun h => h.1⟩

/-- Consecutive IMU stamps increase, by at most 0.2 s. -/
def RegularImu (as : List (Imu × Bool)) : Prop :=
  as.IsChain fun a b => a.1.stamp < b.1.stamp ∧ b.1.stamp ≤ a.1.stamp + 200000000

/-- Consecutive image stamps increase by at least 0.05 s. -/
def RegularImg (as : List (Image × Bool)) : Prop :=
  as.IsChain fun a b => a.1.stamp + 50000000 ≤ b.1.stamp

instance : DecidablePred RegularImu := fun as => inferInstanceAs (Decidable (as.IsChain _))

instance : DecidablePred RegularImg := fun as => inferInstanceAs (Decidable (as.IsChain _))

section Accepted

variable {s t : StampFilters} {tr : List FilterTurn}

/-- From the third message of a regular stretch on, when the IMU stream is accepted. -/
lemma imu_accepted_iff (hfl : Rounding fl) (himu : cfg.imuEn = true)
    (hfix : cfg.rosDriverFixEn = false) (h : Exec (StampFilters.step fl cfg) s tr t)
    (hlidar : ∀ x ∈ tr, LidarSeen x) {a₁ a₂ a₃ : Imu × Bool} {rest : List (Imu × Bool)}
    (harrivals : tr.filterMap imuArrival = a₁ :: a₂ :: a₃ :: rest)
    (hregular : RegularImu (a₁ :: a₂ :: a₃ :: rest)) :
    (∀ a ∈ a₃ :: rest, a.2 = true) ↔
      s.lastTimestampImu ≤ imuTime fl cfg a₃.1 ∧ (s.lastTimestampImu ::
        ((a₁ :: a₂ :: a₃ :: rest).map fun a => imuTime fl cfg a.1).dropWhile
          (· < s.lastTimestampImu)).IsChain (Within fl) := by
  have hverdicts := imu_verdicts himu hfix h hlidar
  rw [harrivals] at hverdicts
  have horder : ((a₁ :: a₂ :: a₃ :: rest).map fun a => imuTime fl cfg a.1).IsChain (· ≤ ·) :=
    (List.isChain_map _).mpr (hregular.imp fun a b hab => imuTime_mono hfl hab.1.le)
  have hnonneg : ∀ u ∈ (a₁ :: a₂ :: a₃ :: rest).map fun a => imuTime fl cfg a.1, 0 ≤ u := by
    intro u hu
    obtain ⟨a, -, rfl⟩ := List.mem_map.mp hu
    exact imuTime_nonneg hfl a.1
  have hdrop : (∀ a ∈ a₃ :: rest, a.2 = true) ↔
      ∀ v ∈ ((a₁ :: a₂ :: a₃ :: rest).map Prod.snd).drop 2, v = true := by
    rw [← List.map_drop]
    simp
  rw [hdrop, hverdicts]
  exact (Gate.verdicts_drop_iff (ImuGate fl) [imuTime fl cfg a₁.1, imuTime fl cfg a₂.1]
    rfl).trans (imuGate_chain_iff hnonneg horder)

/-- From the third message of a regular stretch on, when the image stream is accepted. -/
lemma img_accepted_iff (hfl : Rounding fl) (himg : cfg.imgEn = true)
    (hhilti : cfg.hiltiEn = false) (h : Exec (StampFilters.step fl cfg) s tr t)
    (hlidar : ∀ x ∈ tr, LidarSeen x) {a₁ a₂ a₃ : Image × Bool} {rest : List (Image × Bool)}
    (harrivals : tr.filterMap imgArrival = a₁ :: a₂ :: a₃ :: rest)
    (hregular : RegularImg (a₁ :: a₂ :: a₃ :: rest)) :
    (∀ a ∈ a₃ :: rest, a.2 = true) ↔
      (Apart fl s.lastTimestampImg (imgTime fl cfg a₃.1) ∧
        (Apart fl s.lastTimestampImg (imgTime fl cfg a₁.1) →
          Apart fl (imgTime fl cfg a₁.1) (imgTime fl cfg a₃.1)) ∧
        (Apart fl s.lastTimestampImg (imgTime fl cfg a₂.1) →
          (Apart fl s.lastTimestampImg (imgTime fl cfg a₁.1) →
            Apart fl (imgTime fl cfg a₁.1) (imgTime fl cfg a₂.1)) →
          Apart fl (imgTime fl cfg a₂.1) (imgTime fl cfg a₃.1))) ∧
        ((a₃ :: rest).map fun a => imgTime fl cfg a.1).IsChain (Apart fl) := by
  have hverdicts := img_verdicts himg hhilti h hlidar
  rw [harrivals] at hverdicts
  have h₁ : imgTime fl cfg a₁.1 ≤ imgTime fl cfg a₂.1 :=
    imgTime_mono hfl (Nat.le_of_add_right_le (List.isChain_cons_cons.mp hregular).1)
  have hdrop : (∀ a ∈ a₃ :: rest, a.2 = true) ↔
      ∀ v ∈ ((a₁ :: a₂ :: a₃ :: rest).map Prod.snd).drop 2, v = true := by
    rw [← List.map_drop]
    simp
  have hgate : ∀ l : List ℚ, l.IsChain (ImgGate fl) ↔ l.IsChain (Apart fl) := fun l =>
    ⟨fun h => h.imp fun _ _ => (imgGate_iff hfl).mp,
      fun h => h.imp fun _ _ => (imgGate_iff hfl).mpr⟩
  rw [hdrop, hverdicts]
  refine (Gate.verdicts_drop_iff (ImgGate fl)
    [imgTime fl cfg a₁.1, imgTime fl cfg a₂.1] rfl).trans ?_
  rw [List.map_cons, List.isChain_cons_cons,
    apart_remembered_iff hfl h₁, hgate]

/-- **When a stream that has become regular is taken up again**, in doubles.  On any stretch of a
run after a LiDAR scan has been seen, whatever was remembered before it and whatever else happens
in it, the messages of a regular stretch are all accepted from the third on exactly when:

* for the IMU, the stamp remembered is not after the third, and in the sequence of it and the
  stamps that are not before it none lies more than 0.2 s after the one before, as the sum is
  rounded;
* for the images, the third is 0.05 s after the stamp remembered and after those of the first two
  that got in, and from it on each is 0.05 s after the one before, as the difference is rounded. -/
theorem regular_accepted_iff (himu : cfg.imuEn = true) (himg : cfg.imgEn = true)
    (hhilti : cfg.hiltiEn = false) (hfix : cfg.rosDriverFixEn = false)
    (h : Exec (StampFilters.step toDouble cfg) s tr t) (hlidar : ∀ x ∈ tr, LidarSeen x) :
    (∀ a₁ a₂ a₃ rest, tr.filterMap imuArrival = a₁ :: a₂ :: a₃ :: rest →
      RegularImu (a₁ :: a₂ :: a₃ :: rest) →
      ((∀ a ∈ a₃ :: rest, a.2 = true) ↔
        s.lastTimestampImu ≤ imuTime toDouble cfg a₃.1 ∧ (s.lastTimestampImu ::
          ((a₁ :: a₂ :: a₃ :: rest).map fun a => imuTime toDouble cfg a.1).dropWhile
            (· < s.lastTimestampImu)).IsChain (Within toDouble))) ∧
    (∀ a₁ a₂ a₃ rest, tr.filterMap imgArrival = a₁ :: a₂ :: a₃ :: rest →
      RegularImg (a₁ :: a₂ :: a₃ :: rest) →
      ((∀ a ∈ a₃ :: rest, a.2 = true) ↔
        (Apart toDouble s.lastTimestampImg (imgTime toDouble cfg a₃.1) ∧
          (Apart toDouble s.lastTimestampImg (imgTime toDouble cfg a₁.1) →
            Apart toDouble (imgTime toDouble cfg a₁.1) (imgTime toDouble cfg a₃.1)) ∧
          (Apart toDouble s.lastTimestampImg (imgTime toDouble cfg a₂.1) →
            (Apart toDouble s.lastTimestampImg (imgTime toDouble cfg a₁.1) →
              Apart toDouble (imgTime toDouble cfg a₁.1) (imgTime toDouble cfg a₂.1)) →
            Apart toDouble (imgTime toDouble cfg a₂.1) (imgTime toDouble cfg a₃.1))) ∧
          ((a₃ :: rest).map fun a => imgTime toDouble cfg a.1).IsChain (Apart toDouble))) :=
  ⟨fun _ _ _ _ harrivals hregular =>
      imu_accepted_iff rounding_toDouble himu hfix h hlidar harrivals hregular,
    fun _ _ _ _ harrivals hregular =>
      img_accepted_iff rounding_toDouble himg hhilti h hlidar harrivals hregular⟩

end Accepted

/-! ## A gap and an image from the future -/

/-- An IMU message stamped in milliseconds. -/
def imuAt (ms : ℕ) : Arrival := .imuCbk { stamp := ms * 1000000 }

/-- An image stamped in milliseconds. -/
def imgAt (ms : ℕ) : Arrival := .imgCbk { stamp := ms * 1000000 }

/-- A scan stamped in milliseconds. -/
def scanAt (ms : ℕ) : Arrival := .pclCbk .livox ⟨ms * 1000000, [{}]⟩

/-- The filters after a scan and an IMU message at 1 s, and an image at 9 s. -/
def afterOutlier : StampFilters :=
  (trace (StampFilters.step toDouble {}) [scanAt 1000, imuAt 1000, imgAt 9000] {}).2

/-- From 1.5 s on, both streams at 10 Hz. -/
def regularArrivals : List Arrival :=
  [imuAt 1500, imgAt 1500, imuAt 1600, imgAt 1600, imuAt 1700, imgAt 1700, imuAt 1800,
    imgAt 1800]

/-- After the gap of half a second every IMU message is dropped, and every image that is not
from later than the one from the future. -/
theorem regularArrivals_rejected :
    let tr := (trace (StampFilters.step toDouble {}) regularArrivals afterOutlier).1
    (∀ x ∈ tr, LidarSeen x) ∧
      RegularImu (tr.filterMap imuArrival) ∧ RegularImg (tr.filterMap imgArrival) ∧
      (tr.filterMap imuArrival).map Prod.snd = [false, false, false, false] ∧
      (tr.filterMap imgArrival).map Prod.snd = [false, false, false, false] := by
  unfold LidarSeen
  decide +kernel

/-- The filters after a scan at 1 s and messages before 1.5 s. -/
def afterScan : StampFilters :=
  (trace (StampFilters.step toDouble {}) [scanAt 1000, imuAt 1375, imgAt 1375] {}).2

/-- The same streams with nothing lost before them. -/
def regularTurns : List FilterTurn :=
  (trace (StampFilters.step toDouble {}) regularArrivals afterScan).1

/-- Without the gap and the outlier both streams are taken up. -/
theorem regularArrivals_accepted :
    (∀ a ∈ (regularTurns.filterMap imuArrival).drop 2, a.2 = true) ∧
      ∀ a ∈ (regularTurns.filterMap imgArrival).drop 2, a.2 = true := by
  have hseen : ∀ x ∈ regularTurns, LidarSeen x := by
    unfold LidarSeen
    decide +kernel
  have hregular : RegularImu (regularTurns.filterMap imuArrival) ∧
      RegularImg (regularTurns.filterMap imgArrival) := by decide +kernel
  have hlength : (regularTurns.filterMap imuArrival).length = 4 ∧
      (regularTurns.filterMap imgArrival).length = 4 := by decide +kernel
  have hwithin : (∀ a ∈ (regularTurns.filterMap imuArrival)[2]?,
        afterScan.lastTimestampImu ≤ imuTime toDouble {} a.1) ∧
      (afterScan.lastTimestampImu :: ((regularTurns.filterMap imuArrival).map fun a =>
        imuTime toDouble {} a.1).dropWhile (· < afterScan.lastTimestampImu)).IsChain
          (Within toDouble) := by
    decide +kernel
  have hapart : (∀ a ∈ (regularTurns.filterMap imgArrival).take 3,
        Apart toDouble afterScan.lastTimestampImg (imgTime toDouble {} a.1)) ∧
      ((regularTurns.filterMap imgArrival).map fun a => imgTime toDouble {} a.1).Pairwise
        (Apart toDouble) := by
    decide +kernel
  obtain ⟨himu, himg⟩ := regular_accepted_iff (show ({} : Config).imuEn = true from rfl) rfl rfl rfl
    (Exec.of_trace regularArrivals afterScan) hseen
  constructor
  · rcases harrivals : regularTurns.filterMap imuArrival with _ | ⟨a₁, _ | ⟨a₂, _ | ⟨a₃, rest⟩⟩⟩
    · simp [harrivals] at hlength
    · simp [harrivals] at hlength
    · simp [harrivals] at hlength
    · rw [harrivals] at hregular hwithin
      exact (himu a₁ a₂ a₃ rest harrivals hregular.1).mpr ⟨hwithin.1 a₃ rfl, hwithin.2⟩
  · rcases harrivals : regularTurns.filterMap imgArrival with _ | ⟨a₁, _ | ⟨a₂, _ | ⟨a₃, rest⟩⟩⟩
    · simp [harrivals] at hlength
    · simp [harrivals] at hlength
    · simp [harrivals] at hlength
    · rw [harrivals] at hregular hapart
      obtain ⟨hfirst, htail⟩ := List.pairwise_cons.mp hapart.2
      obtain ⟨hsecond, hrest⟩ := List.pairwise_cons.mp htail
      refine (himg a₁ a₂ a₃ rest harrivals hregular.2).mpr ⟨⟨hapart.1 a₃ (by simp), fun _ => ?_,
        fun _ _ => ?_⟩, hrest.isChain⟩
      · exact hfirst _ (by simp)
      · exact hsecond _ (by simp)

end StampFilters

end FastLivo2
