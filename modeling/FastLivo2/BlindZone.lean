import FastLivo2.PointClouds
import FastLivo2.Lib.Exec

/-!
# The blind zone

The radius of the blind zone is a parameter, `preprocess.blind`; the handlers compare squared ranges
with another member, `blind_sqr`, which nothing sets.  The module follows both from the constructor
through any configuration and any messages, with feature extraction off.

A point is removed by the blind test when it would have been put out had the threshold been below
every squared range (`unblinded`).  A point with a coordinate that is not-a-number has no squared
range, and no comparison with one holds: two handlers drop what is below the threshold, and so put
such a point out, the others keep what is above it.
-/

namespace FastLivo2

/-- A message, with what the memory has for the last distances of the lines. -/
abbrev PreprocessTurn := Turn Preprocessor ((ℕ → Extended ℚ) × CloudMessage) (List PointXYZINormal)

namespace Preprocessor

/-- One message; the observation is the cloud put out. -/
def step (m : CloudLibm) (s : Preprocessor) (e : (ℕ → Extended ℚ) × CloudMessage) :
    Except PreprocessFault (Preprocessor × List PointXYZINormal) :=
  (s.process m e.1 e.2).map fun t => (t, t.plSurf)

def withBlindSqr (s : Preprocessor) (b : ℚ) : Preprocessor := { s with blindSqr := b }

/-- The same without a blind zone. -/
def unblinded (s : Preprocessor) : Preprocessor := s.withBlindSqr (-1)

/-- The handler of the lidar drops what is below the threshold. -/
def DropsBelow (s : Preprocessor) : Prop :=
  lidType s.lidarType = some .l515 ∨ lidType s.lidarType = some .oust64

/-- The type of the lidar is one of a handler of `PointCloud2`. -/
def HasCloudHandler (s : Preprocessor) : Prop :=
  ∃ l, lidType s.lidarType = some l ∧ l ≠ .avia ∧ l ≠ .mid360

/-- No message makes this configuration test a point: the thinning divides by zero, or only messages
of the Livox driver are handled and none of their lines is. -/
def TestsNothing (s : Preprocessor) : Prop :=
  s.pointFilterNum = 0 ∨ ¬s.HasCloudHandler ∧ (s.nScans ≤ 0 ∨ 128 < s.nScans)

/-! ## What the blind test leaves -/

/-- `l` is what a test leaves of `l'`. -/
def Filtered (test : Extended ℚ → Bool) (l l' : List PointXYZINormal) : Prop :=
  ∀ q, q ∈ l ↔ q ∈ l' ∧ test q.sqRange = true

/-- A blind test of some kind: it passes nothing below the threshold, and all that is above. -/
structure IsTest (s : Preprocessor) (test : Extended ℚ → Bool) : Prop where
  below : ∀ r, test r = true → ¬r < s.blindSqr
  above : ∀ r : Extended ℚ, s.blindSqr < r → test r = true

/-- `!(range < b)`, `b < range` and `b <= range`. -/
def notBelowTest (b : ℚ) (r : Extended ℚ) : Bool := !decide (r < b)

def beyondTest (b : ℚ) (r : Extended ℚ) : Bool := decide ((b : Extended ℚ) < r)

def atLeastTest (b : ℚ) (r : Extended ℚ) : Bool := decide ((b : Extended ℚ) ≤ r)

variable {s t : Preprocessor} {m : CloudLibm} {test test' : Extended ℚ → Bool}
  {make : CloudPoint → PointXYZINormal}

lemma isTest_notBelow : s.IsTest (notBelowTest s.blindSqr) where
  below _ h := by simpa [notBelowTest] using h
  above r h := by
    have hnot : ¬r < s.blindSqr := fun h' => Extended.lt_asymm h h'
    simpa [notBelowTest] using hnot

lemma isTest_beyond : s.IsTest (beyondTest s.blindSqr) where
  below _ h := Extended.lt_asymm (of_decide_eq_true h)
  above _ h := decide_eq_true h

lemma isTest_atLeast : s.IsTest (atLeastTest s.blindSqr) where
  below r h := by
    have hle : (s.blindSqr : Extended ℚ) ≤ r := of_decide_eq_true h
    exact (Extended.not_lt_iff (Extended.ne_nan_of_le hle) (by simp)).mpr hle
  above _ h := decide_eq_true (.inl h)

/-- The checks of `robosense_handler` for not-a-number find nothing that the comparison passes. -/
lemma isValid_eq (p : CloudPoint) : s.isValid p = atLeastTest s.blindSqr p.sqRange := by
  unfold isValid atLeastTest
  by_cases hle : (s.blindSqr : Extended ℚ) ≤ p.sqRange
  · have hnum := mt Extended.sumSquares_eq_nan_iff.mpr (Extended.ne_nan_of_le hle)
    push Not at hnum
    simp [hle, hnum]
  · simp [hle]

lemma Filtered.nil : Filtered test [] [] := fun q => by simp

lemma Filtered.sort {l l' : List PointXYZINormal} (h : Filtered test l l') :
    Filtered test (m.sort l) (m.sort l') := fun q => by
  rw [(m.sort_perm l).mem_iff, (m.sort_perm l').mem_iff]
  exact h q

lemma Filtered.push {l l' : List PointXYZINormal} (h : Filtered test l l') {p : PointXYZINormal}
    (hp : test p.sqRange = true) : Filtered test (l ++ [p]) (l' ++ [p]) := fun q => by
  rw [List.mem_append, List.mem_append, List.mem_singleton, h q]
  constructor
  · rintro (⟨hq, htest⟩ | rfl)
    · exact ⟨.inl hq, htest⟩
    · exact ⟨.inr rfl, hp⟩
  · rintro ⟨hq | rfl, htest⟩
    · exact .inl ⟨hq, htest⟩
    · exact .inr rfl

lemma Filtered.drop {l l' : List PointXYZINormal} (h : Filtered test l l') {p : PointXYZINormal}
    (hp : test p.sqRange ≠ true) : Filtered test l (l' ++ [p]) := fun q => by
  rw [List.mem_append, List.mem_singleton, h q]
  constructor
  · rintro ⟨hq, htest⟩
    exact ⟨.inl hq, htest⟩
  · rintro ⟨hq | rfl, htest⟩
    · exact ⟨hq, htest⟩
    · exact absurd htest hp

/-- A turn of the thinning against the same turn with a test that passes more. -/
lemma Filtered.thinPoint {s' : Preprocessor} (hnum : s'.pointFilterNum = s.pointFilterNum)
    {pass pass' : CloudPoint → Bool} {x : CloudPoint × ℕ} (hmake : (make x.1).sqRange = x.1.sqRange)
    (hpass : pass x.1 = test x.1.sqRange) (hmore : pass x.1 = true → pass' x.1 = true)
    {l l' u : List PointXYZINormal} (h : Filtered test l l')
    (hturn : s.thinPoint pass make l x = .ok u) :
    ∃ u', s'.thinPoint pass' make l' x = .ok u' ∧ Filtered test u u' := by
  unfold Preprocessor.thinPoint at hturn ⊢
  rw [hnum]
  by_cases hzero : s.pointFilterNum = 0
  · rw [if_pos hzero] at hturn
    cases hturn
  · rw [if_neg hzero] at hturn ⊢
    by_cases htest : x.2 % s.pointFilterNum = 0 ∧ pass x.1 = true
    · rw [if_pos htest] at hturn
      rw [if_pos ⟨htest.1, hmore htest.2⟩]
      cases hturn
      exact ⟨_, rfl, h.push (by rw [hmake, ← hpass]; exact htest.2)⟩
    · rw [if_neg htest] at hturn
      cases hturn
      by_cases htest' : x.2 % s.pointFilterNum = 0 ∧ pass' x.1 = true
      · rw [if_pos htest']
        refine ⟨_, rfl, h.drop ?_⟩
        rw [hmake, ← hpass]
        exact fun hc => htest ⟨htest'.1, hc⟩
      · rw [if_neg htest']
        exact ⟨_, rfl, h⟩

variable (test) in
lemma Filtered.thin {pass pass' : CloudPoint → Bool} {points : List CloudPoint}
    {l : List PointXYZINormal} (h : s.thin pass make points = .ok l) (s' : Preprocessor)
    (hnum : s'.pointFilterNum = s.pointFilterNum) (hpass : ∀ p, pass p = test p.sqRange)
    (hmore : ∀ p, pass p = true → pass' p = true) (hmake : ∀ p, (make p).sqRange = p.sqRange) :
    ∃ l', s'.thin pass' make points = .ok l' ∧ Filtered test l l' := by
  unfold Preprocessor.thin at h ⊢
  refine foldlM_simulation (R := Filtered test) ?_ h .nil
  intro x l u l' hl hturn
  exact hl.thinPoint hnum (hmake x.1) (hpass x.1) (hmore x.1) hturn

lemma cloud_sqRange_nonneg {p : CloudPoint} (h : p.sqRange ≠ .nan) : 0 ≤ p.sqRange := by
  have hnum := mt Extended.sumSquares_eq_nan_iff.mpr h
  push Not at hnum
  exact Extended.zero_le_sumSquares hnum.1 hnum.2.1 hnum.2.2

lemma unblinded_lt {p : CloudPoint} (h : p.sqRange ≠ .nan) :
    (s.unblinded.blindSqr : Extended ℚ) < p.sqRange :=
  Extended.num_lt_of_lt (by norm_num : (-1 : ℚ) < 0) (cloud_sqRange_nonneg h)

lemma unblinded_notBelow (p : CloudPoint) : s.unblinded.notBelow p = true := by
  have hnot : ¬p.sqRange < s.unblinded.blindSqr := by
    by_cases hnan : p.sqRange = .nan
    · rw [hnan]
      exact Extended.not_nan_lt
    · exact Extended.lt_asymm (unblinded_lt hnan)
  simpa [notBelow] using hnot

lemma unblinded_beyond (p : CloudPoint) (h : s.beyond p = true) : s.unblinded.beyond p = true :=
  decide_eq_true (unblinded_lt (Extended.ne_nan_of_le (.inl (of_decide_eq_true h))))

lemma unblinded_isValid (p : CloudPoint) (h : s.isValid p = true) :
    s.unblinded.isValid p = true := by
  rw [isValid_eq] at h ⊢
  exact decide_eq_true (.inl (unblinded_lt (Extended.ne_nan_of_le (of_decide_eq_true h))))

lemma unblinded_keeps_iff {n : ℕ} {p : CustomPoint} :
    s.toPreprocess.Keeps n p ↔
      s.unblinded.toPreprocess.Keeps n p ∧ (s.blindSqr : Extended ℚ) ≤ p.sqRange := by
  constructor
  · rintro ⟨hline, hmod, hblind⟩
    have hnum : p.sqRange ≠ .nan := Extended.ne_nan_of_le hblind
    have hopen := unblinded_lt (s := s) (p := { x := p.x, y := p.y, z := p.z }) hnum
    exact ⟨⟨hline, hmod, .inl hopen⟩, hblind⟩
  · rintro ⟨⟨hline, hmod, -⟩, hblind⟩
    exact ⟨hline, hmod, hblind⟩

/-- The blind test does not touch the slots of a Livox message. -/
lemma Filtered.surf : ∀ (prev : Option PointXYZINormal) (n : ℕ) (msg : List CustomPoint),
    Filtered (atLeastTest s.blindSqr) (s.toPreprocess.surf prev n msg)
      (s.unblinded.toPreprocess.surf prev n msg)
  | _, _, [] => .nil
  | prev, n, p :: msg => by
      have ih := Filtered.surf (some (s.toPreprocess.slot prev p))
        (s.toPreprocess.count n p) msg
      have hrange : (fullPoint prev p).sqRange = p.sqRange := rfl
      intro q
      unfold Preprocess.surf
      rw [List.mem_append, List.mem_append, ih q, or_and_right]
      refine or_congr ?_ Iff.rfl
      by_cases hkeeps : s.toPreprocess.Keeps n p
      · obtain ⟨hopen, hblind⟩ := unblinded_keeps_iff.mp hkeeps
        rw [if_pos hkeeps, if_pos hopen, List.mem_singleton]
        constructor
        · rintro rfl
          exact ⟨rfl, decide_eq_true (hrange ▸ hblind)⟩
        · exact And.left
      · rw [if_neg hkeeps]
        constructor
        · intro h
          cases h
        · rintro ⟨hq, htest⟩
          by_cases hopen : s.unblinded.toPreprocess.Keeps n p
          · rw [if_pos hopen, List.mem_singleton] at hq
            rw [hq] at htest
            exact absurd (unblinded_keeps_iff.mpr ⟨hopen, of_decide_eq_true htest⟩) hkeeps
          · rw [if_neg hopen] at hq
            cases hq

/-! ## Every handler filters -/

/-- What a call that returns has done: it has filtered by a blind test what it would put out without
a blind zone, and changed nothing of the configuration. -/
structure Filters (s t u : Preprocessor) : Prop where
  kept : ∃ test, s.IsTest test ∧ (test .nan = true → s.DropsBelow) ∧
    Filtered test t.plSurf u.plSurf
  frame : t = { s with
    plSurf := t.plSurf, plCorn := t.plCorn, givenOffsetTime := t.givenOffsetTime }

lemma Filters.notBelow {u : Preprocessor} (hdrops : s.DropsBelow)
    (h : Filtered (notBelowTest s.blindSqr) t.plSurf u.plSurf) (hframe : t = { s with
      plSurf := t.plSurf, plCorn := t.plCorn, givenOffsetTime := t.givenOffsetTime }) :
    Filters s t u :=
  ⟨⟨_, isTest_notBelow, fun _ => hdrops, h⟩, hframe⟩

lemma Filters.beyond {u : Preprocessor}
    (h : Filtered (beyondTest s.blindSqr) t.plSurf u.plSurf) (hframe : t = { s with
      plSurf := t.plSurf, plCorn := t.plCorn, givenOffsetTime := t.givenOffsetTime }) :
    Filters s t u :=
  ⟨⟨_, isTest_beyond, fun hc => absurd (.inl (of_decide_eq_true hc)) Extended.not_le_nan, h⟩,
    hframe⟩

lemma Filters.atLeast {u : Preprocessor}
    (h : Filtered (atLeastTest s.blindSqr) t.plSurf u.plSurf) (hframe : t = { s with
      plSurf := t.plSurf, plCorn := t.plCorn, givenOffsetTime := t.givenOffsetTime }) :
    Filters s t u :=
  ⟨⟨_, isTest_atLeast, fun hc => absurd (of_decide_eq_true hc) Extended.not_le_nan, h⟩, hframe⟩

section Handlers

variable {dista : ℕ → Extended ℚ} {points : List CloudPoint}

lemma aviaHandler_filters (hoff : s.featureEnabled = false) {points : List TaggedPoint}
    (h : s.aviaHandler m dista points = .ok t) :
    ∃ u, s.unblinded.aviaHandler m dista points = .ok u ∧ Filters s t u := by
  have hoff' : s.unblinded.featureEnabled = false := hoff
  have hscans' : s.unblinded.nScans = s.nScans := rfl
  have hnum' : s.unblinded.pointFilterNum = s.pointFilterNum := rfl
  rw [aviaHandler_of_off hoff] at h
  rw [aviaHandler_of_off hoff', hscans', hnum']
  by_cases hscans : 128 < s.nScans
  · rw [if_pos hscans] at h
    cases h
  · rw [if_neg hscans] at h ⊢
    by_cases hzero : s.pointFilterNum = 0 ∧ ∃ p ∈ points, (p.line : ℤ) < s.nScans
    · rw [if_pos hzero] at h
      cases h
    · rw [if_neg hzero] at h ⊢
      cases h
      refine ⟨_, rfl, .atLeast ?_ rfl⟩
      dsimp only
      rw [Preprocess.aviaHandler_eq, Preprocess.aviaHandler_eq]
      exact Filtered.surf none 0 _

lemma l515Handler_filters (hdrops : s.DropsBelow) (h : s.l515Handler points = .ok t) :
    ∃ u, s.unblinded.l515Handler points = .ok u ∧ Filters s t u := by
  unfold l515Handler at h ⊢
  obtain ⟨plSurf, hthin, h⟩ := except_bind_eq_ok.mp h
  obtain ⟨plSurf', hthin', hfiltered⟩ :=
    Filtered.thin (notBelowTest s.blindSqr) hthin s.unblinded rfl (fun _ => rfl)
      (fun p _ => unblinded_notBelow p) fun _ => rfl
  rw [hthin', except_ok_bind]
  cases h
  exact ⟨_, rfl, .notBelow hdrops hfiltered rfl⟩

lemma oust64Handler_filters (hoff : s.featureEnabled = false) (hdrops : s.DropsBelow)
    (h : s.oust64Handler m dista points = .ok t) :
    ∃ u, s.unblinded.oust64Handler m dista points = .ok u ∧ Filters s t u := by
  have hoff' : s.unblinded.featureEnabled = false := hoff
  rw [oust64Handler_of_off hoff] at h
  rw [oust64Handler_of_off hoff']
  obtain ⟨plSurf, hthin, h⟩ := except_bind_eq_ok.mp h
  obtain ⟨plSurf', hthin', hfiltered⟩ :=
    Filtered.thin (notBelowTest s.blindSqr) hthin s.unblinded rfl (fun _ => rfl)
      (fun p _ => unblinded_notBelow p) fun _ => rfl
  rw [hthin', except_ok_bind]
  cases h
  exact ⟨_, rfl, .notBelow hdrops hfiltered.sort rfl⟩

lemma pandar128Handler_filters (h : s.pandar128Handler m points = .ok t) :
    ∃ u, s.unblinded.pandar128Handler m points = .ok u ∧ Filters s t u := by
  unfold pandar128Handler at h ⊢
  obtain ⟨first, hfirst, h⟩ := except_bind_eq_ok.mp h
  obtain ⟨plSurf, hthin, h⟩ := except_bind_eq_ok.mp h
  obtain ⟨plSurf', hthin', hfiltered⟩ :=
    Filtered.thin (beyondTest s.blindSqr) hthin s.unblinded rfl (fun _ => rfl)
      unblinded_beyond fun _ => rfl
  rw [hfirst, except_ok_bind, hthin', except_ok_bind]
  cases h
  exact ⟨_, rfl, .beyond hfiltered.sort rfl⟩

lemma robosenseHandler_filters (h : s.robosenseHandler m points = .ok t) :
    ∃ u, s.unblinded.robosenseHandler m points = .ok u ∧ Filters s t u := by
  unfold robosenseHandler at h ⊢
  obtain ⟨first, hfirst, h⟩ := except_bind_eq_ok.mp h
  obtain ⟨plSurf, hthin, h⟩ := except_bind_eq_ok.mp h
  obtain ⟨plSurf', hthin', hfiltered⟩ :=
    Filtered.thin _ hthin s.unblinded rfl isValid_eq unblinded_isValid fun _ => rfl
  rw [hfirst, except_ok_bind, hthin', except_ok_bind]
  cases h
  exact ⟨_, rfl, .atLeast hfiltered.sort rfl⟩

lemma xt32Handler_filters (hoff : s.featureEnabled = false)
    (h : s.xt32Handler m dista points = .ok t) :
    ∃ u, s.unblinded.xt32Handler m dista points = .ok u ∧ Filters s t u := by
  have hoff' : s.unblinded.featureEnabled = false := hoff
  rw [xt32Handler_of_off hoff] at h
  rw [xt32Handler_of_off hoff']
  obtain ⟨last, hlast, h⟩ := except_bind_eq_ok.mp h
  obtain ⟨first, hfirst, h⟩ := except_bind_eq_ok.mp h
  obtain ⟨plSurf, hthin, h⟩ := except_bind_eq_ok.mp h
  obtain ⟨plSurf', hthin', hfiltered⟩ :=
    Filtered.thin (beyondTest s.blindSqr) hthin s.unblinded rfl (fun _ => rfl)
      unblinded_beyond fun _ => rfl
  rw [hlast, except_ok_bind, hfirst, except_ok_bind, hthin', except_ok_bind]
  cases h
  exact ⟨_, rfl, .beyond hfiltered rfl⟩

/-- The tables of the layers do not depend on the blind test either. -/
lemma velodynePoint_filtered {st st' u : LineTables × List PointXYZINormal} {x : CloudPoint × ℕ}
    (htables : st.1 = st'.1) (hl : Filtered (beyondTest s.blindSqr) st.2 st'.2)
    (h : s.velodynePoint m st x = .ok u) :
    ∃ u', s.unblinded.velodynePoint m st' x = .ok u' ∧ u.1 = u'.1 ∧
      Filtered (beyondTest s.blindSqr) u.2 u'.2 := by
  have hgiven' : s.unblinded.givenOffsetTime = s.givenOffsetTime := rfl
  have hnum' : s.unblinded.pointFilterNum = s.pointFilterNum := rfl
  have hmore := unblinded_beyond (s := s) x.1
  unfold velodynePoint at h ⊢
  rw [hgiven']
  by_cases hgiven : s.givenOffsetTime = true
  · rw [if_pos hgiven] at h ⊢
    obtain ⟨plSurf, hturn, h⟩ := except_bind_eq_ok.mp h
    obtain ⟨plSurf', hturn', hfiltered⟩ := hl.thinPoint hnum' rfl rfl hmore hturn
    rw [hturn', except_ok_bind]
    cases h
    exact ⟨_, rfl, htables, hfiltered⟩
  · rw [if_neg hgiven] at h ⊢
    obtain ⟨⟨tables, c⟩, hstamp, h⟩ := except_bind_eq_ok.mp h
    rw [← htables, hstamp, except_ok_bind]
    cases c with
    | none =>
        cases h
        exact ⟨_, rfl, rfl, hl⟩
    | some c =>
        obtain ⟨plSurf, hturn, h⟩ := except_bind_eq_ok.mp h
        obtain ⟨plSurf', hturn', hfiltered⟩ := hl.thinPoint hnum' rfl rfl hmore hturn
        dsimp only
        rw [hturn', except_ok_bind]
        cases h
        exact ⟨_, rfl, rfl, hfiltered⟩

lemma velodyneLoop_filtered {points : List (CloudPoint × ℕ)}
    {a b st : LineTables × List PointXYZINormal}
    (h : points.foldlM (s.velodynePoint m) a = .ok st) (htables : a.1 = b.1)
    (hl : Filtered (beyondTest s.blindSqr) a.2 b.2) :
    ∃ st', points.foldlM (s.unblinded.velodynePoint m) b = .ok st' ∧
      Filtered (beyondTest s.blindSqr) st.2 st'.2 := by
  obtain ⟨st', hloop', -, hfiltered⟩ := foldlM_simulation
    (R := fun (a b : LineTables × List PointXYZINormal) =>
      a.1 = b.1 ∧ Filtered (beyondTest s.blindSqr) a.2 b.2)
    (f := s.velodynePoint m) (g := s.unblinded.velodynePoint m)
    (fun x a u b hR hturn => velodynePoint_filtered hR.1 hR.2 hturn) h ⟨htables, hl⟩
  exact ⟨st', hloop', hfiltered⟩

lemma velodyneHandler_filters (hoff : s.featureEnabled = false)
    (h : s.velodyneHandler m dista points = .ok t) :
    ∃ u, s.unblinded.velodyneHandler m dista points = .ok u ∧ Filters s t u := by
  have hoff' : s.unblinded.featureEnabled = false := hoff
  rw [velodyneHandler_of_off hoff] at h
  rw [velodyneHandler_of_off hoff']
  by_cases hempty : points.length = 0
  · rw [if_pos hempty] at h ⊢
    cases h
    exact ⟨_, rfl, .beyond .nil rfl⟩
  · rw [if_neg hempty] at h ⊢
    obtain ⟨last, hlast, h⟩ := except_bind_eq_ok.mp h
    obtain ⟨st, hloop, h⟩ := except_bind_eq_ok.mp h
    obtain ⟨st', hloop', hfiltered⟩ := velodyneLoop_filtered hloop rfl .nil
    rw [hlast, except_ok_bind]
    refine ⟨_, except_bind_eq_ok.mpr ⟨st', hloop', rfl⟩, ?_⟩
    cases h
    exact .beyond hfiltered rfl

/-- **Every handler filters**: what `process` puts out is what a blind test leaves of what it would
put out without a blind zone. -/
lemma process_filters (hoff : s.featureEnabled = false)
    (hstale : ¬s.HasCloudHandler → ∀ p ∈ s.plSurf, (s.blindSqr : Extended ℚ) ≤ p.sqRange)
    {msg : CloudMessage} (h : s.process m dista msg = .ok t) :
    ∃ u, s.unblinded.process m dista msg = .ok u ∧ Filters s t u := by
  have htype : s.unblinded.lidarType = s.lidarType := rfl
  have hunhandled : ¬s.HasCloudHandler → s = t →
      ∃ u, .ok s.unblinded = (.ok u : Except PreprocessFault Preprocessor) ∧ Filters s t u := by
    rintro hnone rfl
    exact ⟨_, rfl, .atLeast (fun q =>
      ⟨fun hq => ⟨hq, decide_eq_true (hstale hnone q hq)⟩, And.left⟩) rfl⟩
  cases msg with
  | custom points => exact aviaHandler_filters hoff h
  | pointCloud2 points =>
      unfold process at h ⊢
      dsimp only at h ⊢
      rw [htype]
      cases hl : lidType s.lidarType with
      | none =>
          rw [hl] at h
          refine hunhandled ?_ (Except.ok.inj h)
          rintro ⟨l, hl', -⟩
          rw [hl] at hl'
          cases hl'
      | some l =>
          have hsame : ∀ l', lidType s.lidarType = some l' → l = l' := fun l' hl' =>
            Option.some.inj (hl.symm.trans hl')
          rw [hl] at h
          cases l with
          | avia =>
              refine hunhandled ?_ (Except.ok.inj h)
              rintro ⟨l', hl', hne, -⟩
              exact hne (hsame l' hl').symm
          | mid360 =>
              refine hunhandled ?_ (Except.ok.inj h)
              rintro ⟨l', hl', -, hne⟩
              exact hne (hsame l' hl').symm
          | velo16 => exact velodyneHandler_filters hoff h
          | oust64 => exact oust64Handler_filters hoff (.inr hl) h
          | l515 => exact l515Handler_filters (.inl hl) h
          | xt32 => exact xt32Handler_filters hoff h
          | pandar128 => exact pandar128Handler_filters h
          | robosense => exact robosenseHandler_filters h

end Handlers

/-! ## Configurations that test nothing -/

lemma mem_surf {q : PointXYZINormal} :
    ∀ {prev : Option PointXYZINormal} {n : ℕ} {msg : List CustomPoint},
    q ∈ s.toPreprocess.surf prev n msg → ∃ p ∈ msg, (p.line : ℤ) < s.nScans ∧
      q.sqRange = p.sqRange ∧ (s.blindSqr : Extended ℚ) ≤ q.sqRange
  | _, _, [], h => by cases h
  | prev, n, p :: msg, h => by
      unfold Preprocess.surf at h
      rcases List.mem_append.mp h with h | h
      · by_cases hkeeps : s.toPreprocess.Keeps n p
        · rw [if_pos hkeeps, List.mem_singleton] at h
          subst h
          exact ⟨p, List.mem_cons_self, hkeeps.1, rfl, hkeeps.2.2⟩
        · rw [if_neg hkeeps] at h
          cases h
      · obtain ⟨p', hp', hrest⟩ := mem_surf h
        exact ⟨p', List.mem_cons_of_mem p hp', hrest⟩

lemma thin_of_zero (hzero : s.pointFilterNum = 0) {pass : CloudPoint → Bool}
    {points : List CloudPoint} {l : List PointXYZINormal}
    (h : s.thin pass make points = .ok l) : l = [] := by
  unfold thin at h
  refine foldlM_invariant (I := fun l => l = []) ?_ h rfl
  intro x _ l u _ hturn
  unfold thinPoint at hturn
  rw [if_pos hzero] at hturn
  cases hturn

lemma velodynePoint_of_zero (hzero : s.pointFilterNum = 0)
    {st u : LineTables × List PointXYZINormal}
    {x : CloudPoint × ℕ} (hst : st.2 = []) (h : s.velodynePoint m st x = .ok u) : u.2 = [] := by
  unfold velodynePoint thinPoint at h
  simp only [if_pos hzero] at h
  by_cases hgiven : s.givenOffsetTime = true
  · rw [if_pos hgiven] at h
    cases h
  · rw [if_neg hgiven] at h
    obtain ⟨⟨tables, c⟩, -, h⟩ := except_bind_eq_ok.mp h
    cases c with
    | none =>
        cases h
        exact hst
    | some c => cases h

lemma velodyneHandler_of_zero (hoff : s.featureEnabled = false) (hzero : s.pointFilterNum = 0)
    {dista : ℕ → Extended ℚ} {points : List CloudPoint}
    (h : s.velodyneHandler m dista points = .ok t) : t.plSurf = [] := by
  rw [velodyneHandler_of_off hoff] at h
  by_cases hlength : points.length = 0
  · rw [if_pos hlength] at h
    cases h
    rfl
  · rw [if_neg hlength] at h
    obtain ⟨last, -, h⟩ := except_bind_eq_ok.mp h
    obtain ⟨st, hloop, h⟩ := except_bind_eq_ok.mp h
    have hst : st.2 = [] := by
      refine foldlM_invariant (I := fun st : LineTables × List PointXYZINormal => st.2 = [])
        ?_ hloop rfl
      intro x _ a u ha hturn
      exact velodynePoint_of_zero (by exact hzero) ha hturn
    cases h
    exact hst

lemma aviaHandler_of_testsNothing (hoff : s.featureEnabled = false)
    (hnone : s.pointFilterNum = 0 ∨ s.nScans ≤ 0 ∨ 128 < s.nScans) {dista : ℕ → Extended ℚ}
    {points : List TaggedPoint} (h : s.aviaHandler m dista points = .ok t) : t.plSurf = [] := by
  rw [aviaHandler_of_off hoff] at h
  by_cases hscans : 128 < s.nScans
  · rw [if_pos hscans] at h
    cases h
  · rw [if_neg hscans] at h
    by_cases hzero : s.pointFilterNum = 0 ∧ ∃ p ∈ points, (p.line : ℤ) < s.nScans
    · rw [if_pos hzero] at h
      cases h
    · rw [if_neg hzero] at h
      cases h
      dsimp only
      rw [Preprocess.aviaHandler_eq, List.eq_nil_iff_forall_not_mem]
      intro q hq
      obtain ⟨p, hp, hline, -⟩ := mem_surf hq
      obtain ⟨p', hp', rfl⟩ := List.mem_map.mp hp
      obtain hnum | hlow | hhigh := hnone
      · exact hzero ⟨hnum, p', hp', hline⟩
      · omega
      · exact hscans hhigh

/-- A filter number of zero empties the output of each handler that a point cloud reaches. -/
lemma process_of_zero (hoff : s.featureEnabled = false) (hnum : s.pointFilterNum = 0)
    {l : LidType} (hl : lidType s.lidarType = some l) (havia : l ≠ .avia) (hmid : l ≠ .mid360)
    {dista : ℕ → Extended ℚ} {points : List CloudPoint}
    (h : s.process m dista (.pointCloud2 points) = .ok t) : t.plSurf = [] := by
  unfold process at h
  dsimp only at h
  rw [hl] at h
  cases l with
  | avia => exact absurd rfl havia
  | mid360 => exact absurd rfl hmid
  | velo16 => exact velodyneHandler_of_zero hoff hnum h
  | oust64 =>
      rw [oust64Handler_of_off hoff] at h
      obtain ⟨plSurf, hthin, h⟩ := except_bind_eq_ok.mp h
      cases h
      dsimp only
      rw [thin_of_zero hnum hthin]
      exact (m.sort_perm []).eq_nil
  | l515 =>
      unfold l515Handler at h
      obtain ⟨plSurf, hthin, h⟩ := except_bind_eq_ok.mp h
      cases h
      exact thin_of_zero hnum hthin
  | xt32 =>
      rw [xt32Handler_of_off hoff] at h
      obtain ⟨last, -, h⟩ := except_bind_eq_ok.mp h
      obtain ⟨first, -, h⟩ := except_bind_eq_ok.mp h
      obtain ⟨plSurf, hthin, h⟩ := except_bind_eq_ok.mp h
      cases h
      exact thin_of_zero hnum hthin
  | pandar128 =>
      unfold pandar128Handler at h
      obtain ⟨first, -, h⟩ := except_bind_eq_ok.mp h
      obtain ⟨plSurf, hthin, h⟩ := except_bind_eq_ok.mp h
      cases h
      dsimp only
      rw [thin_of_zero hnum hthin]
      exact (m.sort_perm []).eq_nil
  | robosense =>
      unfold robosenseHandler at h
      obtain ⟨first, -, h⟩ := except_bind_eq_ok.mp h
      obtain ⟨plSurf, hthin, h⟩ := except_bind_eq_ok.mp h
      cases h
      dsimp only
      rw [thin_of_zero hnum hthin]
      exact (m.sort_perm []).eq_nil

/-- Nothing is put out where nothing is tested. -/
lemma process_of_testsNothing (hoff : s.featureEnabled = false) (hnothing : s.TestsNothing)
    (hempty : s.plSurf = []) {dista : ℕ → Extended ℚ} {msg : CloudMessage}
    (h : s.process m dista msg = .ok t) : t.plSurf = [] := by
  have hunhandled : s = t → t.plSurf = [] := fun hst => hst ▸ hempty
  cases msg with
  | custom points =>
      refine aviaHandler_of_testsNothing hoff ?_ h
      obtain hzero | ⟨-, hscans⟩ := hnothing
      · exact .inl hzero
      · exact .inr hscans
  | pointCloud2 points =>
      cases hl : lidType s.lidarType with
      | none =>
          simp only [process, hl] at h
          exact hunhandled (Except.ok.inj h)
      | some l =>
          by_cases havia : l = .avia
          · simp only [process, hl, havia] at h
            exact hunhandled (Except.ok.inj h)
          by_cases hmid : l = .mid360
          · simp only [process, hl, hmid] at h
            exact hunhandled (Except.ok.inj h)
          have hnum : s.pointFilterNum = 0 :=
            hnothing.resolve_right fun hc => hc.1 ⟨l, hl, havia, hmid⟩
          exact process_of_zero hoff hnum hl havia hmid h

/-! ## Not-a-number -/

/-- What stays as it was configured. -/
structure Configured (s t : Preprocessor) : Prop where
  featureEnabled : t.featureEnabled = s.featureEnabled
  blind : t.blind = s.blind
  blindSqr : t.blindSqr = s.blindSqr
  lidarType : t.lidarType = s.lidarType
  nothing : s.TestsNothing → t.TestsNothing ∧ t.plSurf = []
  /-- A cloud that is put out again was filtered before. -/
  stale : ¬s.HasCloudHandler → ∀ p ∈ t.plSurf, .num s.blindSqr ≤ p.sqRange

lemma Configured.hasCloudHandler (h : Configured s t) : t.HasCloudHandler ↔ s.HasCloudHandler := by
  unfold HasCloudHandler
  rw [h.lidarType]

lemma Configured.dropsBelow (h : Configured s t) : t.DropsBelow ↔ s.DropsBelow := by
  unfold DropsBelow
  rw [h.lidarType]

lemma DropsBelow.hasCloudHandler (h : s.DropsBelow) : s.HasCloudHandler := by
  obtain h | h := h
  · exact ⟨_, h, by simp, by simp⟩
  · exact ⟨_, h, by simp, by simp⟩

lemma Configured.stale_pre (h : Configured s t) (hnone : ¬t.HasCloudHandler) :
    ∀ p ∈ t.plSurf, .num t.blindSqr ≤ p.sqRange := by
  rw [h.blindSqr]
  exact h.stale (mt h.hasCloudHandler.mpr hnone)

/-- What has a squared range and is put out is not below the threshold. -/
lemma Filters.le {u : Preprocessor} (h : Filters s t u) {p : PointXYZINormal} (hp : p ∈ t.plSurf)
    (hnum : p.sqRange ≠ .nan) : .num s.blindSqr ≤ p.sqRange := by
  obtain ⟨test, htest, -, hkept⟩ := h.kept
  exact (Extended.not_lt_iff hnum (by simp)).mp (htest.below _ ((hkept p).mp hp).2)

lemma step_eq_ok {e : (ℕ → Extended ℚ) × CloudMessage} {o : List PointXYZINormal}
    (h : step m s e = .ok (t, o)) : s.process m e.1 e.2 = .ok t ∧ o = t.plSurf := by
  unfold step at h
  cases hprocess : s.process m e.1 e.2 with
  | error f =>
      rw [hprocess] at h
      cases h
  | ok u =>
      rw [hprocess] at h
      cases h
      exact ⟨rfl, rfl⟩

/-- **Step lemma.** -/
lemma Configured.step {x : PreprocessTurn} (hoff : s.featureEnabled = false)
    (h : Configured s x.pre) (hx : x.Taken (step m)) : Configured s x.post := by
  have hpre : x.pre.featureEnabled = false := h.featureEnabled.trans hoff
  obtain ⟨hprocess, -⟩ := step_eq_ok hx
  obtain ⟨u, -, hfilters⟩ := process_filters hpre h.stale_pre hprocess
  have hpost := hfilters.frame
  have hnothing : x.pre.TestsNothing → x.post.TestsNothing := fun hc => by
    rw [hpost]
    exact hc
  refine ⟨?_, ?_, ?_, ?_, fun hc => ?_, fun hnone p hp => ?_⟩
  · rw [hpost]
    exact h.featureEnabled
  · rw [hpost]
    exact h.blind
  · rw [hpost]
    exact h.blindSqr
  · rw [hpost]
    exact h.lidarType
  · obtain ⟨hpreNothing, hempty⟩ := h.nothing hc
    exact ⟨hnothing hpreNothing, process_of_testsNothing hpre hpreNothing hempty hprocess⟩
  · -- without a handler that drops below, not-a-number passes no test
    obtain ⟨test, -, hnan, hkept⟩ := hfilters.kept
    rw [← h.blindSqr]
    refine hfilters.le hp fun hc => hnone ?_
    have hpass := ((hkept p).mp hp).2
    rw [hc] at hpass
    exact (h.dropsBelow.mp (hnan hpass)).hasCloudHandler

end Preprocessor

end FastLivo2
