import FastLivo2.Covariance
import FastLivo2.Lib.Descent

/-!
# The error of the visual update

One pyramid level of the visual update is a descent on the photometric error: an iteration that
finds a larger error than the last accepted one restores the state of that iteration.  The state
after the last step is returned unseen.
-/

namespace FastLivo2

/-! ## One level as a descent -/

section Level

variable (N : Numerics) (cfg : VioConfig) (statePropagat : StatesGroup) (level : ℕ)
variable {ι : Type} [Fintype ι] {k : ℕ} (hk : k ≤ dimState) (ph : Photometry ι k)

/-- `solution` of an accepted iteration. -/
def visualSolution (s : StatesGroup) : VState :=
  let H := ph.hSub s
  let HH := H.transpose * H
  let K1 := N.inverse (setCorner 0 HH + N.inverse (cfg.imgPointCov⁻¹ • s.cov))
  let vec := statePropagat.sub N s
  let G := setCorner (0 : MState) (leadCols K1 hk * HH)
  let solution : VState := -(leadCols K1 hk).mulVec (H.transpose.mulVec (ph.z s)) + vec -
    (leadCols G hk).mulVec (vec.lead hk)
  solution

/-- The error, the step and the stop test of one level. -/
def levelDescent : Descent StatesGroup ℚ where
  error := ph.error
  step := fun s => s.add N.toLibm (visualSolution N cfg statePropagat hk ph s)
  small := fun s => decide (visualConverged N.toLibm (visualSolution N cfg statePropagat hk ph s))

variable {ph} in
lemma visualIteration_accept {v : VisualLoop} {e : ℚ} (he : ph.error v.state = some e)
    (hle : (e : WithTop ℚ) ≤ v.lastError) :
    visualIteration N cfg statePropagat level hk ph v =
      acceptStep N cfg statePropagat level hk ph e v := by
  rw [visualIteration, he]
  exact if_pos hle

variable {ph} in
lemma visualIteration_reject {v : VisualLoop}
    (h : ∀ e, ph.error v.state = some e → ¬(e : WithTop ℚ) ≤ v.lastError) :
    visualIteration N cfg statePropagat level hk ph v = rejectStep v := by
  rw [visualIteration]
  cases he : ph.error v.state with
  | none => rfl
  | some e => exact if_neg (h e he)

/-- The loop of one level is the descent. -/
lemma visualLoop_state (n : ℕ) (v : VisualLoop) :
    (visualLoop N cfg statePropagat level hk ph n v).state =
      (levelDescent N cfg statePropagat hk ph).run n v.state v.oldState v.lastError := by
  induction n generalizing v with
  | zero => rfl
  | succ n ih =>
      have herror : (levelDescent N cfg statePropagat hk ph).error v.state = ph.error v.state := rfl
      rw [visualLoop, Descent.run, herror]
      cases he : ph.error v.state with
      | none =>
          rw [visualIteration_reject N cfg statePropagat level hk (by simp [he])]
          rfl
      | some e =>
          dsimp only
          by_cases hle : (e : WithTop ℚ) ≤ v.lastError
          · rw [visualIteration_accept N cfg statePropagat level hk he hle, if_pos hle]
            by_cases hsmall : (levelDescent N cfg statePropagat hk ph).small v.state = true
            · rw [if_pos hsmall]
              exact congrArg (fun v : VisualLoop => v.state) (if_pos hsmall)
            · rw [if_neg hsmall]
              refine (congrArg (fun v : VisualLoop => v.state) (if_neg hsmall)).trans ?_
              exact ih _
          · rw [visualIteration_reject N cfg statePropagat level hk, if_neg hle]
            · rfl
            · intro e' he'
              rwa [← Option.some.inj (he.symm.trans he')]

/-- **One level**: the state it ends with is that of the descent. -/
theorem updateLevel_state (e : VisualEkf) :
    (updateLevel N cfg statePropagat level hk ph e).state =
      (levelDescent N cfg statePropagat hk ph).descend cfg.maxIterations e.state :=
  visualLoop_state N cfg statePropagat level hk ph cfg.maxIterations { e with oldState := e.state }

end Level

/-! ## The error of the state returned -/

/-- What the roll-back is for: the state returned is no worse than the one entered with, and an
iteration that finds a larger error than the one before goes back to the state of that one. -/
structure Descent.RollsBack (D : Descent StatesGroup ℚ) (max : ℕ) (s : StatesGroup) : Prop where
  noGreater : NoGreater (D.error (D.descend max s)) (D.error s)
  restores : ∀ n e e', n + 1 < max → D.Reaches s (n + 1) → D.error (D.iter s n) = some e →
    D.error (D.iter s (n + 1)) = some e' → e < e' → D.descend max s = D.iter s n

/-- A larger error is rejected. -/
lemma Descent.not_accepts {D : Descent StatesGroup ℚ} {s : StatesGroup} {n : ℕ} {e e' : ℚ}
    (he : D.error (D.iter s n) = some e) (he' : D.error (D.iter s (n + 1)) = some e')
    (hlt : e < e') : ¬D.Accepts s (n + 1) := by
  rintro ⟨f, f', hf, hf', hle⟩
  obtain rfl : e = f := Option.some.inj (he.symm.trans hf)
  obtain rfl : e' = f' := Option.some.inj (he'.symm.trans hf')
  exact absurd hle (not_le.mpr hlt)

/-- What is no worse than the first state rolls back as it should: that half never fails. -/
lemma Descent.rollsBack_iff (D : Descent StatesGroup ℚ) (max : ℕ) (s : StatesGroup) :
    D.RollsBack max s ↔ NoGreater (D.error (D.descend max s)) (D.error s) := by
  refine ⟨fun h => h.noGreater, fun h => ⟨h, ?_⟩⟩
  intro n e e' hlt hreaches he he' hgreater
  exact Descent.descend_of_reject hreaches hlt (Descent.not_accepts he he' hgreater)

/-- **The error of a level.**  For any error and any step, a level does what its roll-back is for,
whatever the error is at the states it never looks at, exactly when it does not end on such a state;
both updates are such a descent. -/
theorem updateState_error {cfg : VioConfig} (hiter : 0 < cfg.maxIterations) :
    (∀ (D : Descent StatesGroup ℚ) (s : StatesGroup),
      (∀ error, D.SeenAs cfg.maxIterations s error →
        (D.withError error).RollsBack cfg.maxIterations s) ↔ D.Judged cfg.maxIterations s) ∧
    (∀ (L : VioLibs) (img : Mat) (statePropagat : StatesGroup) (pts : List SubPoint) (level : ℕ)
      (e : VisualEkf), (updateState L cfg img statePropagat pts level e).state =
        (levelDescent L.toNumerics cfg statePropagat (by decide)
          (photometry L cfg img level pts)).descend cfg.maxIterations e.state) ∧
    ∀ (L : VioLibs) (img : Mat) (statePropagat : StatesGroup) (pts : List (SubPoint × RefPoint))
      (level : ℕ) (e : VisualEkf), (updateStateInverse L cfg img statePropagat pts level e).state =
        (levelDescent L.toNumerics cfg statePropagat pose_le_dimState
          (inversePhotometry L cfg img level pts)).descend cfg.maxIterations e.state := by
  refine ⟨fun D s => ?_, fun L img statePropagat pts level e => updateLevel_state ..,
    fun L img statePropagat pts level e => updateLevel_state ..⟩
  rw [← D.forall_noGreater_iff s hiter]
  simp only [Descent.rollsBack_iff]
  rfl

/-! ## A last step that is not looked at -/

/-- A camera of sixteen by sixteen pixels. -/
def smallCamera : Camera where
  width := 16
  height := 16
  fx := 400
  fy := 400
  world2cam := fun p => ![400 * p 0 / p 2 + 4, 400 * p 1 / p 2 + 4]
  cam2world := fun px => ![(px 0 - 4) / 400, (px 1 - 4) / 400, 1]

noncomputable def smallLibs : VioLibs := restLibs.withCamera smallCamera squareRoot

/-- Two by two patches on one level, and some iterations. -/
def smallConfig (maxIterations : ℕ) : VioConfig where
  patchSize := 2
  patchPyrimidLevel := 1
  maxIterations := maxIterations

/-- Dark on the left, bright on the right. -/
def twoTone : Mat where
  rows := 16
  cols := 16
  data := (List.range 256).map fun k => if k % 16 < 9 then 0 else 100

/-- A point one metre ahead, dark in its reference patch. -/
def darkPoint : SubPoint := ⟨![0, 0, 1], 0, [0, 0, 0, 0], 1⟩

/-- The propagated state: two centimetres to the left of the current one. -/
def asideState : StatesGroup := { posEnd := ![-1 / 50, 0, 0] }

lemma asideState_sub :
    asideState.sub smallLibs.toNumerics {} = fun i => if i.val = 3 then -1 / 50 else 0 := by
  have hrot : logRot smallLibs.toNumerics
      (({} : StatesGroup).rotEnd.transpose * asideState.rotEnd) = 0 := by
    show logRot smallLibs.toNumerics ((1 : M3D).transpose * 1) = 0
    rw [Matrix.transpose_one, one_mul, logRot_one]
  unfold StatesGroup.sub
  rw [hrot]
  decide +kernel

/-- The image is flat around the projection of the point, so no row pulls the state. -/
lemma darkPoint_hSub : ∀ n ∈ [1, 2],
    (photometry smallLibs (smallConfig n) twoTone 0 [darkPoint]).hSub {} = 0 := by
  decide +kernel

lemma exposure_le_dimState : 7 ≤ dimState := by decide

/-- The level, with the propagated state aside. -/
noncomputable def asideDescent (n : ℕ) : Descent StatesGroup ℚ :=
  levelDescent smallLibs.toNumerics (smallConfig n) asideState exposure_le_dimState
    (photometry smallLibs (smallConfig n) twoTone 0 [darkPoint])

/-- The errors at the current state and at the propagated one. -/
lemma asideDescent_error : ∀ n ∈ [1, 2],
    (asideDescent n).error {} = some 0 ∧ (asideDescent n).error asideState = some 10000 := by
  decide +kernel

/-- So the step is the way to the propagated state. -/
lemma darkPoint_solution {n : ℕ} (hn : n ∈ [1, 2]) :
    visualSolution smallLibs.toNumerics (smallConfig n) asideState (by decide)
      (photometry smallLibs (smallConfig n) twoTone 0 [darkPoint]) {} =
      asideState.sub smallLibs.toNumerics {} := by
  unfold visualSolution
  rw [darkPoint_hSub n hn]
  dsimp only
  rw [Matrix.transpose_zero, Matrix.zero_mulVec, Matrix.zero_mul, Matrix.mul_zero,
    setCorner_zero_left, Matrix.zero_mul, leadCols_eq_mul, leadCols_eq_mul, Matrix.zero_mul,
    Matrix.zero_mulVec, Matrix.mulVec_zero, neg_zero, zero_add, sub_zero]

lemma asideDescent_step {n : ℕ} (hn : n ∈ [1, 2]) : (asideDescent n).step {} = asideState := by
  show ({} : StatesGroup).add smallLibs.toLibm (visualSolution _ _ _ _ _ {}) = _
  rw [darkPoint_solution hn, asideState_sub]
  have hturn : expVec smallLibs.toLibm
      (VState.seg (fun i => if i.val = 3 then -1 / 50 else 0) 0) = 1 := by
    unfold expVec
    exact if_neg (by decide +kernel)
  unfold StatesGroup.add asideState
  rw [hturn]
  congr 1
  · exact one_mul 1
  all_goals decide +kernel

/-- Two centimetres are no small step. -/
lemma asideDescent_small {n : ℕ} (hn : n ∈ [1, 2]) : (asideDescent n).small {} = false := by
  have hfar : ¬visualConverged smallLibs.toLibm
      (fun i : Fin dimState => if i.val = 3 then (-1 / 50 : ℚ) else 0) := by
    decide +kernel
  refine decide_eq_false ?_
  rw [darkPoint_solution hn, asideState_sub]
  exact hfar

/-- The variables of the level at its start. -/
def asideStart : VisualEkf := { state := {}, G := 0, HTH := 0 }

/-- With a second iteration the step is looked at, and taken back. -/
theorem updateState_error_rolledBack :
    (∀ error, (asideDescent 2).SeenAs 2 {} error →
      ((asideDescent 2).withError error).RollsBack 2 {}) ∧
    (updateState smallLibs (smallConfig 2) twoTone asideState [darkPoint] 0 asideStart).state =
      {} := by
  have htwo : 2 ∈ [1, 2] := by decide
  obtain ⟨hbefore, hafter⟩ := asideDescent_error 2 htwo
  have haside : (asideDescent 2).iter {} 1 = asideState := asideDescent_step htwo
  have hreject : ¬(asideDescent 2).Accepts {} 1 := by
    refine Descent.not_accepts (n := 0) hbefore (haside ▸ hafter) ?_
    norm_num
  have hreaches : (asideDescent 2).Reaches {} 1 := by
    intro k hk
    obtain rfl : k = 0 := Nat.lt_one_iff.mp hk
    exact ⟨⟨0, hbefore⟩, asideDescent_small htwo⟩
  have hiter : 0 < (smallConfig 2).maxIterations := Nat.two_pos
  constructor
  · refine ((updateState_error hiter).1 (asideDescent 2) {}).mpr fun n hn => ?_
    have hle : 1 ≤ n := hn.le_of_reaches Nat.one_lt_two hreaches
    have hlt : n < 2 := hn.lt
    obtain rfl : n = 1 := by omega
    exact absurd hn.accepts hreject
  · exact (updateLevel_state ..).trans (Descent.descend_of_reject hreaches Nat.one_lt_two hreject)

/-- **The step of the only iteration is returned unseen**, and the error has grown. -/
theorem asideState_unseen :
    let ph := photometry smallLibs (smallConfig 1) twoTone 0 [darkPoint]
    ph.error asideStart.state = some 0 ∧
      ph.error (updateState smallLibs (smallConfig 1) twoTone asideState [darkPoint] 0
        asideStart).state = some 10000 := by
  intro ph
  have hone : 1 ∈ [1, 2] := by decide
  obtain ⟨hbefore, hafter⟩ := asideDescent_error 1 hone
  have hends : (asideDescent 1).EndsAfter 1 {} 0 :=
    ⟨Nat.one_pos, fun k hk => absurd hk (Nat.not_lt_zero k), ⟨0, hbefore⟩, .inr rfl⟩
  have hstate : (updateState smallLibs (smallConfig 1) twoTone asideState [darkPoint] 0
      asideStart).state = asideState :=
    (updateLevel_state ..).trans (hends.descend.trans (asideDescent_step hone))
  rw [hstate]
  exact ⟨hbefore, hafter⟩

end FastLivo2
