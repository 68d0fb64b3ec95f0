import FastLivo2.Common

/-!
# Visual points and their observations

`Feature` (`feature.h`) and `VisualPoint` (`visual_point.cpp`): a map point with the list of image
patches that observe it, one of which may be its reference.

A `Feature` object is known by the number of its allocation, `addr`, and owns a patch buffer, known
by the number of its own.  The pointer `ref_patch` is not set by the constructor of a point, so it
has three kinds of value (`FeaturePtr`); it is followed through the point's own observations, the
only features it is ever set to.  A function that deletes features returns the buffers their
destructor frees.

A `float` is an exact rational, or not a number after a division by zero (`Flt`); the largest
float, where a minimum is sought, is then the top of an ordered type.
-/

namespace FastLivo2

/-! ## Faults -/

/-- The ways a visual frame can fail to return. -/
inductive VioFault
  /-- A pointer that was never assigned is followed. -/
  | wildPointer
  /-- A null pointer is followed. -/
  | nullPointer
  /-- A pointer to a deleted object is followed. -/
  | danglingPointer
  /-- An index past the end of a vector. -/
  | outOfRange
  /-- A floating-point value that does not fit the `int` it is converted to. -/
  | intRange
  /-- The constructor of `Frame` throws. -/
  | badImage
  deriving DecidableEq, Repr

/-- A sequence of calls returns when each of them does. -/
lemma vio_bind_eq_ok {α β : Type} {x : Except VioFault α} {f : α → Except VioFault β} {b : β} :
    (x >>= f) = .ok b ↔ ∃ a, x = .ok a ∧ f a = .ok b := by
  cases x <;> simp [bind, Except.bind]

/-- Whether a call returns a value that passes a test. -/
instance decidableReturns {ε α : Type} (P : α → Prop) [DecidablePred P] :
    (x : Except ε α) → Decidable (∃ a, x = .ok a ∧ P a)
  | .ok a => decidable_of_iff (P a) (by simp)
  | .error _ => isFalse (by simp)

/-! ## Floats -/

/-- A `float`: a number, or none. -/
abbrev Flt := Option ℚ

/-- A quotient; by zero it is not a number. -/
def Flt.div (x y : ℚ) : Flt := if y = 0 then none else some (x / y)

/-- `x < bound`, the bound being the largest float at first. -/
def Flt.below (x : Flt) (bound : WithTop ℚ) : Prop := ∃ q ∈ x, (q : WithTop ℚ) < bound

instance (x : Flt) (bound : WithTop ℚ) : Decidable (x.below bound) :=
  inferInstanceAs (Decidable (∃ q ∈ x, (q : WithTop ℚ) < bound))

/-! ## Poses -/

abbrev V2D := Fin 2 → ℚ

abbrev M2D := Matrix (Fin 2) (Fin 2) ℚ

def V2D.norm (m : Libm) (v : V2D) : ℚ := m.sqrt (v ⬝ᵥ v)

/-- `v.normalized()`. -/
def V3D.normalized {K : Type} [Field K] [LinearOrder K] (m : Libm K) (v : Fin 3 → K) : Fin 3 → K :=
  if 0 < v ⬝ᵥ v then (1 / m.sqrt (v ⬝ᵥ v)) • v else v

/-- `SE3<double>`. -/
structure SE3 where
  rot : M3D := 1
  trans : V3D := 0

namespace SE3

/-- `T * p`. -/
def act (T : SE3) (p : V3D) : V3D := T.rot.mulVec p + T.trans

/-- `T.inverse()`. -/
def inverse (T : SE3) : SE3 := ⟨T.rot.transpose, -T.rot.transpose.mulVec T.trans⟩

/-- `T * T'`. -/
def mul (T T' : SE3) : SE3 := ⟨T.rot * T'.rot, T.rot.mulVec T'.trans + T.trans⟩

end SE3

/-! ## Features -/

/-- A patch: the buffer allocated `buf`-th, and the pixels written into it before it is shared. -/
structure Patch where
  buf : ℕ
  values : List ℚ
  deriving DecidableEq

/-- `patch[ind]`. -/
def Patch.at (p : Patch) (ind : ℕ) : ℚ := p.values.getD ind 0

/-- `Feature`, as far as the visual map uses it. -/
structure Feature where
  addr : ℕ
  id : ℕ
  img : Mat
  px : V2D
  f : V3D
  level : ℕ
  tFW : SE3
  patch : Patch
  score : Flt := some 0
  mean : ℚ := 0
  invExpoTime : ℚ

/-- `pos()`: the camera centre. -/
def Feature.pos (ftr : Feature) : V3D := ftr.tFW.inverse.trans

/-- `Feature *`. -/
inductive FeaturePtr
  | unassigned
  | nullptr
  | to (addr : ℕ)
  deriving DecidableEq, Repr

/-! ## Points -/

/-- `VisualPoint`, with the values its constructor gives. -/
structure VisualPoint where
  pos : V3D
  normal : V3D := 0
  previousNormal : V3D := 0
  obs : List Feature := []
  covariance : M3D := 0
  isConverged : Bool := false
  isNormalInitialized : Bool := false
  hasRefPatch : Bool := false
  refPatch : FeaturePtr := .unassigned

namespace VisualPoint

/-- The features of a point, as pointers. -/
def addrs (pt : VisualPoint) : List ℕ := pt.obs.map Feature.addr

/-- The frames that observe a point. -/
def ids (pt : VisualPoint) : List ℕ := pt.obs.map Feature.id

/-- The patch buffers its features own. -/
def bufs (pt : VisualPoint) : List ℕ := pt.obs.map fun ftr => ftr.patch.buf

/-- `*ref_patch`. -/
def derefPatch (pt : VisualPoint) : Except VioFault Feature :=
  match pt.refPatch with
  | .unassigned => .error .wildPointer
  | .nullptr => .error .nullPointer
  | .to addr =>
      match pt.obs.find? fun ftr => ftr.addr = addr with
      | none => .error .danglingPointer
      | some ftr => .ok ftr

/-- `ref_patch = ftr` and `has_ref_patch_ = true`. -/
def setRef (pt : VisualPoint) (ftr : Feature) : VisualPoint :=
  { pt with refPatch := .to ftr.addr, hasRefPatch := true }

/-- `VisualPoint::addFrameRef`. -/
def addFrameRef (pt : VisualPoint) (ftr : Feature) : VisualPoint := { pt with obs := ftr :: pt.obs }

/-- `VisualPoint::deleteFeatureRef`, with the buffers freed. -/
def deleteFeatureRef (pt : VisualPoint) (ftr : Feature) : VisualPoint × List ℕ :=
  let pt :=
    if pt.refPatch = .to ftr.addr then { pt with refPatch := .nullptr, hasRefPatch := false }
    else pt
  let isFtr := fun g : Feature => decide (g.addr = ftr.addr)
  ({ pt with obs := pt.obs.eraseP isFtr },
    (pt.obs.find? isFtr).toList.map fun g => g.patch.buf)

/-- `VisualPoint::deleteNonRefPatchFeatures`, with the buffers freed. -/
def deleteNonRefPatchFeatures (pt : VisualPoint) : VisualPoint × List ℕ :=
  let isRef := fun g : Feature => decide (pt.refPatch = .to g.addr)
  ({ pt with obs := pt.obs.filter isRef },
    (pt.obs.filter fun g => !isRef g).map fun g => g.patch.buf)

/-- `VisualPoint::findMinScoreFeature`. -/
def findMinScoreFeature (pt : VisualPoint) : Except VioFault Feature :=
  match pt.obs with
  | [] => .error .danglingPointer
  | first :: _ =>
      .ok (pt.obs.foldl (fun (it : WithTop ℚ × Feature) g =>
        if g.score.below it.1 then ((g.score.getD 0 : ℚ), g) else it) (⊤, first)).2

/-- `VisualPoint::getCloseViewObs`; `none` when it returns false. -/
def getCloseViewObs (m : Libm) (pt : VisualPoint) (framepos : V3D) : Option Feature :=
  match pt.obs with
  | [] => none
  | first :: _ =>
      let obsDir := V3D.normalized m (framepos - pt.pos)
      let best := pt.obs.foldl (fun (it : ℚ × Feature) g =>
        let cosAngle := obsDir ⬝ᵥ V3D.normalized m (g.pos - pt.pos)
        if it.1 < cosAngle then (cosAngle, g) else it) (0, first)
      if best.1 < 1 / 2 then none else some best.2

@[simp] lemma setRef_obs (pt : VisualPoint) (ftr : Feature) : (pt.setRef ftr).obs = pt.obs := rfl

@[simp] lemma setRef_hasRefPatch (pt : VisualPoint) (ftr : Feature) :
    (pt.setRef ftr).hasRefPatch = true := rfl

@[simp] lemma setRef_refPatch (pt : VisualPoint) (ftr : Feature) :
    (pt.setRef ftr).refPatch = .to ftr.addr := rfl

@[simp] lemma setRef_isConverged (pt : VisualPoint) (ftr : Feature) :
    (pt.setRef ftr).isConverged = pt.isConverged := rfl

@[simp] lemma addFrameRef_obs (pt : VisualPoint) (ftr : Feature) :
    (pt.addFrameRef ftr).obs = ftr :: pt.obs := rfl

end VisualPoint

/-- A square root that is exact on squares. -/
def squareRoot (x : ℚ) : ℚ := Nat.sqrt x.num.toNat / Nat.sqrt x.den

lemma squareRoot_nonneg (x : ℚ) : 0 ≤ squareRoot x := by
  unfold squareRoot
  positivity

end FastLivo2
