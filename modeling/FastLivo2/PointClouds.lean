import FastLivo2.GiveFeature
import FastLivo2.Lib.Fold

/-!
# The handlers of the point clouds

`Preprocess::process` takes a message of the Livox driver or a `PointCloud2`, and hands it to the
handler of its lidar.  With feature extraction on, a handler sorts the points into lines and calls
`give_feature` for each of them; with it off, it thins the points out, drops those in the blind zone
and puts out the rest.

A coordinate, an intensity or a time of a cloud is a number, an infinity or not-a-number; the
parameters are numbers.

The blind zone of every handler is `blind_sqr`, of which the constructor, `set` and the reader of
the parameters leave the value that the memory had: it is a parameter of the constructor here, as
is that of `disB`.
-/

namespace FastLivo2

/-- A point of `CustomMsg` with its tag. -/
structure TaggedPoint extends CustomPoint where
  tag : ℕ := 0x10

/-- A point of a `PointCloud2`, with the fields of all the lidars: `time` is the field `time`, `t`
or `timestamp`. -/
structure CloudPoint where
  x : Extended ℚ
  y : Extended ℚ
  z : Extended ℚ
  intensity : Extended ℚ := 0
  time : Extended ℚ := 0
  ring : ℕ := 0
  r : ℕ := 0
  g : ℕ := 0
  b : ℕ := 0

def CloudPoint.sqRange (p : CloudPoint) : Extended ℚ := Extended.sumSquares p.x p.y p.z

inductive CloudMessage
  | custom (points : List TaggedPoint)
  | pointCloud2 (points : List CloudPoint)

/-- `is_first`, `yaw_fp` and `time_last`. -/
structure LineTables where
  isFirst : ℕ → Bool := fun _ => true
  yawFp : ℕ → Extended ℚ := fun _ => 0
  timeLast : ℕ → Extended ℚ := fun _ => 0

/-- `M_PI`. -/
def mPi : ℚ := 314159265358979323846 / 100000000000000000000

/-- The time of a point on its layer from its yaw; none for the first point of the layer. -/
def LineTables.stamp (m : CloudLibm) (t : LineTables) (p : CloudPoint) :
    LineTables × Option (Extended ℚ) :=
  let omegaL : Extended ℚ := .num (361 / 100)
  let yawAngle := m.atan2 p.y p.x * .num (572957 / 10000)
  if t.isFirst p.ring then
    ({ isFirst := Function.update t.isFirst p.ring false
       yawFp := Function.update t.yawFp p.ring yawAngle
       timeLast := Function.update t.timeLast p.ring 0 }, none)
  else
    let c := if yawAngle ≤ t.yawFp p.ring then (t.yawFp p.ring - yawAngle) / omegaL
      else (t.yawFp p.ring - yawAngle + 360) / omegaL
    let c := if c < t.timeLast p.ring then c + 360 / omegaL else c
    ({ t with timeLast := Function.update t.timeLast p.ring c }, some c)

/-- The tables have `MAX_LINE_NUM` entries. -/
def LineTables.stampChecked (m : CloudLibm) (t : LineTables) (p : CloudPoint) :
    Except PreprocessFault (LineTables × Option (Extended ℚ)) :=
  if p.ring < 64 then .ok (t.stamp m p) else .error (.outOfRange .lineTables)

namespace Preprocessor

/-! ## The configuration -/

/-- `Preprocess::Preprocess`, in a memory that holds `blindSqr` and `disB`. -/
def new (m : CloudLibm) (blindSqr disB : ℚ) : Preprocessor where
  blindSqr := blindSqr
  disB := disB
  jumpUpLimit := m.cos (170 / 180 * mPi)
  jumpDownLimit := m.cos (8 / 180 * mPi)
  cos160 := m.cos (160 / 180 * mPi)
  smallpIntersect := m.cos ((1725 / 10) / 180 * mPi)

variable (s : Preprocessor) (m : CloudLibm)

/-! ## Lines -/

/-- The clouds of features are empty. -/
def cleared : Preprocessor := { s with plSurf := [], plCorn := [] }

/-- The loop that clears the lines of `pl_buff`. -/
def clearLines : Except PreprocessFault (List (List PointXYZINormal)) :=
  if 128 < s.nScans then .error (.outOfRange .plBuff) else .ok (List.replicate 128 [])

/-- `pl_buff[layer].push_back(pt)`. -/
def pushLine (plBuff : List (List PointXYZINormal)) (layer : ℕ) (pt : PointXYZINormal) :
    Except PreprocessFault (List (List PointXYZINormal)) := do
  let line ← readAt (.outOfRange .plBuff) plBuff layer
  writeAt (.outOfRange .plBuff) plBuff layer (line ++ [pt])

/-- The ranges and distances of a line; `last` is what the memory has for the last distance.  Of an
empty line `linesize` is `-1`, and the loop does not end before its first access. -/
def fillTypes (range : PointXYZINormal → Extended ℚ) (last : Extended ℚ) :
    List PointXYZINormal → Except PreprocessFault (List OrgType)
  | [] => .error (.outOfRange .pl)
  | [p] => .ok [{ range := range p, dista := last }]
  | p :: q :: pl => do
      let types ← fillTypes range last (q :: pl)
      return { range := range p, dista := (CloudV3D.between q p).sqNorm } :: types

/-- The features of the line `j`, unless it has fewer than `minSize` points; `dista j` is what the
memory has for its last distance. -/
def featureLine (range : PointXYZINormal → Extended ℚ) (minSize : ℕ) (dista : ℕ → Extended ℚ)
    (plBuff : List (List PointXYZINormal)) (j : ℕ) (s : Preprocessor) :
    Except PreprocessFault Preprocessor := do
  let pl ← readAt (.outOfRange .plBuff) plBuff j
  if pl.length < minSize then return s
  else if 128 ≤ j then .error (.outOfRange .typess)
  else
    let types ← fillTypes range (dista j) pl
    s.giveFeature m pl types

/-- The loop over the lines. -/
def featureLines (range : PointXYZINormal → Extended ℚ) (minSize : ℕ) (dista : ℕ → Extended ℚ)
    (plBuff : List (List PointXYZINormal)) : Except PreprocessFault Preprocessor :=
  forLoop (featureLine m range minSize dista plBuff) 0 s.nScans.toNat s

def planeRange (p : PointXYZINormal) : Extended ℚ := m.sqrt (p.x * p.x + p.y * p.y)

/-! ## Thinning -/

/-- A turn of the loops that thin a cloud out: of every `point_filter_num` points one is tested. -/
def thinPoint (test : CloudPoint → Bool) (make : CloudPoint → PointXYZINormal)
    (plSurf : List PointXYZINormal) (x : CloudPoint × ℕ) :
    Except PreprocessFault (List PointXYZINormal) :=
  if s.pointFilterNum = 0 then .error .divisionByZero
  else if x.2 % s.pointFilterNum = 0 ∧ test x.1 then .ok (plSurf ++ [make x.1])
  else .ok plSurf

def thin (test : CloudPoint → Bool) (make : CloudPoint → PointXYZINormal)
    (points : List CloudPoint) : Except PreprocessFault (List PointXYZINormal) :=
  points.zipIdx.foldlM (s.thinPoint test make) []

/-- `!(range < blind_sqr)`, which not-a-number passes. -/
def notBelow (p : CloudPoint) : Bool := !decide (p.sqRange < s.blindSqr)

/-- `range > blind_sqr`. -/
def beyond (p : CloudPoint) : Bool := decide ((s.blindSqr : Extended ℚ) < p.sqRange)

/-- `is_valid` of `robosense_handler`. -/
def isValid (p : CloudPoint) : Bool :=
  decide ((s.blindSqr : Extended ℚ) ≤ p.sqRange) && !decide (p.x = .nan) && !decide (p.y = .nan) &&
    !decide (p.z = .nan)

/-! ## Livox -/

/-- Two slots differ in a coordinate. -/
def differ (p q : PointXYZINormal) : Bool :=
  let eps : Extended ℚ := .num (1 / 10000000)
  decide (eps < (p.x - q.x).abs) || decide (eps < (p.y - q.y).abs) || decide (eps < (p.z - q.z).abs)

/-- A turn of the loop of `avia_handler` with features: the slot before, and the lines. -/
def aviaFeaturePoint (st : PointXYZINormal × List (List PointXYZINormal)) (p : TaggedPoint) :
    Except PreprocessFault (PointXYZINormal × List (List PointXYZINormal)) :=
  if (p.line : ℤ) < s.nScans ∧ p.tag &&& 0x30 = 0x10 then do
    let slot : PointXYZINormal :=
      { x := p.x, y := p.y, z := p.z, intensity := .num p.reflectivity, curvature := p.time }
    if differ slot st.1 then
      let plBuff ← pushLine st.2 p.line slot
      return (slot, plBuff)
    else return (slot, st.2)
  else .ok ({}, st.2)

/-- `Preprocess::avia_handler`. -/
def aviaHandler (dista : ℕ → Extended ℚ) (points : List TaggedPoint) :
    Except PreprocessFault Preprocessor := do
  let s := s.cleared
  let plBuff ← s.clearLines
  if s.featureEnabled then
    let st ← points.tail.foldlM s.aviaFeaturePoint ({}, plBuff)
    s.featureLines m (fun p => p.x * p.x + p.y * p.y) 6 dista st.2
  else if s.pointFilterNum = 0 ∧ ∃ p ∈ points, (p.line : ℤ) < s.nScans then .error .divisionByZero
  else return { s with plSurf := s.toPreprocess.aviaHandler (points.map TaggedPoint.toCustomPoint) }

/-! ## The other lidars -/

/-- `Preprocess::l515_handler`. -/
def l515Handler (points : List CloudPoint) : Except PreprocessFault Preprocessor := do
  let plSurf ← s.thin s.notBelow
    (fun p => { x := p.x, y := p.y, z := p.z, normalX := .num p.r, normalY := .num p.g,
                normalZ := .num p.b })
    points
  return { s with plSurf := plSurf, plCorn := [] }

/-- The point of `oust64_handler`. -/
def oustPoint (p : CloudPoint) : PointXYZINormal :=
  { x := p.x, y := p.y, z := p.z, intensity := p.intensity, curvature := p.time / 1000000 }

/-- A turn of the loop of `oust64_handler` with features. -/
def oustFeaturePoint (plBuff : List (List PointXYZINormal)) (p : CloudPoint) :
    Except PreprocessFault (List (List PointXYZINormal)) :=
  if p.sqRange < s.blindSqr then .ok plBuff
  else if (p.ring : ℤ) < s.nScans then pushLine plBuff p.ring (oustPoint p)
  else .ok plBuff

/-- `Preprocess::oust64_handler`. -/
def oust64Handler (dista : ℕ → Extended ℚ) (points : List CloudPoint) :
    Except PreprocessFault Preprocessor := do
  let s := s.cleared
  if s.featureEnabled then
    let plBuff ← s.clearLines
    let plBuff ← points.foldlM s.oustFeaturePoint plBuff
    s.featureLines m (planeRange m) 0 dista plBuff
  else
    let plSurf ← s.thin s.notBelow oustPoint points
    return { s with plSurf := m.sort plSurf }

/-- A point with the time `c`. -/
def layerPoint (p : CloudPoint) (c : Extended ℚ) : PointXYZINormal :=
  { x := p.x, y := p.y, z := p.z, intensity := p.intensity, curvature := c }

/-- A turn of the loops of `velodyne_handler` and `xt32_handler` with features. -/
def layerFeaturePoint (st : LineTables × List (List PointXYZINormal)) (p : CloudPoint) :
    Except PreprocessFault (LineTables × List (List PointXYZINormal)) :=
  if s.nScans ≤ p.ring then .ok st
  else if s.givenOffsetTime then do
    let plBuff ← pushLine st.2 p.ring (layerPoint p (p.time / 1000))
    return (st.1, plBuff)
  else do
    let (tables, c) ← st.1.stampChecked m p
    match c with
    | none => return (tables, st.2)
    | some c =>
        let plBuff ← pushLine st.2 p.ring (layerPoint p c)
        return (tables, plBuff)

/-- A turn of the loop of `velodyne_handler` without features. -/
def velodynePoint (st : LineTables × List PointXYZINormal) (x : CloudPoint × ℕ) :
    Except PreprocessFault (LineTables × List PointXYZINormal) :=
  if s.givenOffsetTime then do
    let plSurf ← s.thinPoint s.beyond (fun p => layerPoint p (p.time / 1000)) st.2 x
    return (st.1, plSurf)
  else do
    let (tables, c) ← st.1.stampChecked m x.1
    match c with
    | none => return (tables, st.2)
    | some c =>
        let plSurf ← s.thinPoint s.beyond (fun p => layerPoint p c) st.2 x
        return (tables, plSurf)

/-- `Preprocess::velodyne_handler`; the yaws of the first and the last point of a layer, which
nothing reads, are left out. -/
def velodyneHandler (dista : ℕ → Extended ℚ) (points : List CloudPoint) :
    Except PreprocessFault Preprocessor :=
  let s := s.cleared
  if points.length = 0 then .ok s
  else do
    let last ← readAt (.outOfRange .plOrig) points (points.length - 1)
    let s := { s with givenOffsetTime := decide (0 < last.time) }
    if s.featureEnabled then
      let plBuff ← s.clearLines
      let st ← points.foldlM (s.layerFeaturePoint m) ({}, plBuff)
      s.featureLines m (planeRange m) 2 dista st.2
    else
      let st ← points.zipIdx.foldlM (s.velodynePoint m) ({}, [])
      return { s with plSurf := st.2 }

/-- `Preprocess::Pandar128_handler`. -/
def pandar128Handler (points : List CloudPoint) : Except PreprocessFault Preprocessor := do
  let first ← readAt (.outOfRange .plOrig) points 0
  let plSurf ← s.thin s.beyond
    (fun p => { layerPoint p ((p.time - first.time) * 1000) with intensity := p.intensity / 255 })
    points
  return { s with plSurf := m.sort plSurf }

/-- `Preprocess::xt32_handler`; of an empty cloud the last point is at `-1`. -/
def xt32Handler (dista : ℕ → Extended ℚ) (points : List CloudPoint) :
    Except PreprocessFault Preprocessor := do
  let last ← readAt (.outOfRange .plOrig) points (points.length - 1)
  let first ← readAt (.outOfRange .plOrig) points 0
  let s := { s.cleared with givenOffsetTime := decide (0 < last.time) }
  if s.featureEnabled then
    let plBuff ← s.clearLines
    let st ← points.foldlM (s.layerFeaturePoint m) ({}, plBuff)
    s.featureLines m (planeRange m) 2 dista st.2
  else
    let plSurf ← s.thin s.beyond (fun p => layerPoint p ((p.time - first.time) * 1000)) points
    return { s with plSurf := plSurf }

/-- `Preprocess::robosense_handler`. -/
def robosenseHandler (points : List CloudPoint) : Except PreprocessFault Preprocessor := do
  let first ← readAt (.outOfRange .plOrig) points 0
  let plSurf ← s.thin s.isValid (fun p => layerPoint p ((p.time - first.time) * 1000)) points
  return { s with plSurf := m.sort plSurf }

/-- `Preprocess::process`; what it puts out is `pl_surf`. -/
def process (dista : ℕ → Extended ℚ) : CloudMessage → Except PreprocessFault Preprocessor
  | .custom points => s.aviaHandler m dista points
  | .pointCloud2 points =>
      match lidType s.lidarType with
      | some .oust64 => s.oust64Handler m dista points
      | some .velo16 => s.velodyneHandler m dista points
      | some .l515 => s.l515Handler points
      | some .xt32 => s.xt32Handler m dista points
      | some .pandar128 => s.pandar128Handler m points
      | some .robosense => s.robosenseHandler m points
      | _ => .ok s

/-! ## With feature extraction off -/

variable {s m} {dista : ℕ → Extended ℚ}

lemma aviaHandler_of_off (hoff : s.featureEnabled = false) (points : List TaggedPoint) :
    s.aviaHandler m dista points =
      if 128 < s.nScans then .error (.outOfRange .plBuff)
      else if s.pointFilterNum = 0 ∧ ∃ p ∈ points, (p.line : ℤ) < s.nScans then
        .error .divisionByZero
      else .ok { s.cleared with
        plSurf := s.toPreprocess.aviaHandler (points.map TaggedPoint.toCustomPoint) } := by
  have hoff' : s.cleared.featureEnabled = false := hoff
  unfold aviaHandler clearLines
  dsimp only
  by_cases hscans : 128 < s.nScans
  · have hscans' : 128 < s.cleared.nScans := hscans
    rw [if_pos hscans, if_pos hscans']
    rfl
  · have hscans' : ¬128 < s.cleared.nScans := hscans
    rw [if_neg hscans, if_neg hscans', except_ok_bind, hoff', if_neg Bool.false_ne_true]
    rfl

lemma oust64Handler_of_off (hoff : s.featureEnabled = false) (points : List CloudPoint) :
    s.oust64Handler m dista points =
      s.thin s.notBelow oustPoint points >>= fun plSurf =>
        .ok { s.cleared with plSurf := m.sort plSurf } := by
  have hoff' : s.cleared.featureEnabled = false := hoff
  unfold oust64Handler
  dsimp only
  rw [hoff', if_neg Bool.false_ne_true]
  rfl

lemma velodyneHandler_of_off (hoff : s.featureEnabled = false) (points : List CloudPoint) :
    s.velodyneHandler m dista points =
      if points.length = 0 then .ok s.cleared
      else readAt (.outOfRange .plOrig) points (points.length - 1) >>= fun last =>
        let s := { s.cleared with givenOffsetTime := decide (0 < last.time) }
        points.zipIdx.foldlM (s.velodynePoint m) ({}, []) >>= fun st =>
          .ok { s with plSurf := st.2 } := by
  have hoff' : s.cleared.featureEnabled = false := hoff
  unfold velodyneHandler
  dsimp only
  simp only [hoff', Bool.false_eq_true, if_false]
  rfl

lemma xt32Handler_of_off (hoff : s.featureEnabled = false) (points : List CloudPoint) :
    s.xt32Handler m dista points =
      readAt (.outOfRange .plOrig) points (points.length - 1) >>= fun last =>
      readAt (.outOfRange .plOrig) points 0 >>= fun first =>
        s.thin s.beyond (fun p => layerPoint p ((p.time - first.time) * 1000)) points >>=
          fun plSurf => .ok { s.cleared with givenOffsetTime := decide (0 < last.time),
                                             plSurf := plSurf } := by
  have hoff' : s.cleared.featureEnabled = false := hoff
  unfold xt32Handler
  dsimp only
  simp only [hoff', Bool.false_eq_true, if_false]
  rfl

/-! ## With feature extraction on -/

end Preprocessor

end FastLivo2
