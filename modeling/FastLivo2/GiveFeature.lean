import FastLivo2.Lib.Checked
import FastLivo2.LivoxPreprocess

/-!
# The features of a line

With feature extraction on, the handlers of `preprocess.cpp` sort a cloud into lines and hand each
line, with an `orgtype` for each of its points, to `Preprocess::give_feature`.  It looks for planes
(`plane_judge`), edges (`edge_jump_judge`) and small surfaces, and puts out the points of surfaces
and of corners.

The indices of these functions are unsigned, and only some of the accesses are guarded.  Each
access to an array is checked here: one outside of it is a fault that names it.  Ranges, distances
and angles are computed from coordinates that may be infinite or not-a-number; the members of the
class that bound them are numbers.
-/

namespace FastLivo2

/-- What the standard library computes for `preprocess.cpp`. -/
structure CloudLibm where
  cos : ℚ → ℚ
  sqrt : Extended ℚ → Extended ℚ
  atan2 : Extended ℚ → Extended ℚ → Extended ℚ
  /-- `std::sort` by the curvature; of points with one time either can come first. -/
  sort : List PointXYZINormal → List PointXYZINormal
  sort_perm : ∀ l, (sort l).Perm l

/-- The arrays that are indexed: the points and their types, the distances of a group
(`disarr`), and the tables of the layers (`is_first`, `yaw_fp` and those beside them). -/
inductive CloudArray
  | plOrig
  | plBuff
  | typess
  | types
  | pl
  | disarr
  | lineTables
  deriving DecidableEq, Repr

/-- The ways a call of `Preprocess` can fail to return. -/
inductive PreprocessFault
  | outOfRange (a : CloudArray)
  /-- `% point_filter_num`. -/
  | divisionByZero
  | endless
  deriving DecidableEq, Repr

/-- An `Eigen::Vector3d` of what is computed from coordinates. -/
abbrev CloudV3D := Fin 3 → Extended ℚ

namespace CloudV3D

def dot (v w : CloudV3D) : Extended ℚ := v 0 * w 0 + v 1 * w 1 + v 2 * w 2

def sqNorm (v : CloudV3D) : Extended ℚ := Extended.sumSquares (v 0) (v 1) (v 2)

def norm (m : CloudLibm) (v : CloudV3D) : Extended ℚ := m.sqrt v.sqNorm

/-- `normalize`. -/
def normalize (m : CloudLibm) (v : CloudV3D) : CloudV3D :=
  if 0 < v.sqNorm then fun k => v k / v.norm m else v

/-- The vector from `p` to `q`. -/
def between (p q : PointXYZINormal) : CloudV3D := ![q.x - p.x, q.y - p.y, q.z - p.z]

end CloudV3D

def PointXYZINormal.position (p : PointXYZINormal) : CloudV3D := ![p.x, p.y, p.z]

inductive LiDARFeature
  | nor
  | possPlane
  | realPlane
  | edgeJump
  | edgePlane
  | wire
  | zeroPoint
  deriving DecidableEq, Repr

inductive Surround
  | prev
  | next
  deriving DecidableEq, Repr

inductive EJump
  | nor
  | zero
  | is180
  | inf
  | blind
  deriving DecidableEq, Repr

/-- `orgtype`; its constructor leaves `dista` and `angle` unset. -/
structure OrgType where
  range : Extended ℚ := 0
  dista : Extended ℚ
  angle : Surround → Extended ℚ := fun _ => 0
  intersect : Extended ℚ := 2
  edj : Surround → EJump := fun _ => .nor
  ftype : LiDARFeature := .nor

/-- `ftype >= Real_Plane`. -/
def LiDARFeature.settled : LiDARFeature → Bool
  | .nor => false
  | .possPlane => false
  | _ => true

/-- The members of `Preprocess` besides those of the time filter. -/
structure Preprocessor extends Preprocess where
  featureEnabled : Bool := false
  lidarType : ℤ := 1
  blind : ℚ := 1 / 100
  givenOffsetTime : Bool := false
  groupSize : ℤ := 8
  disA : ℚ := 1 / 10
  disB : ℚ
  infBound : ℚ := 10
  limitMaxmid : ℚ := 25 / 4
  limitMidmin : ℚ := 25 / 4
  limitMaxmin : ℚ := 81 / 25
  p2lRatio : ℚ := 225
  jumpUpLimit : ℚ
  jumpDownLimit : ℚ
  cos160 : ℚ
  edgea : ℚ := 2
  edgeb : ℚ := 1 / 10
  smallpIntersect : ℚ
  smallpRatio : ℚ := 6 / 5
  plSurf : List PointXYZINormal := []
  plCorn : List PointXYZINormal := []

inductive LidType
  | avia
  | velo16
  | oust64
  | l515
  | xt32
  | pandar128
  | robosense
  | mid360
  deriving DecidableEq, Repr

/-- `enum LID_TYPE`, by the number of the parameter. -/
def lidType : ℤ → Option LidType
  | 1 => some .avia
  | 2 => some .velo16
  | 3 => some .oust64
  | 4 => some .l515
  | 5 => some .xt32
  | 6 => some .pandar128
  | 7 => some .robosense
  | 9 => some .mid360
  | _ => none

inductive PlaneType
  | notPlane
  | plane
  | blind
  deriving DecidableEq, Repr

/-- What `plane_judge` returns and writes through its references. -/
structure PlaneVerdict where
  planeType : PlaneType
  iNex : ℕ
  currDirect : CloudV3D

/-- The variables of the loops of `plane_judge`; `v` are `vx`, `vy` and `vz`. -/
structure GroupLoop where
  blind : Bool := false
  iNex : ℕ
  disarr : List (Extended ℚ) := []
  v : CloudV3D := fun _ => 0
  twoDis : Extended ℚ := 0

/-- The variables of the first loop of `give_feature`. -/
structure SurfLoop where
  i : ℕ
  types : List OrgType
  lastState : Bool := false
  lastDirect : CloudV3D := fun _ => 0

/-- The variables of its last loop; `lastSurface` is none at `-1`. -/
structure SurfaceLoop where
  lastSurface : Option ℕ := none
  plSurf : List PointXYZINormal
  plCorn : List PointXYZINormal

namespace Preprocessor

variable (s : Preprocessor) (m : CloudLibm)

/-! ## Planes -/

/-- `k < i_cur + group_size`, where the sum is of 32 unsigned bits: a negative one is past every
index. -/
def InGroup (iCur k : ℕ) : Prop := (iCur : ℤ) + s.groupSize < 0 ∨ (k : ℤ) < iCur + s.groupSize

instance (iCur k : ℕ) : Decidable (s.InGroup iCur k) := inferInstanceAs (Decidable (_ ∨ _))

/-- How far the points of a group can be from a first one at this range, squared. -/
def groupDis (range : Extended ℚ) : Extended ℚ :=
  let d := s.disA * range + s.disB
  d * d

/-- The first loop of `plane_judge`; the list is `types` from `i_nex` on. -/
def firstGroup (iCur : ℕ) : List OrgType → ℕ → List (Extended ℚ) → Except PreprocessFault GroupLoop
  | [], iNex, disarr =>
      if s.InGroup iCur iNex then .error (.outOfRange .types)
      else .ok { iNex := iNex, disarr := disarr }
  | t :: types, iNex, disarr =>
      if s.InGroup iCur iNex then
        if t.range < s.blindSqr then .ok { blind := true, iNex := iNex, disarr := disarr }
        else firstGroup iCur types (iNex + 1) (disarr ++ [t.dista])
      else .ok { iNex := iNex, disarr := disarr }

/-- The second loop of `plane_judge`; `fuel` is `pl.size() - i_nex`. -/
def growGroup (pl : List PointXYZINormal) (types : List OrgType) (iCur : ℕ)
    (groupDis : Extended ℚ) : ℕ → GroupLoop → Except PreprocessFault GroupLoop
  | 0, g => .ok g
  | fuel + 1, g => do
      let t ← readAt (.outOfRange .types) types g.iNex
      if t.range < s.blindSqr then return { g with blind := true }
      else
        let q ← readAt (.outOfRange .pl) pl g.iNex
        let p ← readAt (.outOfRange .pl) pl iCur
        let v := CloudV3D.between p q
        let twoDis := v.sqNorm
        if groupDis ≤ twoDis then return { g with v := v, twoDis := twoDis }
        else
          growGroup pl types iCur groupDis fuel
            { g with iNex := g.iNex + 1, disarr := g.disarr ++ [t.dista], v := v, twoDis := twoDis }

/-- The square of the vector product `v1 × v`. -/
def width (v v1 : CloudV3D) : Extended ℚ :=
  Extended.sumSquares (v1 1 * v 2 - v 1 * v1 2) (v1 2 * v 0 - v1 0 * v 2) (v1 0 * v 1 - v 0 * v1 1)

/-- `leng_wid`, over the points between the first and the last of a group. -/
def lengWid (p : PointXYZINormal) (v : CloudV3D) (among : List PointXYZINormal) : Extended ℚ :=
  among.foldl (fun w q =>
    let lw := width v (CloudV3D.between p q)
    if w < lw then lw else w) 0

/-- A turn of the outer loop of the exchange sort: what is at its place, and what follows. -/
def exchange : Extended ℚ → List (Extended ℚ) → Extended ℚ × List (Extended ℚ)
  | d, [] => (d, [])
  | d, x :: l =>
      if d < x then ((exchange x l).1, d :: (exchange x l).2)
      else ((exchange d l).1, x :: (exchange d l).2)

/-- The exchange sort of `disarr`, of at most `n` entries. -/
def exchangeSort : ℕ → List (Extended ℚ) → List (Extended ℚ)
  | _, [] => []
  | 0, l => l
  | n + 1, d :: l => (exchange d l).1 :: exchangeSort n (exchange d l).2

/-- The tests of `plane_judge` on a group.  The sort of fewer than two distances reads past them, or
the test after it does. -/
def planeTest (twoDis lengWid : Extended ℚ) (disarr : List (Extended ℚ)) :
    Except PreprocessFault Bool :=
  if twoDis * twoDis / lengWid < s.p2lRatio then .ok false
  else if disarr.length < 2 then .error (.outOfRange .disarr)
  else do
    let sorted := exchangeSort disarr.length disarr
    let dmax ← readAt (.outOfRange .disarr) sorted 0
    let dmid ← readAt (.outOfRange .disarr) sorted (disarr.length / 2)
    let dmin ← readAt (.outOfRange .disarr) sorted (disarr.length - 2)
    if dmin < .num (1 / 10000000000000000) then return false
    else if lidType s.lidarType = some .avia then
      return !(decide (s.limitMaxmid ≤ dmax / dmid) || decide (s.limitMidmin ≤ dmid / dmin))
    else return !decide (s.limitMaxmin ≤ dmax / dmin)

/-- `Preprocess::plane_judge`. -/
def planeJudge (pl : List PointXYZINormal) (types : List OrgType) (iCur : ℕ) :
    Except PreprocessFault PlaneVerdict := do
  let t ← readAt (.outOfRange .types) types iCur
  let groupDis := s.groupDis t.range
  let first ← s.firstGroup iCur (types.drop iCur) iCur []
  if first.blind then return ⟨.blind, first.iNex, fun _ => 0⟩
  else
    let g ← s.growGroup pl types iCur groupDis (pl.length - first.iNex) first
    if g.blind then return ⟨.blind, g.iNex, fun _ => 0⟩
    else
      let p ← readAt (.outOfRange .pl) pl iCur
      let among := (pl.drop (iCur + 1)).take (g.iNex - (iCur + 1))
      if ← s.planeTest g.twoDis (lengWid p g.v among) g.disarr then
        return ⟨.plane, g.iNex, g.v.normalize m⟩
      else return ⟨.notPlane, g.iNex, fun _ => 0⟩

def setFtype (types : List OrgType) (i : ℕ) (f : LiDARFeature) :
    Except PreprocessFault (List OrgType) := do
  let t ← readAt (.outOfRange .types) types i
  writeAt (.outOfRange .types) types i { t with ftype := f }

/-- The points from `i` to `i_nex`, both included, are those of a plane. -/
def labelPlane (i iNex : ℕ) (types : List OrgType) : Except PreprocessFault (List OrgType) :=
  forLoop (fun j types => setFtype types j (if j ≠ i ∧ j ≠ iNex then .realPlane else .possPlane))
    i (iNex + 1 - i) types

/-- The first point of a plane next to another one lies on an edge if they are steep to each
other. -/
def markStart (l : SurfLoop) (currDirect : CloudV3D) (types : List OrgType) :
    Except PreprocessFault (List OrgType) :=
  let mod := l.lastDirect.dot currDirect
  if l.lastState ∧ .num (1 / 10) < l.lastDirect.norm m then
    setFtype types l.i
      (if .num (-707 / 1000) < mod ∧ mod < .num (707 / 1000) then .edgePlane else .realPlane)
  else .ok types

/-- A turn of the first loop of `give_feature`. -/
def surfStep (pl : List PointXYZINormal) (l : SurfLoop) : Except PreprocessFault SurfLoop := do
  let t ← readAt (.outOfRange .types) l.types l.i
  if t.range < s.blindSqr then return { l with i := l.i + 1 }
  else
    let r ← s.planeJudge m pl l.types l.i
    if r.planeType = .plane then
      let types ← labelPlane l.i r.iNex l.types
      let types ← markStart m l r.currDirect types
      return { i := r.iNex, types := types, lastState := true, lastDirect := r.currDirect }
    else return { l with i := r.iNex + 1, lastState := false, lastDirect := r.currDirect }

/-! ## Edges -/

/-- `Preprocess::edge_jump_judge`. -/
def edgeJumpJudge (types : List OrgType) (i : ℕ) (norDir : Surround) :
    Except PreprocessFault Bool := do
  let near ← readAt (.outOfRange .types) types (match norDir with | .prev => i - 1 | .next => i + 1)
  if near.range < s.blindSqr then return false
  else
    let far ← readAt (.outOfRange .types) types
      (match norDir with | .prev => i - 2 | .next => i + 2)
    if far.range < s.blindSqr then return false
    else
      let t1 ← readAt (.outOfRange .types) types (match norDir with | .prev => i - 1 | .next => i)
      let t2 ← readAt (.outOfRange .types) types
        (match norDir with | .prev => i - 2 | .next => i + 1)
      let d1 := m.sqrt (if t1.dista < t2.dista then t2.dista else t1.dista)
      let d2 := m.sqrt (if t1.dista < t2.dista then t1.dista else t2.dista)
      return !(decide (s.edgea * d2 < d1) || decide (s.edgeb < d1 - d2))

/-- A turn of the loop over the two sides: the types, and the entry of `vecs`. -/
def lookAside (pl : List PointXYZINormal) (i : ℕ) (types : List OrgType) (j : Surround) :
    Except PreprocessFault (List OrgType × CloudV3D) := do
  let k := match j with | .prev => i - 1 | .next => i + 1
  let t ← readAt (.outOfRange .types) types i
  let u ← readAt (.outOfRange .types) types k
  if u.range < s.blindSqr then
    let e : EJump := if s.infBound < t.range then .inf else .blind
    let types ← writeAt (.outOfRange .types) types i { t with edj := Function.update t.edj j e }
    return (types, fun _ => 0)
  else
    let p ← readAt (.outOfRange .pl) pl i
    let q ← readAt (.outOfRange .pl) pl k
    let vec := CloudV3D.between p q
    let angle := p.position.dot vec / p.position.norm m / vec.norm m
    let e : EJump :=
      if angle < s.jumpUpLimit then .is180
      else if s.jumpDownLimit < angle then .zero
      else t.edj j
    let types ← writeAt (.outOfRange .types) types i
      { t with angle := Function.update t.angle j angle, edj := Function.update t.edj j e }
    return (types, vec)

/-- The point at `i` is an edge where `edge_jump_judge` says so. -/
def judgeEdge (i : ℕ) (norDir : Surround) (types : List OrgType) :
    Except PreprocessFault (List OrgType) := do
  if ← s.edgeJumpJudge m types i norDir then setFtype types i .edgeJump else return types

/-- A turn of the second loop of `give_feature`. -/
def edgeStep (pl : List PointXYZINormal) (i : ℕ) (types : List OrgType) :
    Except PreprocessFault (List OrgType) := do
  let t ← readAt (.outOfRange .types) types i
  if t.range < s.blindSqr ∨ t.ftype.settled then return types
  else
    let before ← readAt (.outOfRange .types) types (i - 1)
    let small : Extended ℚ := .num (1 / 10000000000000000)
    if before.dista < small ∨ t.dista < small then return types
    else
      let (types, vecPrev) ← s.lookAside m pl i types .prev
      let (types, vecNext) ← s.lookAside m pl i types .next
      let intersect := vecPrev.dot vecNext / vecPrev.norm m / vecNext.norm m
      let t ← readAt (.outOfRange .types) types i
      let t := { t with intersect := intersect }
      let types ← writeAt (.outOfRange .types) types i t
      let ePrev := t.edj .prev
      let eNext := t.edj .next
      if ePrev = .nor ∧ eNext = .zero ∧ .num (225 / 10000) < t.dista ∧
          4 * before.dista < t.dista then
        if s.cos160 < intersect then s.judgeEdge m i .prev types else return types
      else if ePrev = .zero ∧ eNext = .nor ∧ .num (225 / 10000) < before.dista ∧
          4 * t.dista < before.dista then
        if s.cos160 < intersect then s.judgeEdge m i .next types else return types
      else if ePrev = .nor ∧ eNext = .inf then s.judgeEdge m i .prev types
      else if ePrev = .inf ∧ eNext = .nor then s.judgeEdge m i .next types
      else if ePrev ≠ .nor ∧ eNext ≠ .nor ∧ t.ftype = .nor then setFtype types i .wire
      else return types

/-! ## Small surfaces and what is put out -/

/-- A point of no feature yet becomes one of a plane. -/
def promote (types : List OrgType) (i : ℕ) : Except PreprocessFault (List OrgType) := do
  let t ← readAt (.outOfRange .types) types i
  if t.ftype = .nor then setFtype types i .realPlane else return types

/-- A turn of the third loop of `give_feature`. -/
def smallStep (i : ℕ) (types : List OrgType) : Except PreprocessFault (List OrgType) := do
  let t ← readAt (.outOfRange .types) types i
  let before ← readAt (.outOfRange .types) types (i - 1)
  let after ← readAt (.outOfRange .types) types (i + 1)
  if t.range < s.blindSqr ∨ before.range < s.blindSqr ∨ after.range < s.blindSqr then return types
  else if before.dista < .num (1 / 100000000) ∨ t.dista < .num (1 / 100000000) then return types
  else if t.ftype = .nor then
    let ratio := if t.dista < before.dista then before.dista / t.dista else t.dista / before.dista
    if t.intersect < s.smallpIntersect ∧ ratio < s.smallpRatio then
      let types ← promote types (i - 1)
      let types ← promote types (i + 1)
      setFtype types i .realPlane
    else return types
  else return types

/-- The mean of the points from `lastSurface` up to `j`. -/
def meanPoint (pl : List PointXYZINormal) (lastSurface j : ℕ) :
    Except PreprocessFault PointXYZINormal := do
  let ap ← forLoop (fun k (ap : PointXYZINormal) => do
    let p ← readAt (.outOfRange .pl) pl k
    return { ap with x := ap.x + p.x, y := ap.y + p.y, z := ap.z + p.z,
                     curvature := ap.curvature + p.curvature })
    lastSurface (j - lastSurface) {}
  let n : Extended ℚ := .num (j - lastSurface : ℕ)
  return { ap with x := ap.x / n, y := ap.y / n, z := ap.z / n, curvature := ap.curvature / n }

/-- An edge is put out as a corner. -/
def pushCorner (pl : List PointXYZINormal) (f : LiDARFeature) (j : ℕ)
    (plCorn : List PointXYZINormal) :
    Except PreprocessFault (List PointXYZINormal) :=
  if f = .edgeJump ∨ f = .edgePlane then do
    let p ← readAt (.outOfRange .pl) pl j
    return plCorn ++ [p]
  else .ok plCorn

/-- A turn of the last loop of `give_feature`. -/
def surfaceStep (pl : List PointXYZINormal) (types : List OrgType) (j : ℕ) (l : SurfaceLoop) :
    Except PreprocessFault SurfaceLoop := do
  let t ← readAt (.outOfRange .types) types j
  if t.ftype = .possPlane ∨ t.ftype = .realPlane then
    let lastSurface := l.lastSurface.getD j
    if j + 1 = lastSurface + s.pointFilterNum then
      let p ← readAt (.outOfRange .pl) pl j
      let ap : PointXYZINormal := { x := p.x, y := p.y, z := p.z, curvature := p.curvature }
      return { l with lastSurface := none, plSurf := l.plSurf ++ [ap] }
    else return { l with lastSurface := some lastSurface }
  else
    let plCorn ← pushCorner pl t.ftype j l.plCorn
    match l.lastSurface with
    | none => return { l with plCorn := plCorn }
    | some k =>
        let ap ← meanPoint pl k j
        return { lastSurface := none, plSurf := l.plSurf ++ [ap], plCorn := plCorn }

/-- `while (types[head].range < blind_sqr)`; the list is `types` from `head` on. -/
def findHead : List OrgType → ℕ → Except PreprocessFault ℕ
  | [], _ => .error (.outOfRange .types)
  | t :: types, head => if t.range < s.blindSqr then findHead types (head + 1) else .ok head

/-- `plsize2` of the first loop. -/
def groupsEnd (plsize : ℕ) : ℕ :=
  if s.groupSize < plsize then ((plsize : ℤ) - s.groupSize).toNat else 0

/-- `Preprocess::give_feature`. -/
def giveFeature (pl : List PointXYZINormal) (types : List OrgType) :
    Except PreprocessFault Preprocessor :=
  if pl.length = 0 then .ok s
  else do
    let head ← s.findHead types 0
    let surf ← whileLoop .endless (fun l => decide (l.i < s.groupsEnd pl.length))
      (s.surfStep m pl) (s.groupsEnd pl.length) { i := head, types := types }
    let types ← forLoop (s.edgeStep m pl) (head + 3) (pl.length - 3 - (head + 3)) surf.types
    let types ← forLoop s.smallStep (head + 1) (pl.length - 1 - (head + 1)) types
    let out ← forLoop (s.surfaceStep pl types) head (pl.length - head)
      { plSurf := s.plSurf, plCorn := s.plCorn }
    return { s with plSurf := out.plSurf, plCorn := out.plCorn }

end Preprocessor

end FastLivo2
