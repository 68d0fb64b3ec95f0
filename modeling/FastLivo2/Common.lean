import Mathlib

/-!
# Common data: time, points, measurements, filter state

The shared headers of the node: `utils/utils.h` (stamps), `utils/types.h` and `common_lib.h`
(points, measurement groups, filter state) and `utils/so3_math.h`.

Floating-point times and coordinates are exact rationals.  A message stamp is the number of
nanoseconds a `builtin_interfaces::msg::Time` holds; it is a natural number because
`rclcpp::Time` refuses negative seconds.  What the standard mathematical library computes
(`sin`, `cos`, `sqrt`) is a parameter, `Libm`.
-/

namespace FastLivo2

/-! ## Faults -/

/-- The ways a call can fail to return. -/
inductive Fault
  /-- `front()`, `back()` or `pop_front()` of an empty deque: undefined behaviour. -/
  | emptyDeque
  /-- `points.back()` of an empty cloud: undefined behaviour. -/
  | emptyCloud
  /-- The seconds do not fit `int32_t`, or are negative and `rclcpp::Time` throws. -/
  | timeRange
  deriving DecidableEq, Repr

/-- The fault of a call that did not return. -/
def faultOf {α : Type*} : Except Fault α → Option Fault
  | .error f => some f
  | .ok _ => none

/-- `deque::front()`. -/
def front {α : Type*} : List α → Except Fault α
  | [] => .error .emptyDeque
  | a :: _ => .ok a

/-- `deque::back()`. -/
def back {α : Type*} (l : List α) : Except Fault α :=
  match l.getLast? with
  | none => .error .emptyDeque
  | some a => .ok a

/-- `deque::pop_front()`. -/
def popFront {α : Type*} : List α → Except Fault (List α)
  | [] => .error .emptyDeque
  | _ :: l => .ok l

@[simp] lemma front_nil {α : Type*} : front ([] : List α) = .error .emptyDeque := rfl

@[simp] lemma front_cons {α : Type*} (a : α) (l : List α) : front (a :: l) = .ok a := rfl

@[simp] lemma popFront_nil {α : Type*} : popFront ([] : List α) = .error .emptyDeque := rfl

@[simp] lemma popFront_cons {α : Type*} (a : α) (l : List α) : popFront (a :: l) = .ok l := rfl

lemma front_eq_ok {α : Type*} {l : List α} {a : α} : front l = .ok a ↔ l.head? = some a := by
  cases l <;> simp

lemma popFront_eq_ok {α : Type*} {l l' : List α} (h : popFront l = .ok l') : l' = l.tail := by
  cases l with
  | nil => cases h
  | cons a l => exact (Except.ok.inj h).symm

lemma ne_nil_of_popFront {α : Type*} {l l' : List α} (h : popFront l = .ok l') : l ≠ [] := by
  rintro rfl
  cases h

lemma back_eq_ok {α : Type*} {l : List α} {a : α} : back l = .ok a ↔ l.getLast? = some a := by
  unfold back
  split <;> simp_all

/-- A sequence of calls returns when each of them does. -/
lemma bind_eq_ok {α β : Type} {x : Except Fault α} {f : α → Except Fault β} {b : β} :
    (x >>= f) = .ok b ↔ ∃ a, x = .ok a ∧ f a = .ok b := by
  cases x <;> simp [bind, Except.bind]

/-! ## Stamps -/

/-- A header stamp, in nanoseconds. -/
abbrev Stamp := ℕ

/-- `stamp2Sec`: the stamp in seconds. -/
def stamp2Sec (stamp : Stamp) : ℚ := stamp / 1000000000

/-- `sec2Stamp`: whole seconds and truncated nanoseconds. -/
def sec2Stamp (timestamp : ℚ) : Except Fault Stamp :=
  let sec := ⌊timestamp⌋
  let nanosec := ⌊(timestamp - sec) * 1000000000⌋
  if 0 ≤ sec ∧ sec < 2147483648 then .ok (sec.toNat * 1000000000 + nanosec.toNat)
  else .error .timeRange

lemma stamp2Sec_nonneg (n : Stamp) : 0 ≤ stamp2Sec n := by
  unfold stamp2Sec
  positivity

lemma stamp2Sec_le {m n : Stamp} : stamp2Sec m ≤ stamp2Sec n ↔ m ≤ n := by
  unfold stamp2Sec
  rw [div_le_div_iff_of_pos_right (by norm_num)]
  exact_mod_cast Iff.rfl

/-- Where `sec2Stamp` is defined it rounds down to whole nanoseconds. -/
lemma sec2Stamp_eq_ok {t : ℚ} {n : Stamp} (h : sec2Stamp t = .ok n) :
    (n : ℤ) = ⌊t * 1000000000⌋ := by
  simp only [sec2Stamp] at h
  split_ifs at h with hsec
  have hfrac : 0 ≤ (t - ⌊t⌋) * 1000000000 :=
    mul_nonneg (sub_nonneg.mpr (Int.floor_le t)) (by norm_num)
  have hnano : 0 ≤ ⌊(t - ⌊t⌋) * 1000000000⌋ := Int.floor_nonneg.mpr hfrac
  have hsplit : t * 1000000000 = (t - ⌊t⌋) * 1000000000 + ((⌊t⌋ * 1000000000 : ℤ) : ℚ) := by
    push_cast
    ring
  rw [hsplit, Int.floor_add_intCast]
  have hn : ⌊t⌋.toNat * 1000000000 + ⌊(t - ⌊t⌋) * 1000000000⌋.toNat = (n : ℕ) :=
    Except.ok.inj h
  omega

/-! ## Three-vectors, rotations and blocks -/

/-- Numerals name the coordinates of the plane. -/
instance neZeroTwo : NeZero 2 := ⟨by decide⟩

/-- Numerals name the coordinates of space. -/
instance neZeroThree : NeZero 3 := ⟨by decide⟩

abbrev V3D := Fin 3 → ℚ

abbrev M3D := Matrix (Fin 3) (Fin 3) ℚ

/-- The dimension of the filter state, with `SO(3)` counted as three. -/
abbrev dimState : ℕ := 19

abbrev MState := Matrix (Fin dimState) (Fin dimState) ℚ

/-- What the standard mathematical library computes. -/
structure Libm (K : Type := ℚ) where
  sin : K → K
  cos : K → K
  sqrt : K → K

def V3D.norm (m : Libm) (v : V3D) : ℚ := m.sqrt (v ⬝ᵥ v)

/-- `SKEW_SYM_MATRX`. -/
def skewSymMatrx {K : Type} [Field K] (v : Fin 3 → K) : Matrix (Fin 3) (Fin 3) K :=
  !![0, -v 2, v 1; v 2, 0, -v 0; -v 1, v 0, 0]

/-- `Exp(ang_vel, dt)`: the Rodrigues formula for a rotation at constant rate. -/
def Exp (m : Libm) (angVel : V3D) (dt : ℚ) : M3D :=
  let angVelNorm := V3D.norm m angVel
  if 1 / 10000000 < angVelNorm then
    let K := skewSymMatrx ((1 / angVelNorm) • angVel)
    let rAng := angVelNorm * dt
    1 + m.sin rAng • K + (1 - m.cos rAng) • (K * K)
  else 1

/-- `M.block<3, 3>(r, c) = B`. -/
def setBlock (M : MState) (r c : ℕ) (B : M3D) : MState := fun i j =>
  if h : (r ≤ i ∧ i.val - r < 3) ∧ (c ≤ j ∧ j.val - c < 3) then
    B ⟨i.val - r, h.1.2⟩ ⟨j.val - c, h.2.2⟩
  else M i j

/-! ## Points and clouds -/

/-- Where a buffered point comes from: the cloud that brought it, its place there and the time
it was taken.  Ghost data, written when a cloud enters the buffer and read by no function. -/
structure Provenance where
  scan : ℕ := 0
  index : ℕ := 0
  time : ℚ := 0
  deriving DecidableEq, Repr, Inhabited

/-- `PointType`, a `pcl::PointXYZINormal`; `curvature` is the time offset in milliseconds. -/
structure PointType where
  x : ℚ := 0
  y : ℚ := 0
  z : ℚ := 0
  intensity : ℚ := 0
  curvature : ℚ := 0
  normalX : ℚ := 0
  normalY : ℚ := 0
  normalZ : ℚ := 0
  prov : Provenance := {}
  deriving DecidableEq, Repr, Inhabited

abbrev PointCloudXYZI := List PointType

def PointType.position (p : PointType) : V3D := ![p.x, p.y, p.z]

/-- Store a position back into a point. -/
def PointType.moveTo (p : PointType) (v : V3D) : PointType :=
  { p with x := v 0, y := v 1, z := v 2 }

/-! ## Messages -/

/-- The lidar driver a scan comes through, each with its own callback. -/
inductive LidarDriver
  | standard
  | livox
  deriving DecidableEq, Repr

/-- A lidar message: its header stamp and what `p_pre->process` leaves of its points. -/
structure LidarMsg where
  stamp : Stamp
  points : PointCloudXYZI
  deriving DecidableEq, Repr

structure Imu where
  stamp : Stamp
  angularVelocity : V3D := 0
  linearAcceleration : V3D := 0
  deriving DecidableEq

/-- The time of an IMU message, in seconds. -/
def Imu.time (imu : Imu) : ℚ := stamp2Sec imu.stamp

/-- `cv::Mat`: a shape and its bytes. -/
structure Mat where
  rows : ℕ := 0
  cols : ℕ := 0
  data : List UInt8 := []
  deriving DecidableEq, Repr

structure Image where
  stamp : Stamp
  height : ℕ := 0
  width : ℕ := 0
  encoding : String := ""
  data : List UInt8 := []
  deriving DecidableEq, Repr

/-- `PointCloudXYZI::Ptr`: the cloud object allocated `addr`-th, its points, and (ghost data)
the driver and message it was made from. -/
structure CloudPtr where
  addr : ℕ
  points : PointCloudXYZI
  driver : LidarDriver := .standard
  msg : LidarMsg := ⟨0, []⟩
  deriving DecidableEq, Repr

/-! ## Measurement groups -/

inductive SlamMode
  | onlyLo
  | onlyLio
  | livo
  deriving DecidableEq, Repr

inductive EkfState
  | wait
  | vio
  | lio
  | lo
  deriving DecidableEq, Repr

/-- The measurements of one filter step. -/
structure MeasureGroup where
  vioTime : ℚ := 0
  lioTime : ℚ := 0
  imu : List Imu := []
  img : Mat := {}

/-- The measurement bundle `sync_packages` fills and the filter steps consume. -/
structure LidarMeasureGroup where
  lidarFrameBegTime : ℚ := 0
  lidarFrameEndTime : ℚ := 0
  lastLioUpdateTime : ℚ := -1
  lidar : CloudPtr := ⟨0, [], .standard, ⟨0, []⟩⟩
  pclProcCur : PointCloudXYZI := []
  pclProcNext : PointCloudXYZI := []
  measures : List MeasureGroup := []
  lioVioFlg : EkfState := .wait
  lidarScanIndexNow : ℤ := 0

/-- `meas.measures.back()`; the default group when there is none. -/
def LidarMeasureGroup.lastMeasure (meas : LidarMeasureGroup) : MeasureGroup :=
  meas.measures.getLast?.getD {}

/-! ## Filter state -/

/-- `StatesGroup`, with the covariance its constructor sets. -/
structure StatesGroup where
  rotEnd : M3D := 1
  posEnd : V3D := 0
  velEnd : V3D := 0
  invExpoTime : ℚ := 1
  biasG : V3D := 0
  biasA : V3D := 0
  gravity : V3D := 0
  cov : MState := Matrix.diagonal fun i =>
    if i.val = 6 ∨ 10 ≤ i.val then 1 / 100000 else 1 / 100

/-- A pose kept at an IMU sample, `offsetTime` after the start of the propagation. -/
structure Pose6D where
  offsetTime : ℚ
  acc : V3D
  gyr : V3D
  vel : V3D
  pos : V3D
  rot : M3D

end FastLivo2
