import FastLivo2.Common
import FastLivo2.Lib.Checked

/-!
# The points of the Livox driver

A lidar sends its points in packets.  The callback of the SDK checks in a packet as a `RawPacket`
(`onLivoxLidarPointCloudCallback`), and the thread of `PubHandler` has the `LidarPubHandler` of the
lidar turn its bytes into points, which it collects.  There is one decoder for each format of the
points: millimetres, centimetres, and a distance with two angles.  Each applies the extrinsic of the
lidar.

The coordinates are those of a field with a sine, a cosine and a number for `PI`; the sizes, the
times and the bytes are machine integers.
-/

namespace FastLivo2

/-- What the driver takes from `<cmath>`, and `PI`. -/
structure Trigonometry (K : Type) where
  sin : K → K
  cos : K → K
  pi : K

inductive DriverFault
  | divisionByZero
  | beyondRawData
  | tooManyLidars
  deriving DecidableEq, Repr

/-! ## Packets -/

/-- The header of a packet; `data` is what the memory holds from the field of that name on. -/
structure LivoxLidarEthernetPacket where
  length : UInt16
  /-- In units of 0.1 µs. -/
  timeInterval : UInt16
  dotNum : UInt16
  dataType : UInt8
  timeType : UInt8
  timestamp : UInt64
  data : ℕ → UInt8

/-- `sizeof(LivoxLidarEthernetPacket)`, with its fields packed and one byte of data. -/
def sizeofEthernetPacket : UInt64 := 37

inductive LidarProtoType
  | kIndustryLidarType
  | kVehicleLidarType
  | kDirectLidarType
  | kLivoxLidarType
  deriving DecidableEq, Repr

structure RawPacket where
  lidarType : LidarProtoType
  handle : UInt32
  extrinsicEnable : Bool
  pointNum : UInt32
  dataType : UInt8
  lineNum : UInt8
  timeStamp : UInt64
  pointInterval : UInt64
  rawData : List UInt8
  deriving DecidableEq, Repr

/-- `GetEthPacketTimestamp`, where the system clock reads `now`. -/
def getEthPacketTimestamp (timestampType : UInt8) (stamp now : UInt64) : UInt64 :=
  if timestampType = 1 ∨ timestampType = 2 then stamp else now

/-- The number of lines of a device. -/
def lineNumber (devType : UInt8) : UInt8 :=
  if devType = 10 then 6 else if devType = 9 then 4 else 1

/-- The length of the points in a packet, as it is computed. -/
def LivoxLidarEthernetPacket.payloadLength (data : LivoxLidarEthernetPacket) : UInt32 :=
  (UInt64.ofNat data.length.toNat - sizeofEthernetPacket + 1).toUInt32

/-- `OnLivoxLidarPointCloudCallback`, as far as the queue of raw packets is concerned; packets of
the IMU do not go there. -/
def onLivoxLidarPointCloudCallback (handle : UInt32) (devType : UInt8)
    (data : LivoxLidarEthernetPacket) (now : UInt64) : Except DriverFault (Option RawPacket) :=
  if data.dataType = 0 then .ok none
  else if data.dotNum = 0 then .error .divisionByZero
  else
    .ok (some
      { lidarType := .kLivoxLidarType
        handle := handle
        extrinsicEnable := false
        lineNum := lineNumber devType
        dataType := data.dataType
        pointNum := UInt32.ofNat data.dotNum.toNat
        pointInterval := UInt64.ofNat (data.timeInterval.toNat * 100 / data.dotNum.toNat)
        timeStamp := getEthPacketTimestamp data.timeType data.timestamp now
        rawData := (List.range data.payloadLength.toNat).map data.data })

/-! ## Raw points -/

/-- The number with the given bytes, the least significant first. -/
def leNat : List UInt8 → ℕ
  | [] => 0
  | b :: bytes => b.toNat + 256 * leNat bytes

/-- The field of `n` bytes at `offset`. -/
def rawField (bytes : List UInt8) (offset n : ℕ) : ℕ := leNat ((bytes.drop offset).take n)

def rawInt32 (bytes : List UInt8) (offset : ℕ) : Int32 :=
  (UInt32.ofNat (rawField bytes offset 4)).toInt32

def rawInt16 (bytes : List UInt8) (offset : ℕ) : Int16 :=
  (UInt16.ofNat (rawField bytes offset 2)).toInt16

/-- Millimetres. -/
structure LivoxLidarCartesianHighRawPoint where
  x : Int32
  y : Int32
  z : Int32
  reflectivity : UInt8
  tag : UInt8
  deriving DecidableEq, Repr

/-- Centimetres. -/
structure LivoxLidarCartesianLowRawPoint where
  x : Int16
  y : Int16
  z : Int16
  reflectivity : UInt8
  tag : UInt8
  deriving DecidableEq, Repr

/-- Millimetres and hundredths of a degree. -/
structure LivoxLidarSpherPoint where
  depth : UInt32
  theta : UInt16
  phi : UInt16
  reflectivity : UInt8
  tag : UInt8
  deriving DecidableEq, Repr

def LivoxLidarCartesianHighRawPoint.read (bytes : List UInt8) :
    LivoxLidarCartesianHighRawPoint where
  x := rawInt32 bytes 0
  y := rawInt32 bytes 4
  z := rawInt32 bytes 8
  reflectivity := UInt8.ofNat (rawField bytes 12 1)
  tag := UInt8.ofNat (rawField bytes 13 1)

def LivoxLidarCartesianLowRawPoint.read (bytes : List UInt8) : LivoxLidarCartesianLowRawPoint where
  x := rawInt16 bytes 0
  y := rawInt16 bytes 2
  z := rawInt16 bytes 4
  reflectivity := UInt8.ofNat (rawField bytes 6 1)
  tag := UInt8.ofNat (rawField bytes 7 1)

def LivoxLidarSpherPoint.read (bytes : List UInt8) : LivoxLidarSpherPoint where
  depth := UInt32.ofNat (rawField bytes 0 4)
  theta := UInt16.ofNat (rawField bytes 4 2)
  phi := UInt16.ofNat (rawField bytes 6 2)
  reflectivity := UInt8.ofNat (rawField bytes 8 1)
  tag := UInt8.ofNat (rawField bytes 9 1)

/-! ## The extrinsic of a lidar -/

variable {K : Type}

/-- Degrees and millimetres. -/
structure ExtParameter (K : Type) where
  roll : K
  pitch : K
  yaw : K
  x : Int32
  y : Int32
  z : Int32

structure ExtParameterDetailed (K : Type) where
  trans : Fin 3 → K
  rotation : Matrix (Fin 3) (Fin 3) K

structure PointXyzlt (K : Type) where
  x : K
  y : K
  z : K
  intensity : UInt8
  tag : UInt8
  line : UInt8
  offsetTime : UInt64
  deriving DecidableEq, Repr

structure LidarPubHandler (K : Type) where
  pointsClouds : List (PointXyzlt K)
  extrinsic : ExtParameterDetailed K
  isSetExtrinsicParams : Bool
  /-- The frames that its points have been taken for (ghost data). -/
  published : ℕ

variable [Field K]

namespace ExtParameter

def translation (param : ExtParameter K) : Fin 3 → K :=
  ![(param.x.toInt : K), (param.y.toInt : K), (param.z.toInt : K)]

/-- The rotation by three angles in degrees. -/
def rotation (T : Trigonometry K) (param : ExtParameter K) : Matrix (Fin 3) (Fin 3) K :=
  let cosRoll := T.cos (param.roll * T.pi / 180)
  let cosPitch := T.cos (param.pitch * T.pi / 180)
  let cosYaw := T.cos (param.yaw * T.pi / 180)
  let sinRoll := T.sin (param.roll * T.pi / 180)
  let sinPitch := T.sin (param.pitch * T.pi / 180)
  let sinYaw := T.sin (param.yaw * T.pi / 180)
  !![cosPitch * cosYaw, sinRoll * sinPitch * cosYaw - cosRoll * sinYaw,
      cosRoll * sinPitch * cosYaw + sinRoll * sinYaw;
    cosPitch * sinYaw, sinRoll * sinPitch * sinYaw + cosRoll * cosYaw,
      cosRoll * sinPitch * sinYaw - sinRoll * cosYaw;
    -sinPitch, sinRoll * cosPitch, cosRoll * cosPitch]

end ExtParameter

/-! ## Points in metres -/

def LivoxLidarCartesianHighRawPoint.metres (raw : LivoxLidarCartesianHighRawPoint) : Fin 3 → K :=
  fun k => (![(raw.x.toInt : K), (raw.y.toInt : K), (raw.z.toInt : K)] : Fin 3 → K) k / 1000

def LivoxLidarCartesianLowRawPoint.metres (raw : LivoxLidarCartesianLowRawPoint) : Fin 3 → K :=
  fun k => (![(raw.x.toInt : K), (raw.y.toInt : K), (raw.z.toInt : K)] : Fin 3 → K) k / 100

structure UserLivoxLidarConfig (K : Type) where
  pclDataType : Int8
  extrinsicParam : ExtParameter K

/-- The point of the vehicle for one of the lidar. -/
def UserLivoxLidarConfig.place (T : Trigonometry K) (config : UserLivoxLidarConfig K)
    (p : Fin 3 → K) : Fin 3 → K :=
  fun k => (config.extrinsicParam.rotation T).mulVec p k +
    config.extrinsicParam.translation k / 1000

namespace LidarPubHandler

/-- A handler before it has an extrinsic; the second row of its rotation is the source's. -/
def new : LidarPubHandler K where
  pointsClouds := []
  extrinsic := ⟨0, !![1, 0, 0; 0, 1, 1; 0, 0, 1]⟩
  isSetExtrinsicParams := false
  published := 0

variable (h : LidarPubHandler K)

def getLidarBaseTime : UInt64 :=
  match h.pointsClouds.head? with
  | none => 0
  | some p => p.offsetTime

def getRecentTimeStamp : UInt64 :=
  match h.pointsClouds.getLast? with
  | none => 0
  | some p => p.offsetTime

/-- `SetLidarsExtParam`: the first extrinsic stays. -/
def setLidarsExtParam (T : Trigonometry K) (param : ExtParameter K) : LidarPubHandler K :=
  if h.isSetExtrinsicParams then h
  else { h with
    extrinsic := ⟨param.translation, param.rotation T⟩
    isSetExtrinsicParams := true }

/-! ## The decoders -/

/-- The point `i` of a packet. -/
def decodePoint {R : Type} (size : ℕ) (read : List UInt8 → R) (coord : R → Fin 3 → K)
    (reflectivity tag : R → UInt8) (pkt : RawPacket) (i : ℕ) : PointXyzlt K :=
  let raw := read (pkt.rawData.drop (size * i))
  { x := coord raw 0, y := coord raw 1, z := coord raw 2
    intensity := reflectivity raw
    line := (UInt32.ofNat i % pkt.lineNum.toUInt32).toUInt8
    tag := tag raw
    offsetTime := pkt.timeStamp + UInt64.ofNat i * pkt.pointInterval }

/-- One turn of the loop over the points of a packet, which are `size` bytes each. -/
def pushPoint {R : Type} (size : ℕ) (read : List UInt8 → R) (coord : R → Fin 3 → K)
    (reflectivity tag : R → UInt8) (pkt : RawPacket) (i : ℕ) (points : List (PointXyzlt K)) :
    Except DriverFault (List (PointXyzlt K)) :=
  if pkt.rawData.length < size * (i + 1) then .error .beyondRawData
  else if pkt.lineNum = 0 then .error .divisionByZero
  else .ok (points ++ [decodePoint size read coord reflectivity tag pkt i])

/-- A decoder. -/
def processPoints {R : Type} (size : ℕ) (read : List UInt8 → R) (coord : R → Fin 3 → K)
    (reflectivity tag : R → UInt8) (pkt : RawPacket) :
    Except DriverFault (LidarPubHandler K) := do
  let points ← forLoop (pushPoint size read coord reflectivity tag pkt) 0 pkt.pointNum.toNat
    h.pointsClouds
  .ok { h with pointsClouds := points }

/-- The coordinates of a point in millimetres. -/
def highCoord (enable : Bool) (raw : LivoxLidarCartesianHighRawPoint) : Fin 3 → K :=
  let p : Fin 3 → K := ![(raw.x.toInt : K), (raw.y.toInt : K), (raw.z.toInt : K)]
  if enable then fun k => p k / 1000
  else fun k => (h.extrinsic.rotation.mulVec p k + h.extrinsic.trans k) / 1000

/-- The coordinates of a point in centimetres. -/
def lowCoord (enable : Bool) (raw : LivoxLidarCartesianLowRawPoint) : Fin 3 → K :=
  let p : Fin 3 → K := ![(raw.x.toInt : K), (raw.y.toInt : K), (raw.z.toInt : K)]
  if enable then fun k => p k / 100
  else fun k => (h.extrinsic.rotation.mulVec p k + h.extrinsic.trans k) / 100

/-- A point given by its distance and two angles, in metres. -/
def spherSource (T : Trigonometry K) (raw : LivoxLidarSpherPoint) : Fin 3 → K :=
  let radius : K := (raw.depth.toNat : K) / 1000
  let theta : K := (raw.theta.toNat : K) / 100 / 180 * T.pi
  let phi : K := (raw.phi.toNat : K) / 100 / 180 * T.pi
  ![radius * T.sin theta * T.cos phi, radius * T.sin theta * T.sin phi, radius * T.cos theta]

/-- The coordinates of a point given by its distance and two angles. -/
def spherCoord (T : Trigonometry K) (enable : Bool) (raw : LivoxLidarSpherPoint) : Fin 3 → K :=
  if enable then spherSource T raw
  else fun k => h.extrinsic.rotation.mulVec (spherSource T raw) k + h.extrinsic.trans k / 1000

/-- What a decoder divides the translation by. -/
def unit (dataType : UInt8) : K := if dataType = 2 then 100 else 1000

def processCartesianHighPoint (pkt : RawPacket) : Except DriverFault (LidarPubHandler K) :=
  h.processPoints 14 LivoxLidarCartesianHighRawPoint.read (h.highCoord pkt.extrinsicEnable)
    LivoxLidarCartesianHighRawPoint.reflectivity LivoxLidarCartesianHighRawPoint.tag pkt

def processCartesianLowPoint (pkt : RawPacket) : Except DriverFault (LidarPubHandler K) :=
  h.processPoints 8 LivoxLidarCartesianLowRawPoint.read (h.lowCoord pkt.extrinsicEnable)
    LivoxLidarCartesianLowRawPoint.reflectivity LivoxLidarCartesianLowRawPoint.tag pkt

def processSphericalPoint (T : Trigonometry K) (pkt : RawPacket) :
    Except DriverFault (LidarPubHandler K) :=
  h.processPoints 10 LivoxLidarSpherPoint.read (h.spherCoord T pkt.extrinsicEnable)
    LivoxLidarSpherPoint.reflectivity LivoxLidarSpherPoint.tag pkt

/-- Data of another type is reported and left alone. -/
def livoxLidarPointCloudProcess (T : Trigonometry K) (pkt : RawPacket) :
    Except DriverFault (LidarPubHandler K) :=
  if pkt.dataType = 1 then h.processCartesianHighPoint pkt
  else if pkt.dataType = 2 then h.processCartesianLowPoint pkt
  else if pkt.dataType = 3 then h.processSphericalPoint T pkt
  else .ok h

def pointCloudProcess (T : Trigonometry K) (pkt : RawPacket) :
    Except DriverFault (LidarPubHandler K) :=
  if pkt.lidarType = .kLivoxLidarType then h.livoxLidarPointCloudProcess T pkt else .ok h

/-! ## What a decoder does -/

/-- The size of the raw points of a type. -/
def pointSize (dataType : UInt8) : ℕ :=
  if dataType = 1 then 14 else if dataType = 2 then 8 else if dataType = 3 then 10 else 0

section Decoder

omit [Field K]

variable {R : Type} {size : ℕ} {read : List UInt8 → R} {coord : R → Fin 3 → K}
  {reflectivity tag : R → UInt8} {pkt : RawPacket}

lemma forLoop_pushPoint (hline : pkt.lineNum ≠ 0) :
    ∀ {n lo : ℕ} (points : List (PointXyzlt K)), size * (lo + n) ≤ pkt.rawData.length →
      forLoop (pushPoint size read coord reflectivity tag pkt) lo n points =
        .ok (points ++ (List.range' lo n).map (decodePoint size read coord reflectivity tag pkt))
  | 0, lo, points, _ => by simp [forLoop]
  | n + 1, lo, points, hfits => by
      have hturn : ¬pkt.rawData.length < size * (lo + 1) := by
        have := Nat.mul_le_mul_left size (show lo + 1 ≤ lo + (n + 1) by omega)
        omega
      rw [forLoop, pushPoint, if_neg hturn, if_neg hline, except_ok_bind,
        forLoop_pushPoint hline _ (by rwa [show lo + 1 + n = lo + (n + 1) by omega]),
        List.range'_succ, List.map_cons, List.append_assoc]
      rfl

/-- The loop returns if the points are there, and only then. -/
lemma fits_of_forLoop {points points' : List (PointXyzlt K)} :
    ∀ {n lo : ℕ}, forLoop (pushPoint size read coord reflectivity tag pkt) lo n points =
      .ok points' → n = 0 ∨ size * (lo + n) ≤ pkt.rawData.length ∧ pkt.lineNum ≠ 0
  | 0, _, _ => .inl rfl
  | n + 1, lo, h => by
      right
      rw [forLoop_succ] at h
      obtain ⟨points'', -, h⟩ := except_bind_eq_ok.mp h
      unfold pushPoint at h
      split_ifs at h with hshort hline
      exact ⟨not_lt.mp hshort, hline⟩

lemma processPoints_eq (hline : pkt.lineNum ≠ 0)
    (hfits : size * pkt.pointNum.toNat ≤ pkt.rawData.length) :
    h.processPoints size read coord reflectivity tag pkt =
      .ok { h with
        pointsClouds := h.pointsClouds ++
          (List.range pkt.pointNum.toNat).map
            (decodePoint size read coord reflectivity tag pkt) } := by
  unfold processPoints
  rw [forLoop_pushPoint hline _ (by rwa [Nat.zero_add]), ← List.range_eq_range']
  rfl

lemma processPoints_returns_iff (hline : pkt.lineNum ≠ 0) :
    (∃ h', h.processPoints size read coord reflectivity tag pkt = .ok h') ↔
      size * pkt.pointNum.toNat ≤ pkt.rawData.length := by
  constructor
  · rintro ⟨h', hok⟩
    obtain ⟨points, hloop, -⟩ := except_bind_eq_ok.mp hok
    obtain hnone | ⟨hfits, -⟩ := fits_of_forLoop hloop
    · rw [hnone]
      exact Nat.zero_le _
    · rwa [Nat.zero_add] at hfits
  · exact fun hfits => ⟨_, h.processPoints_eq hline hfits⟩

end Decoder

/-- A packet is decoded exactly when its points are all there. -/
lemma livoxLidarPointCloudProcess_returns_iff {T : Trigonometry K} (pkt : RawPacket)
    (hline : pkt.lineNum ≠ 0) :
    (∃ h', h.livoxLidarPointCloudProcess T pkt = .ok h') ↔
      pointSize pkt.dataType * pkt.pointNum.toNat ≤ pkt.rawData.length := by
  unfold livoxLidarPointCloudProcess pointSize
  split_ifs
  · exact h.processPoints_returns_iff hline
  · exact h.processPoints_returns_iff hline
  · exact h.processPoints_returns_iff hline
  · exact iff_of_true ⟨h, rfl⟩ (by rw [Nat.zero_mul]; exact Nat.zero_le _)

end LidarPubHandler

end FastLivo2
