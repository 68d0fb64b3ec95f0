import FastLivo2.LidarPubHandler
import FastLivo2.Lib.Exec

/-!
# The frames of the Livox driver

The thread of `PubHandler` takes the raw packets from their queue.  It has the handler of the lidar
decode each, and then looks whether a frame is due (`CheckTimer`).  When the lidars are synchronised
the frame of a lidar is cut by the time of its last point: it must fall in a millisecond that is a
multiple of the publish interval, and lie almost an interval after the first.  When they are not,
the points of all lidars are taken by the clock of the host.

A turn takes one packet, in the mode of synchronisation that holds when the timer is checked.
-/

namespace FastLivo2

variable {K : Type}

/-- A cloud of a frame; the source has a pointer to the points. -/
structure PointPacket (K : Type) where
  handle : UInt32
  pointsNum : UInt32
  points : List (PointXyzlt K)
  deriving DecidableEq

/-- A frame: the base times and the clouds, one for each lidar. -/
abbrev PointFrame (K : Type) := List (UInt64 × PointPacket K)

/-- `kMaxSourceLidar`, the size of the arrays of a frame. -/
def kMaxSourceLidar : ℕ := 32

/-- `kRatioOfMsToNs`. -/
def kRatioOfMsToNs : UInt64 := 1000000

structure PubHandler (K : Type) where
  publishInterval : UInt64
  publishIntervalTolerance : UInt64
  publishIntervalMs : UInt64
  /-- None before the clock is first read. -/
  lastPubTime : Option ℤ
  /-- The lidars that have a handler, in the order of the map. -/
  lidars : List UInt32
  lidarProcessHandlers : UInt32 → LidarPubHandler K
  lidarExtrinsics : UInt32 → Option (ExtParameter K)

inductive LivoxEvent (K : Type)
  /-- A packet is taken from the queue; `sync` and `now` are what `CheckTimer` reads. -/
  | rawData (pkt : RawPacket) (sync : Bool) (now : ℤ)
  | addLidarsExtParam (id : UInt32) (param : ExtParameter K)
  | clearAllLidarsExtrinsicParams

namespace PubHandler

/-- `SetPointCloudConfig` on a new handler. -/
def new [Field K] (publishFreq : ℚ) : PubHandler K :=
  let publishInterval := UInt64.ofNat ⌊1000000000 / (publishFreq * 10) * 10⌋₊
  { publishInterval := publishInterval
    publishIntervalTolerance := publishInterval - 1000000
    publishIntervalMs := publishInterval / kRatioOfMsToNs
    lastPubTime := none
    lidars := []
    lidarProcessHandlers := fun _ => .new
    lidarExtrinsics := fun _ => none }

variable (s : PubHandler K)

def setHandler (id : UInt32) (h : LidarPubHandler K) : PubHandler K :=
  { s with lidarProcessHandlers := Function.update s.lidarProcessHandlers id h }

@[simp] lemma setHandler_self (id : UInt32) (h : LidarPubHandler K) :
    (s.setHandler id h).lidarProcessHandlers id = h := Function.update_self ..

lemma setHandler_of_ne {id j : UInt32} (h : LidarPubHandler K) (hne : j ≠ id) :
    (s.setHandler id h).lidarProcessHandlers j = s.lidarProcessHandlers j :=
  Function.update_of_ne hne ..

/-- The cloud of a lidar, with its base time. -/
def cloud (id : UInt32) : UInt64 × PointPacket K :=
  let h := s.lidarProcessHandlers id
  (h.getLidarBaseTime, ⟨id, UInt32.ofNat h.pointsClouds.length, h.pointsClouds⟩)

/-- `GetLidarPointClouds`: the points are swapped for none. -/
def takeCloud (id : UInt32) : PubHandler K :=
  let h := s.lidarProcessHandlers id
  s.setHandler id { h with pointsClouds := [], published := h.published + 1 }

/-- The frame of a lidar is due, by its last point. -/
def Due (id : UInt32) : Prop :=
  let recent := (s.lidarProcessHandlers id).getRecentTimeStamp
  recent / kRatioOfMsToNs % s.publishIntervalMs = 0 ∧ recent / kRatioOfMsToNs ≠ 0 ∧
    s.publishIntervalTolerance ≤ recent - (s.lidarProcessHandlers id).getLidarBaseTime

instance (id : UInt32) : Decidable (s.Due id) := inferInstanceAs (Decidable (_ ∧ _ ∧ _))

/-- `CheckTimer` with time synchronisation. -/
def checkTimerSync (id : UInt32) : Except DriverFault (PubHandler K × Option (PointFrame K)) :=
  if s.publishIntervalMs = 0 then .error .divisionByZero
  else if s.Due id then
    if (s.lidarProcessHandlers id).pointsClouds = [] then .ok (s, none)
    else .ok (s.takeCloud id, some [s.cloud id])
  else .ok (s, none)

/-- A turn of the loop over the lidars: the base time is stored even where there are no points. -/
def gatherCloud (st : PubHandler K × PointFrame K) (id : UInt32) :
    Except DriverFault (PubHandler K × PointFrame K) :=
  if kMaxSourceLidar ≤ st.2.length then .error .tooManyLidars
  else if (st.1.lidarProcessHandlers id).pointsClouds = [] then .ok st
  else .ok (st.1.takeCloud id, st.2 ++ [st.1.cloud id])

/-- `CheckTimer` without time synchronisation. -/
def checkTimerHost (now : ℤ) : Except DriverFault (PubHandler K × Option (PointFrame K)) :=
  match s.lastPubTime with
  | none => .ok ({ s with lastPubTime := some now }, none)
  | some last =>
      if now - last < s.publishInterval.toNat then .ok (s, none)
      else do
        let s := { s with lastPubTime := some (last + s.publishInterval.toNat) }
        let (s, frame) ← s.lidars.foldlM gatherCloud (s, [])
        .ok (s, some frame)

def checkTimer (sync : Bool) (now : ℤ) (id : UInt32) :
    Except DriverFault (PubHandler K × Option (PointFrame K)) :=
  if sync then s.checkTimerSync id else s.checkTimerHost now

def getLidarId (pkt : RawPacket) : UInt32 :=
  if pkt.lidarType = .kLivoxLidarType then pkt.handle else 0

/-- The lidar has a handler from its first packet on. -/
def register (id : UInt32) : PubHandler K :=
  if id ∈ s.lidars then s else { s with lidars := s.lidars.orderedInsert (· ≤ ·) id }

variable [Field K]

/-- The handler of a lidar, which takes the extrinsic that is there. -/
def handlerOf (T : Trigonometry K) (id : UInt32) : LidarPubHandler K :=
  match s.lidarExtrinsics id with
  | none => s.lidarProcessHandlers id
  | some param => (s.lidarProcessHandlers id).setLidarsExtParam T param

/-- A turn of `RawDataProcess`. -/
def rawDataProcess (T : Trigonometry K) (pkt : RawPacket) (sync : Bool) (now : ℤ) :
    Except DriverFault (PubHandler K × Option (PointFrame K)) := do
  let id := getLidarId pkt
  let h ← (s.handlerOf T id).pointCloudProcess T pkt
  ((s.register id).setHandler id h).checkTimer sync now id

/-- One step; the observation is the frame published. -/
def step (T : Trigonometry K) (s : PubHandler K) :
    LivoxEvent K → Except DriverFault (PubHandler K × Option (PointFrame K))
  | .rawData pkt sync now => s.rawDataProcess T pkt sync now
  | .addLidarsExtParam id param =>
      .ok ({ s with lidarExtrinsics := Function.update s.lidarExtrinsics id (some param) }, none)
  | .clearAllLidarsExtrinsicParams => .ok ({ s with lidarExtrinsics := fun _ => none }, none)

end PubHandler

abbrev LivoxTurn (K : Type) := Turn (PubHandler K) (LivoxEvent K) (Option (PointFrame K))

end FastLivo2
