import FastLivo2.FrameSpan
import FastLivo2.LidarDataQueue

/-!
# The custom message

`Lddc` takes the frames of a lidar from its queue and publishes them.  In a `CustomMsg` the time of
a point is an offset of 32 bits to the time base, which is the base time of the frame: the time of
the point that arrived first.  An offset is a time only if the point is not before that one, nor
more than about four seconds behind it.
-/

namespace FastLivo2

variable {K : Type}

/-- `livox_ros_driver2::msg::CustomPoint`, the whole of it. -/
structure LivoxCustomPoint (K : Type) where
  offsetTime : UInt32
  x : K
  y : K
  z : K
  reflectivity : UInt8
  tag : UInt8
  line : UInt8

structure CustomMsg (K : Type) where
  frameId : String
  stamp : UInt64
  timebase : UInt64
  pointNum : UInt32
  lidarId : UInt8
  points : List (LivoxCustomPoint K)

/-- The fields of a `LidarDevice` that go into a message. -/
structure LidarDevice where
  lidarType : LidarProtoType
  handle : UInt32
  deriving DecidableEq, Repr

namespace Lddc

def initCustomMsg (frameId : String) (lidar : LidarDevice) (pkg : StoragePacket K) : CustomMsg K :=
  let timestamp := if pkg.points = [] then 0 else pkg.baseTime
  { frameId := frameId
    stamp := timestamp
    timebase := timestamp
    pointNum := pkg.pointsNum
    lidarId := if lidar.lidarType = .kLivoxLidarType then lidar.handle.toUInt8 else 0
    points := [] }

/-- The point of a message for one of the frame. -/
def customPoint (baseTime : UInt64) (p : PointXyzlt K) : LivoxCustomPoint K where
  offsetTime := (p.offsetTime - baseTime).toUInt32
  x := p.x
  y := p.y
  z := p.z
  reflectivity := p.intensity
  tag := p.tag
  line := p.line

def fillPointsToCustomMsg (msg : CustomMsg K) (pkg : StoragePacket K) : CustomMsg K :=
  { msg with
    points := msg.points ++
      (pkg.points.take pkg.pointsNum.toNat).map (customPoint pkg.baseTime) }

/-- The message that `PublishCustomPointcloud` publishes of a frame. -/
def customMsg (frameId : String) (lidar : LidarDevice) (pkg : StoragePacket K) : CustomMsg K :=
  fillPointsToCustomMsg (initCustomMsg frameId lidar pkg) pkg

/-- An offset reaches the time: it is not before the first of its frame, nor 2³² nanoseconds behind
it. -/
def InReach (first time : UInt64) : Prop :=
  first.toNat ≤ time.toNat ∧ time.toNat < first.toNat + 2 ^ 32

instance (first time : UInt64) : Decidable (InReach first time) :=
  inferInstanceAs (Decidable (_ ∧ _))

/-- Every point of the message has its time. -/
def TimesRight (msg : CustomMsg K) (points : List (PointXyzlt K)) : Prop :=
  List.Forall₂ (fun c p => msg.timebase.toNat + c.offsetTime.toNat = p.offsetTime.toNat)
    msg.points points

/-- An offset leads back to a time that it reaches. -/
lemma offset_iff (base time : UInt64) :
    base.toNat + (time - base).toUInt32.toNat = time.toNat ↔ InReach base time := by
  unfold InReach
  have hbase := base.toNat_lt
  have htime := time.toNat_lt
  rw [UInt64.toNat_toUInt32, UInt64.toNat_sub]
  omega

variable {frameId : String} {lidar : LidarDevice}

lemma timebase_customMsg {pkg : StoragePacket K} (hne : pkg.points ≠ []) :
    (customMsg frameId lidar pkg).timebase = pkg.baseTime := if_neg hne

/-- A frame as the queue hands it out, whose points are those it counts. -/
lemma timesRight_iff {pkg : StoragePacket K}
    (hwhole : pkg.points.take pkg.pointsNum.toNat = pkg.points) :
    TimesRight (customMsg frameId lidar pkg) pkg.points ↔
      ∀ p ∈ pkg.points, InReach pkg.baseTime p.offsetTime := by
  have hpoints : (customMsg frameId lidar pkg).points =
      pkg.points.map (customPoint pkg.baseTime) := by
    unfold customMsg fillPointsToCustomMsg
    rw [hwhole]
    rfl
  unfold TimesRight
  rw [hpoints, List.forall₂_map_left_iff, List.forall₂_same]
  refine forall₂_congr fun p hp => ?_
  rw [timebase_customMsg (List.ne_nil_of_mem hp)]
  exact offset_iff pkg.baseTime p.offsetTime

lemma take_stored (data : PointPacket K) (baseTime : UInt64) :
    (data.stored baseTime).points.take (data.stored baseTime).pointsNum.toNat =
      (data.stored baseTime).points :=
  List.take_take.trans (congrArg (List.take · _) (Nat.min_self _))

/-- The messages of a lidar have the times of their points. -/
def MessagesRight (frameId : String) (lidar : LidarDevice) (id : UInt32) (x : LivoxTurn K) : Prop :=
  ∀ frame ∈ x.obs, ∀ e ∈ frame, e.2.handle = id →
    TimesRight (customMsg frameId lidar (e.2.stored e.1)) (e.2.stored e.1).points

/-- From the packet on that opens it, each frame of a lidar that is published is cut before a packet
has a point that comes before the first of the frame, or 2³² nanoseconds behind it. -/
def CutInReach (id : UInt32) (tr : List (LivoxTurn K)) (t : PubHandler K) : Prop :=
  ∀ x later, (x :: later) <:+ tr → x.pre.times id = [] → x.pre.published id < t.published id →
    ∀ first ∈ (PubHandler.arrived id x).head?,
      ClosedIn (PubHandler.Cuts id) (PubHandler.arrived id) InReach first (x :: later)

variable [Field K]

/-- **The times of the messages.**  In a run the messages of a lidar have the times of their points
if each of its frames is cut in reach; and only then, as long as the number of their points is not
truncated.  With synchronisation and packets in order, a frame is cut in reach exactly when a packet
ends in the millisecond of a multiple of the interval, behind the first point of the frame by the
tolerance at least, and by less than 2³² nanoseconds. -/
theorem messagesRight_iff_cutInReach (T : Trigonometry K) (publishFreq : ℚ) (id : UInt32)
    {tr : List (LivoxTurn K)} {t : PubHandler K}
    (h : Exec (PubHandler.step T) (PubHandler.new publishFreq) tr t) (frameId : String)
    (lidar : LidarDevice) :
    (CutInReach id tr t → ∀ x ∈ tr, MessagesRight frameId lidar id x) ∧
    ((∀ x ∈ tr, ∀ frame ∈ x.obs, ∀ e ∈ frame, e.2.handle = id → e.2.points.length < 2 ^ 32) →
      (∀ x ∈ tr, MessagesRight frameId lidar id x) → CutInReach id tr t) ∧
    (PubHandler.Synchronised tr → PubHandler.InOrder id tr →
      (CutInReach id tr t ↔
        ∀ x later, (x :: later) <:+ tr → x.pre.times id = [] →
          x.pre.published id < t.published id → ∀ first ∈ (PubHandler.arrived id x).head?,
            ∃ y ∈ x :: later, ∃ last ∈ (PubHandler.arrived id y).getLast?,
              (PubHandler.new publishFreq : PubHandler K).InCut first (first.toNat + 2 ^ 32)
                last)) := by
  have hright := PubHandler.handedOut_right_iff id (fun _ => True) InReach h
  have hreach : CutInReach id tr t ↔ ∀ x ∈ tr, ∀ frame ∈ x.obs, ∀ e ∈ frame, e.2.handle = id →
      ∀ p ∈ e.2.points, InReach e.1 p.offsetTime := by
    unfold CutInReach
    simp only [forall_const] at hright
    rw [← hright]
    exact forall₂_congr fun x hx => PubHandler.rightIn_handedOut_iff (h.taken x hx)
  refine ⟨fun hcut x hx frame hframe e he hid => ?_, fun hshort hmessages => ?_,
    fun hsync hord => ?_⟩
  · refine (timesRight_iff (take_stored e.2 e.1)).mpr fun p hp => ?_
    exact hreach.mp hcut x hx frame hframe e he hid p (List.mem_of_mem_take hp)
  · refine hreach.mpr fun x hx frame hframe e he hid p hp => ?_
    have hnum := ((PubHandler.batches_of_taken id (h.taken x hx)).2 frame hframe e he hid).2
    have hwhole : e.2.points.take e.2.pointsNum.toNat = e.2.points := by
      rw [hnum, UInt32.toNat_ofNat_of_lt' (hshort x hx frame hframe e he hid), List.take_length]
    refine (timesRight_iff (take_stored e.2 e.1)).mp (hmessages x hx frame hframe e he hid) p ?_
    change p ∈ e.2.points.take e.2.pointsNum.toNat
    rwa [hwhole]
  · refine forall₂_congr fun x later => forall_congr' fun hsuffix => forall₂_congr fun _ _ =>
      forall₂_congr fun first hfirst => ?_
    exact PubHandler.closedIn_iff_inCut h hsync hord hsuffix hfirst fun b hb =>
      and_iff_right (UInt64.le_iff_toNat_le.mp hb)

/-- The three frames of `kept` are cut in reach, although packets are lost and the third begins
late. -/
theorem kept_timesRight :
    Exec (PubHandler.step PubHandler.noTrigonometry) (PubHandler.new 10)
        (trace (PubHandler.step PubHandler.noTrigonometry) PubHandler.kept (PubHandler.new 10)).1
        (trace (PubHandler.step PubHandler.noTrigonometry) PubHandler.kept (PubHandler.new 10)).2 ∧
      (trace (PubHandler.step PubHandler.noTrigonometry) PubHandler.kept
        (PubHandler.new 10)).2.published 7 = 3 ∧
      ∀ x ∈ (trace (PubHandler.step PubHandler.noTrigonometry) PubHandler.kept
        (PubHandler.new 10)).1, MessagesRight "livox_frame" ⟨.kLivoxLidarType, 7⟩ 7 x := by
  have hexec : Exec (PubHandler.step PubHandler.noTrigonometry) (PubHandler.new 10) _ _ :=
    Exec.of_trace PubHandler.kept (PubHandler.new 10)
  obtain ⟨hright, -, hcut⟩ := messagesRight_iff_cutInReach _ 10 7 hexec "livox_frame"
    ⟨.kLivoxLidarType, 7⟩
  refine ⟨hexec, by decide +kernel, hright ((hcut (PubHandler.synchronised_pointAt _ _)
    PubHandler.inOrder_kept).mpr ?_)⟩
  intro x later hsuffix hopen _ first hfirst
  obtain ⟨y, hy, last, hlast, hle, hmay, hreach⟩ :=
    PubHandler.cut_kept x later hsuffix hopen first hfirst
  exact ⟨y, hy, last, hlast, (PubHandler.inCut_iff hle).mpr ⟨hmay, by omega⟩⟩

/-- At 10 Hz, a frame whose second packet has been overtaken by the first. -/
def overtaken : List (LivoxEvent ℚ) := [200000000, 150000000, 300000000].map PubHandler.pointAt

/-- The time of its second point is lost. -/
theorem overtaken_not_timesRight :
    ∃ tr t, Exec (PubHandler.step PubHandler.noTrigonometry) (PubHandler.new 10) tr t ∧
      ¬∀ x ∈ tr, MessagesRight "livox_frame" ⟨.kLivoxLidarType, 7⟩ 7 x := by
  refine ⟨_, _, Exec.of_trace overtaken (PubHandler.new 10), fun h => ?_⟩
  let x := (trace (PubHandler.step PubHandler.noTrigonometry) overtaken (PubHandler.new 10)).1.get
    ⟨2, by decide +kernel⟩
  have hobs : (x.obs.map fun frame => frame.map fun e =>
      (e.1, e.2.handle, e.2.pointsNum, PubHandler.cloudTimes e)) =
        some [(200000000, 7, 3, [200000000, 150000000, 300000000])] := by
    decide +kernel
  obtain ⟨frame, hframe, hclouds⟩ := Option.map_eq_some_iff.mp hobs
  obtain ⟨e, rfl, he⟩ := List.map_eq_singleton_iff.mp hclouds
  obtain ⟨hbase, hhandle, hnum, htimes⟩ : e.1 = 200000000 ∧ e.2.handle = 7 ∧
      e.2.pointsNum = 3 ∧
      e.2.points.map PointXyzlt.offsetTime = [200000000, 150000000, 300000000] := by
    simpa [PubHandler.cloudTimes] using he
  have hright := h x (List.get_mem _ _) _ hframe e (List.mem_singleton_self e) hhandle
  rw [timesRight_iff (take_stored e.2 e.1)] at hright
  have hmem : (150000000 : UInt64) ∈ (e.2.stored e.1).points.map PointXyzlt.offsetTime := by
    unfold PointPacket.stored
    rw [List.map_take, htimes, hnum]
    decide
  obtain ⟨p, hp, htime⟩ := List.mem_map.mp hmem
  have hle := (hright p hp).1
  rw [htime, show (e.2.stored e.1).baseTime = 200000000 from hbase] at hle
  exact absurd hle (by decide)

end Lddc

end FastLivo2
