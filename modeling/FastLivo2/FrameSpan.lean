import FastLivo2.PubHandler
import FastLivo2.Lib.Batches

/-!
# The span of a frame

What `CheckTimer` hands out for a lidar are batches of its points: a packet brings points behind
those that are held, and a frame takes them all.  So a frame spans more than a publish interval only
if a packet arrives while the frame that is open has begun too long before, and then it does.

The timer looks at each packet, and closes a frame only in the milliseconds around a multiple of the
interval.  A packet that jumps over them finds the frame open, and is put into it.
-/

namespace FastLivo2

variable {K : Type}

/-! ## The points that a packet brings -/

/-- The times of the points of a packet. -/
def RawPacket.times (pkt : RawPacket) : List UInt64 :=
  (List.range pkt.pointNum.toNat).map fun i => pkt.timeStamp + UInt64.ofNat i * pkt.pointInterval

/-- The times of the points that a packet adds to those of its lidar. -/
def RawPacket.added (pkt : RawPacket) : List UInt64 :=
  if pkt.lidarType = .kLivoxLidarType ∧
      (pkt.dataType = 1 ∨ pkt.dataType = 2 ∨ pkt.dataType = 3) then
    pkt.times
  else []

namespace LidarPubHandler

def times (h : LidarPubHandler K) : List UInt64 := h.pointsClouds.map PointXyzlt.offsetTime

variable {h h' : LidarPubHandler K} {pkt : RawPacket}

lemma times_of_processPoints {R : Type} {size : ℕ} {read : List UInt8 → R} {coord : R → Fin 3 → K}
    {reflectivity tag : R → UInt8}
    (hok : h.processPoints size read coord reflectivity tag pkt = .ok h') :
    h'.times = h.times ++ pkt.times ∧ h'.published = h.published := by
  obtain ⟨points, hloop, hok⟩ := except_bind_eq_ok.mp hok
  cases hok
  refine ⟨?_, rfl⟩
  obtain hnone | ⟨hfits, hline⟩ := fits_of_forLoop hloop
  · rw [hnone] at hloop
    cases hloop
    unfold times RawPacket.times
    rw [hnone, List.range_zero, List.map_nil, List.append_nil]
  · rw [forLoop_pushPoint hline _ hfits] at hloop
    cases hloop
    unfold times RawPacket.times
    rw [List.map_append, List.map_map, List.range_eq_range']
    rfl

variable [Field K] {T : Trigonometry K}

/-- **Spec of `PointCloudProcess`**, as far as the times go. -/
lemma times_of_process (hok : h.pointCloudProcess T pkt = .ok h') :
    h'.times = h.times ++ pkt.added ∧ h'.published = h.published := by
  have hsame : h.times = h.times ++ [] ∧ h.published = h.published :=
    ⟨(List.append_nil _).symm, rfl⟩
  unfold pointCloudProcess livoxLidarPointCloudProcess at hok
  unfold RawPacket.added
  by_cases htype : pkt.lidarType = .kLivoxLidarType
  · rw [if_pos htype] at hok
    split_ifs at hok with hhigh hlow hspher
    · rw [if_pos ⟨htype, .inl hhigh⟩]
      exact times_of_processPoints hok
    · rw [if_pos ⟨htype, .inr (.inl hlow)⟩]
      exact times_of_processPoints hok
    · rw [if_pos ⟨htype, .inr (.inr hspher)⟩]
      exact times_of_processPoints hok
    · cases hok
      rw [if_neg (by rintro ⟨-, hc | hc | hc⟩ <;> contradiction)]
      exact hsame
  · rw [if_neg htype] at hok
    cases hok
    rw [if_neg fun hc => htype hc.1]
    exact hsame

omit [Field K] in
lemma pointsClouds_eq_nil : h.pointsClouds = [] ↔ h.times = [] :=
  List.map_eq_nil_iff.symm

omit [Field K] in
/-- The base time is that of the first point. -/
lemma head_times (hne : h.times ≠ []) : h.times.head? = some h.getLidarBaseTime := by
  obtain ⟨points, extrinsic, isSet, number⟩ := h
  cases points with
  | nil => exact absurd rfl hne
  | cons p points => rfl

omit [Field K] in
/-- The recent time is that of the last point. -/
lemma last_times (hne : h.times ≠ []) : h.times.getLast? = some h.getRecentTimeStamp := by
  unfold times getRecentTimeStamp
  rw [List.getLast?_map]
  cases hlast : h.pointsClouds.getLast? with
  | none => exact absurd (pointsClouds_eq_nil.mp (List.getLast?_eq_none_iff.mp hlast)) hne
  | some p => rfl

end LidarPubHandler

/-! ## The frames of a lidar -/

namespace PubHandler

variable (s : PubHandler K) (id : UInt32)

/-- The times of the points that are held for a lidar. -/
def times : List UInt64 := (s.lidarProcessHandlers id).times

/-- The number of the frame that is open for a lidar. -/
def published : ℕ := (s.lidarProcessHandlers id).published

/-- The clouds of a lidar in a frame. -/
def cloudsOf (frame : PointFrame K) : List (UInt64 × PointPacket K) :=
  frame.filter fun e => e.2.handle = id

/-- The times of the points of a cloud. -/
def cloudTimes (e : UInt64 × PointPacket K) : List UInt64 := e.2.points.map PointXyzlt.offsetTime

/-- The times that a turn brings for a lidar. -/
def arrived (x : LivoxTurn K) : List UInt64 :=
  match x.event with
  | .rawData pkt _ _ => if getLidarId pkt = id then pkt.added else []
  | _ => []

/-- The times of the points that a turn hands out for a lidar. -/
def handedOut (x : LivoxTurn K) : Option (List UInt64) :=
  (x.obs.bind fun frame => (cloudsOf id frame).head?).map cloudTimes

variable {s id} {t : PubHandler K}

/-- What the timer does for a lidar: nothing, or its points are taken for the frame. -/
def TakesFrom (id : UInt32) (s t : PubHandler K) (frame frame' : PointFrame K) : Prop :=
  (t.lidarProcessHandlers id = s.lidarProcessHandlers id ∧ cloudsOf id frame' = cloudsOf id frame) ∨
    (s.times id ≠ [] ∧ t.times id = [] ∧ t.published id = s.published id + 1 ∧
      cloudsOf id frame' = cloudsOf id frame ++ [s.cloud id])

lemma takesFrom_takeCloud {j : UInt32} (frame : PointFrame K)
    (hne : (s.lidarProcessHandlers j).pointsClouds ≠ []) :
    TakesFrom id s (s.takeCloud j) frame (frame ++ [s.cloud j]) := by
  unfold TakesFrom cloudsOf
  by_cases hid : j = id
  · subst hid
    right
    refine ⟨fun hc => hne (LidarPubHandler.pointsClouds_eq_nil.mpr hc), ?_, ?_, ?_⟩
    · unfold times takeCloud
      rw [setHandler_self]
      rfl
    · unfold published takeCloud
      rw [setHandler_self]
    · rw [List.filter_append, List.filter_cons_of_pos (by simp [cloud])]
      rfl
  · left
    constructor
    · exact s.setHandler_of_ne _ (Ne.symm hid)
    · have hother : cloudsOf id [s.cloud j] = [] :=
        List.filter_cons_of_neg fun hc => hid (of_decide_eq_true hc)
      rw [List.filter_append]
      exact (congrArg _ hother).trans (List.append_nil _)

lemma TakesFrom.trans {u : PubHandler K} {f f' f'' : PointFrame K} (h : TakesFrom id s t f f')
    (h' : TakesFrom id t u f' f'') : TakesFrom id s u f f'' := by
  obtain ⟨hsame, hf⟩ | ⟨hne, htimes, hnumber, hf⟩ := h
  · obtain ⟨hsame', hf'⟩ | ⟨hne', htimes', hnumber', hf'⟩ := h'
    · exact .inl ⟨hsame'.trans hsame, hf'.trans hf⟩
    · unfold TakesFrom times published cloud at *
      rw [hsame] at hne' hnumber' hf'
      rw [hf] at hf'
      exact .inr ⟨hne', htimes', hnumber', hf'⟩
  · obtain ⟨hsame', hf'⟩ | ⟨hne', -⟩ := h'
    · unfold TakesFrom times published at *
      rw [hsame', hf', hf]
      exact .inr ⟨hne, htimes, hnumber, rfl⟩
    · exact absurd htimes hne'

/-- The loop over the lidars. -/
lemma takesFrom_gather : ∀ {lidars : List UInt32} {s : PubHandler K} {frame : PointFrame K}
    {r : PubHandler K × PointFrame K}, lidars.foldlM gatherCloud (s, frame) = .ok r →
      TakesFrom id s r.1 frame r.2
  | [], _, _, _, h => by
      cases h
      exact .inl ⟨rfl, rfl⟩
  | j :: lidars, s, frame, r, h => by
      rw [List.foldlM_cons, gatherCloud] at h
      split_ifs at h with hmany hnone
      · cases h
      · exact takesFrom_gather h
      · exact (takesFrom_takeCloud frame hnone).trans (takesFrom_gather h)

lemma takesFrom_checkTimer {sync : Bool} {now : ℤ} {j : UInt32} {obs : Option (PointFrame K)}
    (h : s.checkTimer sync now j = .ok (t, obs)) : TakesFrom id s t [] (obs.getD []) := by
  have hsame : TakesFrom id s s [] [] := .inl ⟨rfl, rfl⟩
  unfold checkTimer at h
  split_ifs at h
  · unfold checkTimerSync at h
    split_ifs at h with hzero hdue hnone
    · cases h
      exact hsame
    · cases h
      exact takesFrom_takeCloud [] hnone
    · cases h
      exact hsame
  · unfold checkTimerHost at h
    split at h
    · cases h
      exact .inl ⟨rfl, rfl⟩
    · split_ifs at h
      · cases h
        exact hsame
      · obtain ⟨⟨u, frame⟩, hgather, h⟩ := except_bind_eq_ok.mp h
        cases h
        exact takesFrom_gather hgather

lemma lidarProcessHandlers_register {j : UInt32} :
    (s.register j).lidarProcessHandlers = s.lidarProcessHandlers := by
  unfold register
  split_ifs <;> rfl

/-! ## When the timer cuts -/

/-- The timer may cut a frame that begins with the time `first` when it has come to `last`: in a
millisecond that is a multiple of the interval, and almost an interval behind the first. -/
def MayCut (s : PubHandler K) (first last : UInt64) : Prop :=
  last / kRatioOfMsToNs % s.publishIntervalMs = 0 ∧ last / kRatioOfMsToNs ≠ 0 ∧
    s.publishIntervalTolerance ≤ last - first

instance (s : PubHandler K) (first last : UInt64) : Decidable (s.MayCut first last) :=
  inferInstanceAs (Decidable (_ ∧ _ ∧ _))

/-- A packet at which the timer cuts the frame of a lidar, if the times in it are then `l`.  With
synchronisation it is one of the lidar; without, the clock of the host decides for all of them. -/
def Cuts (id : UInt32) (l : List UInt64) (x : LivoxTurn K) : Prop :=
  match x.event with
  | .rawData pkt true _ =>
      getLidarId pkt = id ∧ ∃ first ∈ l.head?, ∃ last ∈ l.getLast?, x.pre.MayCut first last
  | .rawData _ false now =>
      ∃ last ∈ x.pre.lastPubTime, x.pre.publishInterval.toNat ≤ now - last
  | _ => False

/-- The settings are those of `s₀`, and the loop of the timer has every lidar with points. -/
structure Settled (s₀ s : PubHandler K) : Prop where
  publishInterval : s.publishInterval = s₀.publishInterval
  publishIntervalTolerance : s.publishIntervalTolerance = s₀.publishIntervalTolerance
  publishIntervalMs : s.publishIntervalMs = s₀.publishIntervalMs
  listed : ∀ id, s.times id ≠ [] → id ∈ s.lidars

/-- What the timer leaves alone. -/
def SameSettings (s t : PubHandler K) : Prop :=
  t.publishInterval = s.publishInterval ∧
    t.publishIntervalTolerance = s.publishIntervalTolerance ∧
    t.publishIntervalMs = s.publishIntervalMs ∧ t.lidars = s.lidars

lemma sameSettings_gather : ∀ {lidars : List UInt32} {s : PubHandler K} {frame : PointFrame K}
    {r : PubHandler K × PointFrame K}, lidars.foldlM gatherCloud (s, frame) = .ok r →
      SameSettings s r.1
  | [], _, _, _, h => by
      cases h
      exact ⟨rfl, rfl, rfl, rfl⟩
  | j :: lidars, s, frame, r, h => by
      rw [List.foldlM_cons, gatherCloud] at h
      split_ifs at h
      · cases h
      · exact sameSettings_gather h
      · exact sameSettings_gather (s := s.takeCloud j) h

lemma sameSettings_checkTimer {sync : Bool} {now : ℤ} {j : UInt32} {obs : Option (PointFrame K)}
    (h : s.checkTimer sync now j = .ok (t, obs)) : SameSettings s t := by
  unfold checkTimer at h
  split_ifs at h
  · unfold checkTimerSync at h
    split_ifs at h <;> cases h <;> exact ⟨rfl, rfl, rfl, rfl⟩
  · unfold checkTimerHost at h
    split at h
    · cases h
      exact ⟨rfl, rfl, rfl, rfl⟩
    · split_ifs at h
      · cases h
        exact ⟨rfl, rfl, rfl, rfl⟩
      · obtain ⟨⟨u, frame⟩, hgather, h⟩ := except_bind_eq_ok.mp h
        cases h
        exact sameSettings_gather hgather

/-- The loop takes the points of every lidar that it has. -/
lemma times_of_gather : ∀ {lidars : List UInt32} {s : PubHandler K} {frame : PointFrame K}
    {r : PubHandler K × PointFrame K}, lidars.foldlM gatherCloud (s, frame) = .ok r →
      ∀ id ∈ lidars, r.1.times id = []
  | [], _, _, _, _ => nofun
  | j :: lidars, s, frame, r, h => by
      have hstays : ∀ {s : PubHandler K} {frame : PointFrame K}, s.times j = [] →
          lidars.foldlM gatherCloud (s, frame) = .ok r → r.1.times j = [] := by
        intro s frame hnil h
        obtain ⟨hsame, -⟩ | ⟨hne, -⟩ := (takesFrom_gather h : TakesFrom j _ _ _ _)
        · unfold times
          rw [hsame]
          exact hnil
        · exact absurd hnil hne
      rw [List.foldlM_cons, gatherCloud] at h
      split_ifs at h with hmany hnone
      · cases h
      · refine List.forall_mem_cons.mpr ⟨?_, times_of_gather h⟩
        exact hstays (LidarPubHandler.pointsClouds_eq_nil.mp hnone) h
      · refine List.forall_mem_cons.mpr ⟨?_, times_of_gather h⟩
        refine hstays ?_ h
        unfold times takeCloud
        rw [setHandler_self]
        rfl

/-- **Spec of `CheckTimer`**: when it takes the points of a lidar. -/
lemma times_checkTimer_iff {sync : Bool} {now : ℤ} {j : UInt32} {obs : Option (PointFrame K)}
    (h : s.checkTimer sync now j = .ok (t, obs)) (hne : s.times id ≠ []) (hlisted : id ∈ s.lidars) :
    t.times id = [] ↔
      if sync then
        j = id ∧ ∃ first ∈ (s.times id).head?, ∃ last ∈ (s.times id).getLast?, s.MayCut first last
      else ∃ last ∈ s.lastPubTime, s.publishInterval.toNat ≤ now - last := by
  unfold checkTimer at h
  split_ifs at h with hsync
  · rw [if_pos hsync]
    have hdue : (∃ first ∈ (s.times id).head?, ∃ last ∈ (s.times id).getLast?,
        s.MayCut first last) ↔ s.Due id := by
      unfold times
      rw [LidarPubHandler.head_times hne, LidarPubHandler.last_times hne]
      constructor
      · rintro ⟨_, hf, _, hl, hcut⟩
        obtain rfl := Option.some.inj hf
        obtain rfl := Option.some.inj hl
        exact hcut
      · exact fun hdue => ⟨_, rfl, _, rfl, hdue⟩
    rw [hdue]
    unfold checkTimerSync at h
    split_ifs at h with hzero hdue' hnone
    · cases h
      refine iff_of_false hne fun ⟨hj, _⟩ => hne ?_
      subst hj
      exact LidarPubHandler.pointsClouds_eq_nil.mp hnone
    · cases h
      unfold times takeCloud
      by_cases hj : j = id
      · subst hj
        rw [setHandler_self]
        exact iff_of_true rfl ⟨rfl, hdue'⟩
      · rw [setHandler_of_ne _ _ (Ne.symm hj)]
        exact iff_of_false hne fun hc => hj hc.1
    · cases h
      exact iff_of_false hne fun hc => hdue' (hc.1 ▸ hc.2)
  · rw [if_neg hsync]
    unfold checkTimerHost at h
    split at h
    · rename_i hnever
      cases h
      rw [hnever]
      exact iff_of_false hne nofun
    · rename_i last hlast
      rw [hlast]
      have hclock : (∃ l ∈ some last, (s.publishInterval.toNat : ℤ) ≤ now - l) ↔
          s.publishInterval.toNat ≤ now - last :=
        ⟨fun ⟨_, hl, hle⟩ => Option.some.inj hl ▸ hle, fun hle => ⟨_, rfl, hle⟩⟩
      rw [hclock]
      split_ifs at h with hearly
      · cases h
        exact iff_of_false hne (not_le.mpr hearly)
      · obtain ⟨⟨u, frame⟩, hgather, h⟩ := except_bind_eq_ok.mp h
        cases h
        exact iff_of_true (times_of_gather hgather id hlisted) (not_lt.mp hearly)

lemma lidars_register {j : UInt32} : j ∈ (s.register j).lidars ∧
    ∀ i ∈ s.lidars, i ∈ (s.register j).lidars := by
  unfold register
  split_ifs with hj
  · exact ⟨hj, fun _ hi => hi⟩
  · exact ⟨(List.mem_orderedInsert ..).mpr (.inl rfl),
      fun i hi => (List.mem_orderedInsert ..).mpr (.inr hi)⟩

variable [Field K] {T : Trigonometry K}

lemma times_handlerOf : (s.handlerOf T id).times = s.times id ∧
    (s.handlerOf T id).published = s.published id := by
  unfold handlerOf
  split
  · exact ⟨rfl, rfl⟩
  · unfold LidarPubHandler.setLidarsExtParam
    split_ifs <;> exact ⟨rfl, rfl⟩

/-- **Spec of a turn.**  The timer is checked with the points of the packet added to those of its
lidar. -/
lemma checkTimer_of_rawDataProcess {pkt : RawPacket} {sync : Bool} {now : ℤ}
    {obs : Option (PointFrame K)} (h : s.rawDataProcess T pkt sync now = .ok (t, obs)) :
    ∃ u : PubHandler K, u.checkTimer sync now (getLidarId pkt) = .ok (t, obs) ∧
      (∀ id, u.times id = s.times id ++ (if getLidarId pkt = id then pkt.added else []) ∧
        u.published id = s.published id) ∧
      (u.publishInterval = s.publishInterval ∧
        u.publishIntervalTolerance = s.publishIntervalTolerance ∧
        u.publishIntervalMs = s.publishIntervalMs ∧ u.lastPubTime = s.lastPubTime) ∧
      u.lidars = (s.register (getLidarId pkt)).lidars := by
  obtain ⟨h', hok, hcheck⟩ := except_bind_eq_ok.mp h
  refine ⟨_, hcheck, fun id => ?_, ?_, rfl⟩
  · unfold times published
    obtain ⟨htimes, hnumber⟩ := LidarPubHandler.times_of_process hok
    by_cases hid : getLidarId pkt = id
    · subst hid
      rw [setHandler_self, if_pos rfl, htimes, hnumber, times_handlerOf.1, times_handlerOf.2]
      exact ⟨rfl, rfl⟩
    · rw [setHandler_of_ne _ _ (Ne.symm hid), lidarProcessHandlers_register, if_neg hid,
        List.append_nil]
      exact ⟨rfl, rfl⟩
  · unfold setHandler register
    split_ifs <;> exact ⟨rfl, rfl, rfl, rfl⟩

/-- A turn takes a packet, or it changes nothing but the extrinsics. -/
lemma packet_or_extrinsics {x : LivoxTurn K} (hx : x.Taken (step T)) :
    (∃ pkt sync now, x.event = .rawData pkt sync now ∧
        x.pre.rawDataProcess T pkt sync now = .ok (x.post, x.obs)) ∨
      (∃ extrinsics, x.post = { x.pre with lidarExtrinsics := extrinsics }) ∧ x.obs = none ∧
        ∀ id, arrived id x = [] ∧ ∀ l, ¬Cuts id l x := by
  have hstep : step T x.pre x.event = .ok (x.post, x.obs) := hx
  unfold arrived Cuts
  cases hevent : x.event with
  | rawData pkt sync now =>
      rw [hevent] at hstep
      exact .inl ⟨pkt, sync, now, rfl, hstep⟩
  | addLidarsExtParam j param =>
      rw [hevent] at hstep
      obtain ⟨hpost, hobs⟩ := Prod.mk.inj (Except.ok.inj hstep)
      exact .inr ⟨⟨_, hpost.symm⟩, hobs.symm, fun _ => ⟨rfl, fun _ => id⟩⟩
  | clearAllLidarsExtrinsicParams =>
      rw [hevent] at hstep
      obtain ⟨hpost, hobs⟩ := Prod.mk.inj (Except.ok.inj hstep)
      exact .inr ⟨⟨_, hpost.symm⟩, hobs.symm, fun _ => ⟨rfl, fun _ => id⟩⟩

/-- A turn collects the points of a lidar or hands them out, and in that case its frame has one
cloud of the lidar. -/
lemma batches_of_taken (id : UInt32) {x : LivoxTurn K} (hx : x.Taken (step T)) :
    Batches (times · id) (published · id) (arrived id) (handedOut id) x ∧
      ∀ frame ∈ x.obs, ∀ e ∈ frame, e.2.handle = id →
        (handedOut id x = some (cloudTimes e) ∧ (cloudTimes e).head? = some e.1) ∧
          e.2.pointsNum = UInt32.ofNat e.2.points.length := by
  obtain ⟨pkt, sync, now, hevent, hprocess⟩ | ⟨⟨extrinsics, hpost⟩, hobs, hquiet⟩ :=
    packet_or_extrinsics hx
  · obtain ⟨u, hcheck, hadded, -⟩ := checkTimer_of_rawDataProcess hprocess
    obtain ⟨htimes, hnumber⟩ := hadded id
    have htakes : TakesFrom id u x.post [] (x.obs.getD []) := takesFrom_checkTimer hcheck
    unfold Batches arrived handedOut
    rw [hevent]
    dsimp only
    obtain ⟨hsame, hf⟩ | ⟨hne, hempty, hnext, hf⟩ := htakes
    · have hnone : ∀ frame, x.obs = some frame → cloudsOf id frame = [] := fun frame hobs => by
        rw [hobs] at hf
        exact hf
      have hpost : x.post.times id = u.times id ∧ x.post.published id = u.published id := by
        unfold times published
        rw [hsame]
        exact ⟨rfl, rfl⟩
      refine ⟨.inl ⟨?_, hpost.1.trans htimes, hpost.2.trans hnumber⟩,
        fun frame hobs e he hid => ?_⟩
      · cases hobs : x.obs with
        | none => rfl
        | some frame =>
            rw [Option.bind_some, hnone frame hobs]
            rfl
      · have hmem : e ∈ cloudsOf id frame := List.mem_filter.mpr ⟨he, decide_eq_true hid⟩
        rw [hnone frame hobs] at hmem
        cases hmem
    · cases hobs : x.obs with
      | none =>
          rw [hobs] at hf
          cases hf
      | some frame =>
          rw [hobs] at hf
          have hone : cloudsOf id frame = [u.cloud id] := hf
          rw [Option.bind_some, hone]
          refine ⟨.inr ⟨congrArg some htimes, hempty, hnext.trans (congrArg _ hnumber)⟩,
            fun frame' hframe e he hid => ?_⟩
          obtain rfl := Option.some.inj hframe
          have hmem : e ∈ cloudsOf id frame := List.mem_filter.mpr ⟨he, decide_eq_true hid⟩
          rw [hone] at hmem
          obtain rfl := List.mem_singleton.mp hmem
          exact ⟨⟨rfl, LidarPubHandler.head_times hne⟩, rfl⟩
  · unfold Batches handedOut
    rw [hpost, hobs, (hquiet id).1]
    exact ⟨.inl ⟨rfl, (List.append_nil _).symm, rfl⟩, nofun⟩

omit [Field K] in
lemma mem_handedOut {x : LivoxTurn K} {l : List UInt64} (hl : l ∈ handedOut id x) :
    ∃ frame ∈ x.obs, ∃ e ∈ frame, e.2.handle = id ∧ cloudTimes e = l := by
  obtain ⟨e, he, hle⟩ := Option.map_eq_some_iff.mp hl
  obtain ⟨frame, hobs, hhead⟩ := Option.bind_eq_some_iff.mp he
  obtain ⟨hmem, hid⟩ := List.mem_filter.mp (List.mem_of_head? hhead)
  exact ⟨frame, hobs, e, hmem, of_decide_eq_true hid, hle⟩

/-- What holds of the points handed out for a lidar, against the first of them, holds of the points
of its clouds, against their base time. -/
lemma rightIn_handedOut_iff {x : LivoxTurn K} (hx : x.Taken (step T))
    {Q : UInt64 → UInt64 → Prop} :
    (∀ l ∈ handedOut id x, RightIn Q l) ↔
      ∀ frame ∈ x.obs, ∀ e ∈ frame, e.2.handle = id → ∀ p ∈ e.2.points, Q e.1 p.offsetTime := by
  have hclouds := (batches_of_taken id hx).2
  constructor
  · intro h frame hobs e he hid p hp
    obtain ⟨⟨hout, hhead⟩, -⟩ := hclouds frame hobs e he hid
    exact h _ hout _ hhead _ (List.mem_map_of_mem hp)
  · intro h l hl a ha b hb
    obtain ⟨frame, hobs, e, he, hid, rfl⟩ := mem_handedOut hl
    obtain ⟨⟨-, hhead⟩, -⟩ := hclouds frame hobs e he hid
    obtain rfl := Option.some.inj (hhead.symm.trans ha)
    obtain ⟨p, hp, rfl⟩ := List.mem_map.mp hb
    exact h frame hobs e he hid p hp

/-! ## The turns of a run -/

lemma settled_new (publishFreq : ℚ) :
    Settled (new publishFreq : PubHandler K) (new publishFreq) :=
  ⟨rfl, rfl, rfl, fun _ hne => absurd rfl hne⟩

/-- **Step lemma.** -/
lemma settled_of_taken {s₀ : PubHandler K} {x : LivoxTurn K} (hx : x.Taken (step T))
    (hs : Settled s₀ x.pre) : Settled s₀ x.post := by
  obtain ⟨pkt, sync, now, -, hprocess⟩ | ⟨⟨extrinsics, hpost⟩, -⟩ := packet_or_extrinsics hx
  · obtain ⟨u, hcheck, hadded, ⟨hi, ht, hm, -⟩, hl⟩ := checkTimer_of_rawDataProcess hprocess
    obtain ⟨hi', ht', hm', hl'⟩ := sameSettings_checkTimer hcheck
    refine ⟨(hi'.trans hi).trans hs.publishInterval,
      (ht'.trans ht).trans hs.publishIntervalTolerance,
      (hm'.trans hm).trans hs.publishIntervalMs, fun id hne => ?_⟩
    rw [hl', hl]
    obtain ⟨hregistered, hothers⟩ := lidars_register (s := x.pre) (j := getLidarId pkt)
    by_cases hid : getLidarId pkt = id
    · exact hid ▸ hregistered
    · refine hothers id (hs.listed id fun hnil => hne ?_)
      have hu : u.times id = [] := by
        rw [(hadded id).1, hnil, if_neg hid, List.append_nil]
      obtain ⟨hsame, -⟩ | ⟨-, hempty, -⟩ : TakesFrom id u x.post [] (x.obs.getD []) :=
        takesFrom_checkTimer hcheck
      · unfold times
        rw [hsame]
        exact hu
      · exact hempty
  · rw [hpost]
    exact ⟨hs.publishInterval, hs.publishIntervalTolerance, hs.publishIntervalMs, hs.listed⟩

lemma settled_of_exec {publishFreq : ℚ} {tr : List (LivoxTurn K)}
    (h : Exec (step T) (new publishFreq) tr t) :
    ∀ x ∈ tr, Settled (new publishFreq) x.pre := fun x hx =>
  ((h.invariant (C := fun _ => True) (settled_new publishFreq)
    (fun _ hx _ hs => settled_of_taken hx hs) fun _ _ => trivial).2 x hx).1

/-- A frame is handed out exactly when the timer cuts it. -/
lemma handedOut_iff_cuts {s₀ : PubHandler K} {x : LivoxTurn K} (hx : x.Taken (step T))
    (hs : Settled s₀ x.pre) (hne : x.pre.times id ++ arrived id x ≠ []) :
    handedOut id x ≠ none ↔ Cuts id (x.pre.times id ++ arrived id x) x := by
  have hout : handedOut id x ≠ none ↔ x.post.times id = [] := by
    obtain ⟨hnone, hheld, -⟩ | ⟨hsome, hheld, -⟩ := (batches_of_taken id hx).1
    · exact iff_of_false (fun hc => hc hnone) fun hc => hne (hheld.symm.trans hc)
    · exact iff_of_true (hsome ▸ Option.some_ne_none _) hheld
  rw [hout]
  obtain ⟨pkt, sync, now, hevent, hprocess⟩ | ⟨⟨extrinsics, hpost⟩, -, hquiet⟩ :=
    packet_or_extrinsics hx
  · obtain ⟨u, hcheck, hadded, ⟨hi, ht, hm, hclock⟩, hl⟩ := checkTimer_of_rawDataProcess hprocess
    have htimes : u.times id = x.pre.times id ++ arrived id x := by
      rw [(hadded id).1]
      unfold arrived
      rw [hevent]
    have hlisted : id ∈ u.lidars := by
      rw [hl]
      obtain ⟨hregistered, hothers⟩ := lidars_register (s := x.pre) (j := getLidarId pkt)
      by_cases hid : getLidarId pkt = id
      · exact hid ▸ hregistered
      · refine hothers id (hs.listed id fun hnil => hne ?_)
        rw [← htimes, (hadded id).1, hnil, if_neg hid, List.append_nil]
    rw [times_checkTimer_iff hcheck (htimes ▸ hne) hlisted, htimes, hi, hclock]
    unfold Cuts MayCut
    rw [hevent, ht, hm]
    cases sync with
    | true => exact iff_of_eq (if_pos rfl)
    | false => exact iff_of_eq (if_neg Bool.false_ne_true)
  · rw [(hquiet id).1, List.append_nil] at hne
    refine iff_of_false ?_ ((hquiet id).2 _)
    rw [hpost]
    exact hne

/-- **The frames of a lidar.**  Their points are right by the first of them exactly when from the
packet that opens each, one comes at which the timer cuts, before a point comes that is not. -/
lemma handedOut_right_iff {publishFreq : ℚ} {tr : List (LivoxTurn K)} (id : UInt32)
    (N : ℕ → Prop) (P : UInt64 → UInt64 → Prop) (h : Exec (step T) (new publishFreq) tr t) :
    (∀ x ∈ tr, N (x.pre.published id) → ∀ l ∈ handedOut id x, RightIn P l) ↔
      ∀ x later, (x :: later) <:+ tr → x.pre.times id = [] →
        x.pre.published id < t.published id → N (x.pre.published id) →
          ∀ a ∈ (arrived id x).head?, ClosedIn (Cuts id) (arrived id) P a (x :: later) := by
  have hlaw : ∀ x ∈ tr, Batches (times · id) (published · id) (arrived id) (handedOut id) x :=
    fun x hx => (batches_of_taken id (h.taken x hx)).1
  exact closedIn_iff rfl h hlaw fun x hx hne =>
    handedOut_iff_cuts (h.taken x hx) (settled_of_exec h x hx) hne

/-! ## Packets in order -/

/-- The timer is checked with time synchronisation. -/
def Synchronised (tr : List (LivoxTurn K)) : Prop :=
  ∀ x ∈ tr, ∀ pkt sync now, x.event = .rawData pkt sync now → sync = true

/-- The packets of a lidar arrive in order, each behind the one before. -/
def InOrder (id : UInt32) (tr : List (LivoxTurn K)) : Prop :=
  (tr.flatMap (arrived id)).Pairwise (· ≤ ·)

/-- The times at which a frame is cut that begins with `first`, before `bound`: in a millisecond
that is a multiple of the interval, and almost an interval behind the first.  There are none in a
millisecond that ends before that, or comes after the bound. -/
def InCut (s : PubHandler K) (first : UInt64) (bound : ℕ) (last : UInt64) : Prop :=
  ∃ k : ℕ, 0 < k * s.publishIntervalMs.toNat ∧
    max (k * s.publishIntervalMs.toNat * 1000000)
      (first.toNat + s.publishIntervalTolerance.toNat) ≤ last.toNat ∧
    last.toNat < min ((k * s.publishIntervalMs.toNat + 1) * 1000000) bound

omit [Field K] in
lemma inCut_iff {s : PubHandler K} {first last : UInt64} {bound : ℕ} (hle : first ≤ last) :
    s.InCut first bound last ↔ s.MayCut first last ∧ last.toNat < bound := by
  have hle' := UInt64.le_iff_toNat_le.mp hle
  have hms : (last / kRatioOfMsToNs).toNat = last.toNat / 1000000 := UInt64.toNat_div ..
  have hgap : s.publishIntervalTolerance ≤ last - first ↔
      first.toNat + s.publishIntervalTolerance.toNat ≤ last.toNat := by
    rw [UInt64.le_iff_toNat_le, UInt64.toNat_sub_of_le _ _ hle]
    omega
  have hmultiple : last / kRatioOfMsToNs % s.publishIntervalMs = 0 ↔
      s.publishIntervalMs.toNat ∣ last.toNat / 1000000 := by
    rw [← UInt64.toNat_inj, UInt64.toNat_mod, hms]
    exact Nat.dvd_iff_mod_eq_zero.symm
  have hzero : last / kRatioOfMsToNs ≠ 0 ↔ 0 < last.toNat / 1000000 := by
    rw [Ne, ← UInt64.toNat_inj, hms]
    exact Nat.pos_iff_ne_zero.symm
  unfold InCut MayCut
  rw [hmultiple, hzero, hgap]
  simp only [max_le_iff, lt_min_iff]
  constructor
  · rintro ⟨k, hk, ⟨hlow, htol⟩, hhigh, hbound⟩
    have hlast : last.toNat / 1000000 = k * s.publishIntervalMs.toNat := by omega
    exact ⟨⟨hlast ▸ Nat.dvd_mul_left .., hlast ▸ hk, htol⟩, hbound⟩
  · rintro ⟨⟨⟨k, hk⟩, hpos, htol⟩, hbound⟩
    rw [Nat.mul_comm] at hk
    exact ⟨k, hk ▸ hpos, ⟨by omega, htol⟩, by omega, hbound⟩

omit [Field K] in
lemma event_of_arrived {x : LivoxTurn K} (hne : arrived id x ≠ []) :
    ∃ pkt sync now, x.event = .rawData pkt sync now ∧ getLidarId pkt = id := by
  unfold arrived at hne
  split at hne
  · rename_i pkt sync now hevent
    by_cases hid : getLidarId pkt = id
    · exact ⟨pkt, sync, now, hevent, hid⟩
    · exact absurd (if_neg hid) hne
  · exact absurd rfl hne

omit [Field K] in
lemma arrived_split (id : UInt32) (before after : List (LivoxTurn K)) (y : LivoxTurn K) :
    (before ++ y :: after).flatMap (arrived id) =
      (before ++ [y]).flatMap (arrived id) ++ after.flatMap (arrived id) := by
  rw [← List.flatMap_append, List.append_assoc]
  rfl

omit [Field K] in
lemma InOrder.first_le {later : List (LivoxTurn K)} {a : UInt64} (hord : InOrder id later)
    (ha : a ∈ (later.flatMap (arrived id)).head?) : ∀ b ∈ later.flatMap (arrived id), a ≤ b := by
  intro b hb
  obtain ⟨rest, hrest⟩ := List.head?_eq_some_iff.mp ha
  unfold InOrder at hord
  rw [hrest] at hord hb
  obtain rfl | hb := List.mem_cons.mp hb
  · exact UInt64.le_refl _
  · exact List.rel_of_pairwise_cons hord hb

omit [Field K] in
lemma InOrder.le_last {later : List (LivoxTurn K)} {last : UInt64} (hord : InOrder id later)
    (hlast : last ∈ (later.flatMap (arrived id)).getLast?) :
    ∀ b ∈ later.flatMap (arrived id), b ≤ last := by
  intro b hb
  obtain ⟨init, hinit⟩ := List.getLast?_eq_some_iff.mp hlast
  unfold InOrder at hord
  rw [hinit] at hord hb
  obtain hb | hb := List.mem_append.mp hb
  · exact (List.pairwise_append.mp hord).2.2 b hb last (List.mem_singleton_self _)
  · exact List.mem_singleton.mp hb ▸ UInt64.le_refl _

omit [Field K] in
lemma Settled.mayCut_iff {s₀ s : PubHandler K} (h : Settled s₀ s) (first last : UInt64) :
    s.MayCut first last ↔ s₀.MayCut first last := by
  unfold MayCut
  rw [h.publishIntervalMs, h.publishIntervalTolerance]

section InOrder

variable {s₀ : PubHandler K} {later : List (LivoxTurn K)} {a : UInt64} {bound : ℕ}
  {P : UInt64 → UInt64 → Prop}

omit [Field K] in
/-- A frame that is cut in time has a packet that ends where it may be. -/
lemma inCut_of_closedIn (hs : ∀ y ∈ later, Settled s₀ y.pre) (hsync : Synchronised later)
    (hord : InOrder id later) (ha : a ∈ (later.flatMap (arrived id)).head?)
    (hP : ∀ b, a ≤ b → (P a b ↔ b.toNat < bound))
    (h : ClosedIn (Cuts id) (arrived id) P a later) :
    ∃ y ∈ later, ∃ last ∈ (arrived id y).getLast?, s₀.InCut a bound last := by
  have hfirst := hord.first_le ha
  obtain ⟨before, y, after, rfl, hcuts, hall⟩ := h
  have hy : y ∈ before ++ y :: after := by simp
  unfold Cuts at hcuts
  split at hcuts
  · obtain ⟨-, first, hhead, last, hlast, hcut⟩ := hcuts
    rw [arrived_split, List.head?_append, show _ = some first from hhead] at ha
    obtain rfl : first = a := Option.some.inj ha
    obtain ⟨z, hz, hzlast⟩ := List.exists_of_findSome?_eq_some
      (List.getLast?_flatMap.symm.trans (show _ = some last from hlast))
    have hz := List.mem_reverse.mp hz
    have hle : first ≤ last := hfirst last (by
      rw [arrived_split]
      exact List.mem_append_left _ (List.mem_of_getLast? hlast))
    have hz' : z ∈ before ++ y :: after := by
      rw [← List.singleton_append, ← List.append_assoc]
      exact List.mem_append_left _ hz
    exact ⟨z, hz', last, hzlast, (inCut_iff hle).mpr ⟨((hs y hy).mayCut_iff _ _).mp hcut,
      (hP last hle).mp (hall z hz last (List.mem_of_getLast? hzlast))⟩⟩
  · rename_i pkt now hevent
    exact absurd (hsync y hy _ _ _ hevent) Bool.false_ne_true
  · exact hcuts.elim

omit [Field K] in
/-- A packet that ends where a frame may be cut cuts it in time. -/
lemma closedIn_of_inCut {y : LivoxTurn K} {last : UInt64} (hs : ∀ y ∈ later, Settled s₀ y.pre)
    (hsync : Synchronised later) (hord : InOrder id later)
    (ha : a ∈ (later.flatMap (arrived id)).head?) (hP : ∀ b, a ≤ b → (P a b ↔ b.toNat < bound))
    (hy : y ∈ later) (hlast : last ∈ (arrived id y).getLast?) (hin : s₀.InCut a bound last) :
    ClosedIn (Cuts id) (arrived id) P a later := by
  have hfirst := hord.first_le ha
  obtain ⟨before, after, rfl⟩ := List.append_of_mem hy
  have hbefore : InOrder id (before ++ [y]) := by
    unfold InOrder at hord ⊢
    rw [arrived_split] at hord
    exact (List.pairwise_append.mp hord).1
  rw [arrived_split] at ha hfirst
  have hend : last ∈ ((before ++ [y]).flatMap (arrived id)).getLast? := by
    rw [List.flatMap_append, List.flatMap_singleton, List.getLast?_append,
      show _ = some last from hlast]
    rfl
  have hhead : a ∈ ((before ++ [y]).flatMap (arrived id)).head? := by
    obtain ⟨c, hc⟩ := Option.isSome_iff_exists.mp
      (List.isSome_head?.mpr (List.ne_nil_of_mem (List.mem_of_getLast? hend)))
    rw [List.head?_append, hc] at ha
    exact hc.trans ha
  have hle : a ≤ last := hfirst last (List.mem_append_left _ (List.mem_of_getLast? hend))
  obtain ⟨hcut, hbound⟩ := (inCut_iff hle).mp hin
  refine ⟨before, y, after, rfl, ?_, fun z hz b hb => ?_⟩
  · obtain ⟨pkt, sync, now, hevent, hid⟩ :=
      event_of_arrived (List.ne_nil_of_mem (List.mem_of_getLast? hlast))
    obtain rfl := hsync y hy _ _ _ hevent
    unfold Cuts
    rw [hevent]
    exact ⟨hid, a, hhead, last, hend, ((hs y hy).mayCut_iff _ _).mpr hcut⟩
  · have hmem : b ∈ (before ++ [y]).flatMap (arrived id) := List.mem_flatMap.mpr ⟨z, hz, hb⟩
    exact (hP b (hfirst b (List.mem_append_left _ hmem))).mpr
      ((UInt64.le_iff_toNat_le.mp (hbefore.le_last hend b hmem)).trans_lt hbound)

omit [Field K] in
/-- With synchronisation, and packets in order, a frame is cut in time exactly when some packet ends
where it may be. -/
lemma closedIn_cuts_iff (hs : ∀ y ∈ later, Settled s₀ y.pre) (hsync : Synchronised later)
    (hord : InOrder id later) (ha : a ∈ (later.flatMap (arrived id)).head?)
    (hP : ∀ b, a ≤ b → (P a b ↔ b.toNat < bound)) :
    ClosedIn (Cuts id) (arrived id) P a later ↔
      ∃ y ∈ later, ∃ last ∈ (arrived id y).getLast?, s₀.InCut a bound last :=
  ⟨inCut_of_closedIn hs hsync hord ha hP, fun ⟨_, hy, _, hlast, hin⟩ =>
    closedIn_of_inCut hs hsync hord ha hP hy hlast hin⟩

end InOrder

/-- The same from the packet on that opens a frame in a run. -/
lemma closedIn_iff_inCut {publishFreq : ℚ} {tr later : List (LivoxTurn K)} {x : LivoxTurn K}
    {first : UInt64} {bound : ℕ} {P : UInt64 → UInt64 → Prop}
    (h : Exec (step T) (new publishFreq) tr t) (hsync : Synchronised tr) (hord : InOrder id tr)
    (hsuffix : (x :: later) <:+ tr) (hfirst : first ∈ (arrived id x).head?)
    (hP : ∀ b, first ≤ b → (P first b ↔ b.toNat < bound)) :
    ClosedIn (Cuts id) (arrived id) P first (x :: later) ↔
      ∃ y ∈ x :: later, ∃ last ∈ (arrived id y).getLast?,
        (new publishFreq : PubHandler K).InCut first bound last := by
  have hmem : ∀ y ∈ x :: later, y ∈ tr := fun y hy => hsuffix.subset hy
  have hordered : InOrder id (x :: later) := by
    obtain ⟨past, rfl⟩ := hsuffix
    unfold InOrder at hord
    rw [List.flatMap_append] at hord
    exact (List.pairwise_append.mp hord).2.1
  exact closedIn_cuts_iff (fun y hy => settled_of_exec h y (hmem y hy))
    (fun y hy => hsync y (hmem y hy)) hordered (head_flatMap rfl hfirst) hP

/-! ## The span -/

/-- The time is less than an interval and a millisecond behind the first of its frame. -/
def InSpan (interval first time : UInt64) : Prop :=
  time.toNat < first.toNat + interval.toNat + 1000000

instance (interval first time : UInt64) : Decidable (InSpan interval first time) :=
  inferInstanceAs (Decidable (_ < _))

/-- The frames that are published of a lidar, after its first, are in their span. -/
def SpanRight (interval : UInt64) (id : UInt32) (x : LivoxTurn K) : Prop :=
  0 < x.pre.published id → ∀ frame ∈ x.obs, ∀ e ∈ frame, e.2.handle = id →
    ∀ p ∈ e.2.points, InSpan interval e.1 p.offsetTime

/-- From its first packet on, the frame is cut before a point comes that would be out of its span:
the frame begins with the time `first`, and `later` are the packets from that one on. -/
abbrev CutInSpan (s : PubHandler K) (id : UInt32) (first : UInt64) (later : List (LivoxTurn K)) :
    Prop :=
  ClosedIn (Cuts id) (arrived id) (InSpan s.publishInterval) first later

/-- **The span of the frames.**  In a run with synchronisation every frame of a lidar after the
first is in its span exactly when, for each that is published, a packet ends where the timer cuts
before one has a point out of the span.  Where the packets are in order only their ends matter: one
of them is in the millisecond of a multiple of the interval, not more than a millisecond before the
end of the interval that the frame begins, nor a millisecond behind it. -/
theorem spanRight_iff (T : Trigonometry K) (publishFreq : ℚ) (id : UInt32)
    {tr : List (LivoxTurn K)} (h : Exec (step T) (new publishFreq) tr t)
    (hsync : Synchronised tr) :
    ((∀ x ∈ tr, SpanRight (new publishFreq : PubHandler K).publishInterval id x) ↔
      ∀ x later, (x :: later) <:+ tr → x.pre.times id = [] →
        x.pre.published id < t.published id → 0 < x.pre.published id →
          ∀ first ∈ (arrived id x).head?,
            CutInSpan (new publishFreq : PubHandler K) id first (x :: later)) ∧
    (InOrder id tr →
      ((∀ x ∈ tr, SpanRight (new publishFreq : PubHandler K).publishInterval id x) ↔
        ∀ x later, (x :: later) <:+ tr → x.pre.times id = [] →
          x.pre.published id < t.published id → 0 < x.pre.published id →
            ∀ first ∈ (arrived id x).head?, ∃ y ∈ x :: later, ∃ last ∈ (arrived id y).getLast?,
              (new publishFreq : PubHandler K).InCut first
                (first.toNat + (new publishFreq : PubHandler K).publishInterval.toNat + 1000000)
                last)) := by
  have hspan : (∀ x ∈ tr, SpanRight (new publishFreq : PubHandler K).publishInterval id x) ↔
      ∀ x later, (x :: later) <:+ tr → x.pre.times id = [] →
        x.pre.published id < t.published id → 0 < x.pre.published id →
          ∀ first ∈ (arrived id x).head?,
            CutInSpan (new publishFreq : PubHandler K) id first (x :: later) := by
    rw [← handedOut_right_iff id (0 < ·) _ h]
    refine forall₂_congr fun x hx => imp_congr_right fun _ => ?_
    rw [rightIn_handedOut_iff (h.taken x hx)]
  refine ⟨hspan, fun hord => hspan.trans ?_⟩
  refine forall₂_congr fun x later => forall_congr' fun hsuffix => forall₃_congr fun _ _ _ =>
    forall₂_congr fun first hfirst => ?_
  exact closedIn_iff_inCut h hsync hord hsuffix hfirst fun _ _ => Iff.rfl

/-- A packet of the lidar 7 with one point at `time`, in synchronised mode. -/
def pointAt (time : UInt64) : LivoxEvent ℚ :=
  .rawData ⟨.kLivoxLidarType, 7, false, 1, 1, 4, time, 0, List.replicate 14 0⟩ true 0

/-- No use is made of the angles. -/
def noTrigonometry : Trigonometry ℚ := ⟨fun _ => 0, fun _ => 1, 3⟩

lemma synchronised_pointAt (times : List UInt64) (s : PubHandler ℚ) :
    Synchronised (trace (step noTrigonometry) (times.map pointAt) s).1 := by
  intro x hx pkt sync now hevent
  obtain ⟨time, -, htime⟩ := List.mem_map.mp (event_mem_of_trace hx)
  rw [hevent] at htime
  exact (LivoxEvent.rawData.inj htime).2.1.symm

/-- At 10 Hz, three frames with packets lost, but none of those at their ends.  The third begins a
millisecond late. -/
def kept : List (LivoxEvent ℚ) :=
  [100000000, 200000000, 200500000, 250000000, 300000000, 301000000, 400000000].map pointAt

lemma inOrder_kept : InOrder 7 (trace (step noTrigonometry) kept (new 10)).1 := by
  have htimes : (trace (step noTrigonometry) kept (new 10)).1.flatMap (arrived 7) =
      [100000000, 200000000, 200500000, 250000000, 300000000, 301000000, 400000000] := by
    decide +kernel
  unfold InOrder
  rw [htimes]
  decide

/-- From the packet on that opens a frame of `kept`, one ends where it may be cut. -/
lemma cut_kept : ∀ x later, (x :: later) <:+ (trace (step noTrigonometry) kept (new 10)).1 →
    x.pre.times 7 = [] → ∀ first ∈ (arrived 7 x).head?,
      ∃ y ∈ x :: later, ∃ last ∈ (arrived 7 y).getLast?, first ≤ last ∧
        (new 10 : PubHandler ℚ).MayCut first last ∧ last.toNat < first.toNat + 101000000 := by
  have hall : ((trace (step noTrigonometry) kept (new 10)).1.tails.all fun later =>
      later.head?.all fun x => x.pre.times 7 != [] || (arrived 7 x).head?.all fun first =>
        later.any fun y => (arrived 7 y).getLast?.any fun last =>
          first ≤ last && ((new 10 : PubHandler ℚ).MayCut first last &&
            last.toNat < first.toNat + 101000000)) = true := by
    decide +kernel
  intro x later hsuffix hopen first hfirst
  have hx := List.all_eq_true.mp hall _ ((List.mem_tails ..).mpr hsuffix)
  rw [List.head?_cons, Option.all_some, Bool.or_eq_true] at hx
  obtain hheld | hx := hx
  · exact absurd hopen (bne_iff_ne.mp hheld)
  · rw [show (arrived 7 x).head? = some first from hfirst, Option.all_some] at hx
    obtain ⟨y, hy, hlast⟩ := List.any_eq_true.mp hx
    obtain ⟨last, hlast, hcut⟩ := (Option.any_eq_true ..).mp hlast
    simp only [Bool.and_eq_true, decide_eq_true_eq] at hcut
    exact ⟨y, hy, last, hlast, hcut⟩

/-- The second and the third frame of `kept` are in their spans, because a packet ends where each of
them may be cut. -/
theorem kept_spanRight :
    Exec (step noTrigonometry) (new 10) (trace (step noTrigonometry) kept (new 10)).1
        (trace (step noTrigonometry) kept (new 10)).2 ∧
      (trace (step noTrigonometry) kept (new 10)).2.published 7 = 3 ∧
      ∀ x ∈ (trace (step noTrigonometry) kept (new 10)).1,
        SpanRight (new 10 : PubHandler ℚ).publishInterval 7 x := by
  have hexec : Exec (step noTrigonometry) (new 10) _ _ := Exec.of_trace kept (new 10)
  refine ⟨hexec, by decide +kernel, (((spanRight_iff noTrigonometry 10 7 hexec
    (synchronised_pointAt _ _)).2 inOrder_kept).mpr ?_)⟩
  intro x later hsuffix hopen _ _ first hfirst
  obtain ⟨y, hy, last, hlast, hle, hmay, hspan⟩ := cut_kept x later hsuffix hopen first hfirst
  have hinterval : (new 10 : PubHandler ℚ).publishInterval.toNat = 100000000 := by decide +kernel
  exact ⟨y, hy, last, hlast, (inCut_iff hle).mpr ⟨hmay, by omega⟩⟩

/-- At 10 Hz, a frame that starts ten milliseconds late, after packets that are lost. -/
def lost : List (LivoxEvent ℚ) :=
  [100000000, 200000000, 210000000, 300000000, 400000000].map pointAt

/-- It has the points of two intervals. -/
theorem lost_not_spanRight :
    ∃ tr t, Exec (step noTrigonometry) (new 10) tr t ∧ Synchronised tr ∧ InOrder 7 tr ∧
      ¬∀ x ∈ tr, SpanRight (new 10 : PubHandler ℚ).publishInterval 7 x := by
  have hexec : Exec (step noTrigonometry) (new 10) _ _ := Exec.of_trace lost (new 10)
  refine ⟨_, _, hexec, synchronised_pointAt _ _, ?_, fun h => ?_⟩
  · have htimes : (trace (step noTrigonometry) lost (new 10)).1.flatMap (arrived 7) =
        [100000000, 200000000, 210000000, 300000000, 400000000] := by
      decide +kernel
    unfold InOrder
    rw [htimes]
    decide
  let x := (trace (step noTrigonometry) lost (new 10)).1.get ⟨4, by decide +kernel⟩
  have hmem : x ∈ (trace (step noTrigonometry) lost (new 10)).1 := List.get_mem _ _
  have hout : handedOut 7 x = some [210000000, 300000000, 400000000] := by decide +kernel
  have hspan := (rightIn_handedOut_iff (hexec.taken x hmem)
    (Q := InSpan (new 10 : PubHandler ℚ).publishInterval)).mpr
    (h x hmem (by decide +kernel)) _ hout 210000000 rfl 400000000 (by decide)
  exact absurd hspan (by decide +kernel)

end PubHandler

end FastLivo2
