import FastLivo2.PubHandler
import FastLivo2.Lib.Ring

/-!
# The queue of frames of a lidar

`PubHandler` hands its frames to `Lds`, which keeps those of a lidar in a `LidarDataQueue` until
`Lddc` publishes them.  The queue is a ring whose length is a power of two, with two counters of 32
bits that are never reduced: the slots are found with a mask, and the queue is full when the
counters differ by more than the mask.

The module shows that it is a bounded queue, for as long as it may run.
-/

namespace FastLivo2

variable {K : Type}

structure StoragePacket (K : Type) where
  baseTime : UInt64
  pointsNum : UInt32
  points : List (PointXyzlt K)
  deriving DecidableEq

structure LidarDataQueue (K : Type) where
  /-- None for the null pointer. -/
  storagePacket : Option (List (StoragePacket K)) := none
  rdIdx : UInt32 := 0
  wrIdx : UInt32 := 0
  mask : UInt32 := 0
  size : UInt32 := 0

inductive QueueEvent (K : Type)
  /-- `PushLidarData`. -/
  | push (data : PointPacket K) (baseTime : UInt64)
  /-- `QueuePop`. -/
  | pop

def IsPowerOf2 (size : UInt32) : Prop := size ≠ 0 ∧ size &&& (size - 1) = 0

instance (size : UInt32) : Decidable (IsPowerOf2 size) := inferInstanceAs (Decidable (_ ∧ _))

/-- The first power of two that is not below `size`, and the last one of all if there is none. -/
def roundupPowerOf2 (size : UInt32) : UInt32 :=
  1 <<< UInt32.ofNat (((List.range 32).find? fun i => size ≤ 1 <<< UInt32.ofNat i).getD 31)

/-- The size of a queue for which `queueSize` is asked. -/
def realQueueSize (queueSize : UInt32) : UInt32 :=
  if IsPowerOf2 queueSize then queueSize else roundupPowerOf2 queueSize

/-- What a frame is kept as: the points that it points to. -/
def PointPacket.stored (data : PointPacket K) (baseTime : UInt64) : StoragePacket K :=
  ⟨baseTime, data.pointsNum, data.points.take data.pointsNum.toNat⟩

namespace LidarDataQueue

variable (q : LidarDataQueue K)

def initQueue (queueSize : UInt32) : LidarDataQueue K where
  storagePacket := some (List.replicate (realQueueSize queueSize).toNat ⟨0, 0, []⟩)
  rdIdx := 0
  wrIdx := 0
  size := realQueueSize queueSize
  mask := realQueueSize queueSize - 1

def queueUsedSize : UInt32 := q.wrIdx - q.rdIdx

def queueIsFull : Bool := q.mask < q.wrIdx - q.rdIdx

def queueIsEmpty : Bool := q.rdIdx = q.wrIdx

/-- `QueuePrePop`: a copy of the oldest frame. -/
def queuePrePop : Option (StoragePacket K) :=
  if q.queueIsEmpty then none
  else do
    let slots ← q.storagePacket
    let packet ← slots[(q.rdIdx &&& q.mask).toNat]?
    some { packet with points := packet.points.take packet.pointsNum.toNat }

def queuePopUpdate : LidarDataQueue K := { q with rdIdx := q.rdIdx + 1 }

def queuePop : LidarDataQueue K × Option (StoragePacket K) :=
  match q.queuePrePop with
  | none => (q, none)
  | some packet => (q.queuePopUpdate, some packet)

def queuePushAny (data : PointPacket K) (baseTime : UInt64) : LidarDataQueue K :=
  { q with
    storagePacket := q.storagePacket.map fun slots =>
      slots.set (q.wrIdx &&& q.mask).toNat (data.stored baseTime)
    wrIdx := q.wrIdx + 1 }

/-- `PushLidarData`, where `queueSize` is what `CalculatePacketQueueSize` returns. -/
def pushLidarData (queueSize : UInt32) (data : PointPacket K) (baseTime : UInt64) :
    LidarDataQueue K :=
  let q := if q.storagePacket.isNone then initQueue queueSize else q
  if q.queueIsFull then q else q.queuePushAny data baseTime

/-- One step; the observation is the frame that a pop hands out. -/
def step (queueSize : UInt32) (q : LidarDataQueue K) :
    QueueEvent K → Except Empty (LidarDataQueue K × Option (StoragePacket K))
  | .push data baseTime => .ok (q.pushLidarData queueSize data baseTime, none)
  | .pop => .ok q.queuePop

end LidarDataQueue

abbrev QueueTurn (K : Type) := Turn (LidarDataQueue K) (QueueEvent K) (Option (StoragePacket K))

/-! ## The size of a queue -/

lemma toNat_shift {k : ℕ} (hk : k ≤ 31) : ((1 : UInt32) <<< UInt32.ofNat k).toNat = 2 ^ k := by
  revert k
  decide

lemma isPowerOf2_iff {size : UInt32} : IsPowerOf2 size ↔ ∃ k ≤ 31, size.toNat = 2 ^ k := by
  have hlt := size.toNat_lt
  have hnat : IsPowerOf2 size ↔ size.toNat.isPowerOfTwo := by
    rw [← Nat.ne_zero_and_sub_one_eq_zero_iff_isPowerOfTwo]
    unfold IsPowerOf2
    rw [ne_eq, ne_eq, ← UInt32.toNat_inj, UInt32.toNat_zero]
    refine and_congr_right fun hne => ?_
    have hpred : (size - 1).toNat = size.toNat - 1 :=
      UInt32.toNat_sub_of_le size 1 (UInt32.le_iff_toNat_le.mpr (Nat.one_le_iff_ne_zero.mpr hne))
    rw [← UInt32.toNat_inj, UInt32.toNat_and, hpred, UInt32.toNat_zero]
  rw [hnat]
  constructor
  · rintro ⟨k, hk⟩
    refine ⟨k, ?_, hk⟩
    by_contra hlarge
    have := Nat.pow_le_pow_right (show 0 < 2 by omega) (show 32 ≤ k by omega)
    omega
  · rintro ⟨k, -, hk⟩
    exact ⟨k, hk⟩

/-- A queue has a power of two of slots. -/
lemma realQueueSize_pow (queueSize : UInt32) :
    ∃ k ≤ 31, (realQueueSize queueSize).toNat = 2 ^ k := by
  unfold realQueueSize
  split_ifs with hpow
  · exact isPowerOf2_iff.mp hpow
  · unfold roundupPowerOf2
    cases hfind : (List.range 32).find? fun i => decide (queueSize ≤ 1 <<< UInt32.ofNat i) with
    | none => exact ⟨31, le_rfl, toNat_shift le_rfl⟩
    | some i =>
        have hi := List.mem_range.mp (List.mem_of_find?_eq_some hfind)
        have hle : i ≤ 31 := by omega
        exact ⟨i, hle, toNat_shift hle⟩

/-- It is the smallest power of two that is enough. -/
lemma realQueueSize_isLeast {queueSize : UInt32} (hsize : queueSize.toNat ≤ 2 ^ 31) :
    IsLeast {c | queueSize.toNat ≤ c ∧ ∃ k, c = 2 ^ k} (realQueueSize queueSize).toNat := by
  obtain ⟨k, -, hk⟩ := realQueueSize_pow queueSize
  have hle : ∀ {i}, i ≤ 31 →
      (decide (queueSize ≤ 1 <<< UInt32.ofNat i) = true ↔ queueSize.toNat ≤ 2 ^ i) :=
    fun {i} hi => by
    rw [decide_eq_true_iff, UInt32.le_iff_toNat_le, toNat_shift hi]
  unfold realQueueSize at hk ⊢
  split_ifs at hk ⊢ with hpow
  · exact ⟨⟨le_rfl, k, hk⟩, fun c hc => hc.1⟩
  · unfold roundupPowerOf2 at hk ⊢
    cases hfind : (List.range 32).find? fun i => decide (queueSize ≤ 1 <<< UInt32.ofNat i) with
    | none =>
        have hlast := List.find?_eq_none.mp hfind 31 (by decide)
        exact absurd ((hle le_rfl).mpr hsize) hlast
    | some i =>
        obtain ⟨hfits, hmem, hbefore⟩ := List.find?_range_eq_some.mp hfind
        have hi : i ≤ 31 := by
          have := List.mem_range.mp hmem
          omega
        rw [hfind] at hk
        refine ⟨⟨?_, k, hk⟩, ?_⟩
        · rw [Option.getD_some, toNat_shift hi]
          exact (hle hi).mp hfits
        · rintro c ⟨hc, j, rfl⟩
          rw [Option.getD_some, toNat_shift hi]
          refine Nat.pow_le_pow_right (by omega) (not_lt.mp fun hj => ?_)
          have hnot := hbefore j hj
          rw [(hle (by omega)).mpr hc] at hnot
          cases hnot

namespace LidarDataQueue

variable {q : LidarDataQueue K} {l : List (StoragePacket K)} {n : UInt32}

/-- The slot of a counter. -/
lemma toNat_and_mask (n : UInt32) (m : ℕ) :
    (UInt32.ofNat m &&& (realQueueSize n - 1)).toNat = m % (realQueueSize n).toNat := by
  obtain ⟨k, hk, hsize⟩ := realQueueSize_pow n
  have hpos := Nat.two_pow_pos k
  have hpred : (realQueueSize n - 1).toNat = 2 ^ k - 1 := by
    rw [UInt32.toNat_sub_of_le _ 1 (UInt32.le_iff_toNat_le.mpr (by rw [hsize]; exact hpos)), hsize]
    rfl
  rw [UInt32.toNat_and, hpred, Nat.and_two_pow_sub_one_eq_mod, UInt32.toNat_ofNat', hsize]
  exact Nat.mod_mod_of_dvd m (Nat.pow_dvd_pow 2 (by omega))

/-! ## The queue that it is -/

/-- What the functions of a queue say of it, against a queue `l` of at most `cap` frames. -/
structure Agrees (cap : ℕ) (q : LidarDataQueue K) (l : List (StoragePacket K)) : Prop where
  bounded : l.length ≤ cap
  used : q.queueUsedSize.toNat = l.length
  empty : q.queueIsEmpty = true ↔ l = []
  full : q.queueIsFull = true ↔ l.length = cap
  /-- No frame is overwritten while it is in the queue. -/
  stored : ∀ slots, q.storagePacket = some slots → ∀ i < l.length,
    slots[((q.rdIdx + UInt32.ofNat i) &&& q.mask).toNat]? = l[i]?

/-- The queue has its slots. -/
structure Ringed (n : UInt32) (q : LidarDataQueue K) (l : List (StoragePacket K)) : Prop where
  whole : ∀ p ∈ l, p.points.take p.pointsNum.toNat = p.points
  ring : ∃ slots r, q = ⟨some slots, UInt32.ofNat r, UInt32.ofNat (r + l.length),
      realQueueSize n - 1, realQueueSize n⟩ ∧
    slots.length = (realQueueSize n).toNat ∧ Holds slots r l

/-- The queue is as it was before `InitQueue`, or has its slots. -/
def Keeps (n : UInt32) (q : LidarDataQueue K) (l : List (StoragePacket K)) : Prop :=
  q = {} ∧ l = [] ∨ Ringed n q l

lemma ringed_initQueue (n : UInt32) : Ringed n (initQueue n : LidarDataQueue K) [] :=
  ⟨nofun, _, 0, rfl, List.length_replicate, .nil⟩

lemma usedSize_eq (m k : ℕ) : UInt32.ofNat (m + k) - UInt32.ofNat m = UInt32.ofNat k := by
  rw [UInt32.ofNat_add, add_sub_cancel_left]

lemma Ringed.agrees (h : Ringed n q l) : Agrees (realQueueSize n).toNat q l := by
  obtain ⟨slots, r, rfl, hlength, hholds⟩ := h.ring
  obtain ⟨k, hk, hsize⟩ := realQueueSize_pow n
  have hbounded := hholds.bounded
  rw [hlength] at hbounded
  have hpow := Nat.pow_le_pow_right (show 0 < 2 by omega) hk
  have hused : (UInt32.ofNat (r + l.length) - UInt32.ofNat r).toNat = l.length := by
    rw [usedSize_eq, UInt32.toNat_ofNat']
    exact Nat.mod_eq_of_lt (by omega)
  have hpred : (realQueueSize n - 1).toNat = (realQueueSize n).toNat - 1 :=
    UInt32.toNat_sub_of_le _ 1 (UInt32.le_iff_toNat_le.mpr (by
      rw [hsize]
      exact Nat.two_pow_pos k))
  refine ⟨hbounded, hused, ?_, ?_, ?_⟩
  · unfold queueIsEmpty
    rw [decide_eq_true_iff]
    constructor
    · intro hsame
      rw [show UInt32.ofNat (r + l.length) = UInt32.ofNat r from hsame.symm, sub_self] at hused
      exact List.length_eq_zero_iff.mp hused.symm
    · rintro rfl
      rfl
  · unfold queueIsFull
    rw [decide_eq_true_iff, UInt32.lt_iff_toNat_lt, hused, hpred]
    have := Nat.two_pow_pos k
    omega
  · intro slots' hslots i hi
    obtain rfl := Option.some.inj hslots
    dsimp only
    rw [← UInt32.ofNat_add, toNat_and_mask, ← hlength]
    exact hholds.slot i hi

lemma Keeps.agrees (h : Keeps n q l) : Agrees (realQueueSize n).toNat q l := by
  obtain ⟨rfl, rfl⟩ | h := h
  · obtain ⟨k, -, hsize⟩ := realQueueSize_pow n
    have hused : ((0 : UInt32) - 0).toNat = 0 := by decide
    have hfull : ¬decide ((0 : UInt32) < 0 - 0) = true := by decide
    refine ⟨Nat.zero_le _, hused, iff_of_true rfl rfl, ?_, nofun⟩
    rw [hsize]
    exact iff_of_false hfull (Nat.two_pow_pos k).ne
  · exact h.agrees

lemma Agrees.isFull_eq {cap : ℕ} (h : Agrees cap q l) : q.queueIsFull = false ↔ l.length < cap := by
  have hbounded := h.bounded
  rw [← Bool.not_eq_true, h.full]
  omega

/-- **Push.** -/
lemma Ringed.push (h : Ringed n q l) (data : PointPacket K) (baseTime : UInt64) :
    Ringed n (if q.queueIsFull then q else q.queuePushAny data baseTime)
      (if l.length < (realQueueSize n).toNat then l ++ [data.stored baseTime] else l) := by
  have hagrees := h.agrees
  by_cases hroom : l.length < (realQueueSize n).toNat
  · rw [if_pos hroom, hagrees.isFull_eq.mpr hroom]
    obtain ⟨slots, r, rfl, hlength, hholds⟩ := h.ring
    refine ⟨fun p hp => ?_, slots.set ((r + l.length) % slots.length) (data.stored baseTime), r, ?_,
      ?_, ?_⟩
    · obtain hp | hp := List.mem_append.mp hp
      · exact h.whole p hp
      · rw [List.mem_singleton.mp hp]
        exact List.take_take.trans (congrArg (List.take · _) (Nat.min_self _))
    · rw [if_neg Bool.false_ne_true]
      unfold queuePushAny
      dsimp only
      rw [toNat_and_mask, hlength, List.length_append, List.length_singleton, ← Nat.add_assoc,
        UInt32.ofNat_add (r + l.length) 1]
      rfl
    · rwa [List.length_set]
    · exact hholds.push (by rwa [hlength])
  · have hfull : q.queueIsFull = true := hagrees.full.mpr (by have := hagrees.bounded; omega)
    rw [if_neg hroom, hfull]
    exact h

lemma Keeps.push (h : Keeps n q l) (data : PointPacket K) (baseTime : UInt64) :
    Keeps n (q.pushLidarData n data baseTime)
      (if l.length < (realQueueSize n).toNat then l ++ [data.stored baseTime] else l) := by
  right
  obtain ⟨rfl, rfl⟩ | h := h
  · exact (ringed_initQueue n).push data baseTime
  · have hsome : q.storagePacket.isNone = false := by
      obtain ⟨slots, r, rfl, -⟩ := h.ring
      rfl
    unfold pushLidarData
    rw [hsome]
    exact h.push data baseTime

/-- **Pop.** -/
lemma Keeps.pop (h : Keeps n q l) : Keeps n q.queuePop.1 l.tail ∧ q.queuePop.2 = l.head? := by
  have hagrees := h.agrees
  cases l with
  | nil =>
      have hempty : q.queuePrePop = none := if_pos (hagrees.empty.mpr rfl)
      unfold queuePop
      rw [hempty]
      exact ⟨h, rfl⟩
  | cons p l =>
      obtain ⟨-, hnil⟩ | h := h
      · cases hnil
      · have hnot : ¬q.queueIsEmpty = true := fun hc => by cases hagrees.empty.mp hc
        obtain ⟨slots, r, rfl, hlength, hholds⟩ := h.ring
        obtain ⟨hslot, hrest⟩ := hholds.pop
        have hpre : queuePrePop (K := K) ⟨some slots, UInt32.ofNat r,
            UInt32.ofNat (r + (p :: l).length), realQueueSize n - 1, realQueueSize n⟩ = some p := by
          unfold queuePrePop
          rw [if_neg hnot]
          dsimp only [Option.bind_eq_bind, Option.bind_some]
          rw [toNat_and_mask, ← hlength, hslot, Option.bind_some,
            h.whole p List.mem_cons_self]
        unfold queuePop
        rw [hpre]
        refine ⟨.inr ⟨fun p' hp' => h.whole p' (List.mem_cons_of_mem _ hp'), slots, r + 1, ?_,
          hlength, hrest⟩, rfl⟩
        unfold queuePopUpdate
        dsimp only
        rw [List.length_cons, ← Nat.add_assoc, Nat.add_right_comm, UInt32.ofNat_add r 1]
        rfl

/-! ## Whole runs -/

/-- The same event: what is pushed is the frame that its packet points to. -/
inductive SameEvent : QueueEvent K → FifoEvent (StoragePacket K) → Prop
  | push (data : PointPacket K) (baseTime : UInt64) :
      SameEvent (.push data baseTime) (.push (data.stored baseTime))
  | pop : SameEvent .pop .pop

/-- **Step lemma.** -/
lemma Keeps.step (x : QueueTurn K) (hx : x.Taken (LidarDataQueue.step n))
    (l : List (StoragePacket K)) (h : Keeps n x.pre l) :
    ∃ y : Turn (List (StoragePacket K)) (FifoEvent (StoragePacket K)) (Option (StoragePacket K)),
      y.pre = l ∧ y.Taken (Fifo.step (realQueueSize n).toNat) ∧
        TurnsAgree (Keeps n) SameEvent Eq x y := by
  have hstep : LidarDataQueue.step n x.pre x.event = .ok (x.post, x.obs) := hx
  cases hevent : x.event with
  | push data baseTime =>
      rw [hevent] at hstep
      obtain ⟨hpost, hobs⟩ := Prod.mk.inj (Except.ok.inj hstep)
      refine ⟨⟨l, .push (data.stored baseTime), none,
        if l.length < (realQueueSize n).toNat then l ++ [data.stored baseTime] else l⟩,
        rfl, rfl, h, ?_, hobs.symm, ?_⟩
      · rw [hevent]
        exact .push data baseTime
      · rw [← hpost]
        exact h.push data baseTime
  | pop =>
      rw [hevent] at hstep
      obtain ⟨hpost, hobs⟩ := Prod.mk.inj (Except.ok.inj hstep)
      refine ⟨⟨l, .pop, l.head?, l.tail⟩, rfl, rfl, h, ?_, ?_, ?_⟩
      · rw [hevent]
        exact .pop
      · rw [← hobs]
        exact h.pop.2
      · rw [← hpost]
        exact h.pop.1

/-- **The queue is a bounded queue.**  From its initialisation on, or from before it, a queue for
which `n` slots are asked does what a queue of the next power of two does, frame by frame and for
ever, and its functions say so. -/
theorem refines_fifo (n : UInt32) {s t : LidarDataQueue K} {tr : List (QueueTurn K)}
    (hs : s = {} ∨ s = initQueue n) (h : Exec (LidarDataQueue.step n) s tr t) :
    (n.toNat ≤ 2 ^ 31 →
      IsLeast {c | n.toNat ≤ c ∧ ∃ k, c = 2 ^ k} (realQueueSize n).toNat) ∧
    ∃ tr' l, Exec (Fifo.step (realQueueSize n).toNat) [] tr' l ∧
      Agrees (realQueueSize n).toNat t l ∧
      List.Forall₂ (TurnsAgree (Agrees (realQueueSize n).toNat) SameEvent Eq) tr tr' := by
  refine ⟨realQueueSize_isLeast, ?_⟩
  have hkeeps : Keeps n s [] := by
    obtain rfl | rfl := hs
    · exact .inl ⟨rfl, rfl⟩
    · exact .inr (ringed_initQueue n)
  obtain ⟨tr', l, hexec, hl, hall⟩ := simulation Keeps.step h hkeeps
  refine ⟨tr', l, hexec, hl.agrees, hall.imp fun x y hxy => ?_⟩
  exact ⟨hxy.pre.agrees, hxy.event, hxy.obs, hxy.post.agrees⟩

/-- A frame of one point. -/
def onePoint (x : ℚ) : PointPacket ℚ := ⟨7, 1, [⟨x, 0, 0, 0, 0, 0, 0⟩]⟩

/-- A queue for which three slots are asked is offered five frames, and another one when two are
out. -/
def sixFrames : List (QueueEvent ℚ) :=
  [.push (onePoint 1) 10, .push (onePoint 2) 20, .push (onePoint 3) 30, .push (onePoint 4) 40,
    .push (onePoint 5) 50, .pop, .pop, .push (onePoint 6) 60, .pop, .pop, .pop, .pop]

/-- It takes four of the five, and the last goes round to the first slot. -/
theorem sixFrames_fifo :
    (trace (LidarDataQueue.step 3) sixFrames (initQueue 3)).1.filterMap Turn.obs =
      [(onePoint 1).stored 10, (onePoint 2).stored 20, (onePoint 3).stored 30,
        (onePoint 4).stored 40, (onePoint 6).stored 60] ∧
    ∃ tr' l, Exec (Fifo.step (realQueueSize 3).toNat) [] tr' l ∧
      Agrees (realQueueSize 3).toNat (trace (LidarDataQueue.step 3) sixFrames (initQueue 3)).2 l ∧
      List.Forall₂ (TurnsAgree (Agrees (realQueueSize 3).toNat) SameEvent Eq)
        (trace (LidarDataQueue.step 3) sixFrames (initQueue 3)).1 tr' :=
  ⟨rfl, (refines_fifo 3 (.inr rfl) (Exec.of_trace sixFrames (initQueue 3))).2⟩

end LidarDataQueue

end FastLivo2
