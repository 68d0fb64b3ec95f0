import FastLivo2.LidarDataQueue
import FastLivo2.Lib.Handoff

/-!
# The queues between the threads of the driver

The ring of a lidar as a queue between two threads: the frame goes to its slot before the counter
that counts it is raised, and out of it before the other counter is.  `written` is the one law that
has something to say: the slot that is written is none of those that are read, also when frames
leave the queue between the test for room and the write.
-/

namespace FastLivo2

namespace LidarDataQueue

variable {K : Type} {q : LidarDataQueue K} {l : List (StoragePacket K)} {n : UInt32}

/-! ## Half a push -/

/-- The slot is written. -/
def writeSlot (q : LidarDataQueue K) (data : PointPacket K) (baseTime : UInt64) :
    LidarDataQueue K :=
  { q with
    storagePacket := q.storagePacket.map fun slots =>
      slots.set (q.wrIdx &&& q.mask).toNat (data.stored baseTime) }

/-- The counter is raised. -/
def raiseWrIdx (q : LidarDataQueue K) : LidarDataQueue K := { q with wrIdx := q.wrIdx + 1 }

/-- `InitQueue`, where the slots are missing. -/
def prepare (n : UInt32) (q : LidarDataQueue K) : LidarDataQueue K :=
  if q.storagePacket.isNone then initQueue n else q

lemma raiseWrIdx_writeSlot (q : LidarDataQueue K) (data : PointPacket K) (baseTime : UInt64) :
    (q.writeSlot data baseTime).raiseWrIdx = q.queuePushAny data baseTime := rfl

lemma pushLidarData_eq (q : LidarDataQueue K) (data : PointPacket K) (baseTime : UInt64) :
    q.pushLidarData n data baseTime =
      if (q.prepare n).queueIsFull then q.prepare n
      else ((q.prepare n).writeSlot data baseTime).raiseWrIdx := rfl

lemma Keeps.ringed (h : Keeps n q l) (hsome : q.storagePacket.isNone = false) : Ringed n q l := by
  rcases h with ⟨rfl, -⟩ | h
  · cases hsome
  · exact h

lemma Ringed.isNone (h : Ringed n q l) : q.storagePacket.isNone = false := by
  obtain ⟨slots, r, rfl, -⟩ := h.ring
  rfl

lemma Keeps.nil_of_isNone (h : Keeps n q l) (hnone : q.storagePacket.isNone = true) : l = [] := by
  rcases h with ⟨-, hl⟩ | h
  · exact hl
  · rw [h.isNone] at hnone
    cases hnone

lemma Keeps.prepare (h : Keeps n q l) : Ringed n (q.prepare n) l := by
  unfold LidarDataQueue.prepare
  split_ifs with hnone
  · rw [h.nil_of_isNone hnone]
    exact ringed_initQueue n
  · exact h.ringed (Bool.eq_false_iff.mpr hnone)

/-- The item that is not counted yet does not disturb those that are. -/
lemma Ringed.of_raiseWrIdx {p : StoragePacket K} (h : Ringed n q.raiseWrIdx (l ++ [p])) :
    Ringed n q l := by
  obtain ⟨slots, r, hq, hlength, hholds⟩ := h.ring
  have hfields := LidarDataQueue.mk.inj hq
  refine ⟨fun p' hp' => h.whole p' (List.mem_append_left _ hp'), slots, r, ?_, hlength, ?_⟩
  · obtain ⟨hslots, hrd, hwr, hmask, hsize⟩ := hfields
    obtain ⟨slots', rd, wr, mask, size⟩ := q
    have hcounter : wr = UInt32.ofNat (r + l.length) := by
      have hsucc : wr + 1 = UInt32.ofNat (r + l.length) + 1 := by
        rw [show wr + 1 = UInt32.ofNat (r + (l ++ [p]).length) from hwr, List.length_append,
          List.length_singleton, ← Nat.add_assoc, UInt32.ofNat_add (r + l.length) 1]
        rfl
      exact add_right_cancel hsucc
    rw [← hcounter]
    exact LidarDataQueue.mk.injEq .. ▸ ⟨hslots, hrd, rfl, hmask, hsize⟩
  · have hbounded := hholds.bounded
    rw [List.length_append, List.length_singleton] at hbounded
    refine ⟨by omega, fun i hi => ?_⟩
    have hslot := hholds.slot i (by rw [List.length_append, List.length_singleton]; omega)
    rwa [List.getElem?_append_left hi] at hslot

/-- The oldest frame is read, and then leaves. -/
lemma Ringed.take {b : StoragePacket K} (h : Ringed n q (b :: l)) :
    q.queuePrePop = some b ∧ Ringed n q.queuePopUpdate l := by
  have hpop := Keeps.pop (.inr h : Keeps n q (b :: l))
  unfold queuePop at hpop
  cases hpre : q.queuePrePop with
  | none =>
      rw [hpre] at hpop
      cases hpop.2
  | some packet =>
      rw [hpre] at hpop
      exact ⟨hpop.2, hpop.1.ringed h.isNone⟩

/-! ## The queue of the points -/

/-- The queue of a lidar for which `n` slots are asked. -/
def handoff (n : UInt32) :
    HandoffQueue (LidarDataQueue K) (PointPacket K × UInt64) (StoragePacket K) where
  init := {}
  absent := fun q => q.storagePacket.isNone
  prepare := fun q => q.prepare n
  full := fun q => q.queueIsFull
  write := fun q a => q.writeSlot a.1 a.2
  advance := fun q => q.raiseWrIdx
  empty := fun q => q.queueIsEmpty
  used := fun q => q.queueUsedSize.toNat
  peek := fun q => q.queuePrePop
  drop := fun q => q.queuePopUpdate
  kept := fun a => a.1.stored a.2
  Holds := Keeps n
  Written := fun q l b => Ringed n q.raiseWrIdx (l ++ [b])
  holds_init := .inl ⟨rfl, rfl⟩
  absent_nil := fun h hnone => h.nil_of_isNone hnone
  holds_prepare := fun h => .inr h.prepare
  absent_prepare := fun h => h.prepare.isNone
  written := by
    intro q l a h hsome hfull
    have hring := h.ringed hsome
    have hpush := hring.push a.1 a.2
    rwa [hfull, if_neg Bool.false_ne_true, if_pos (hring.agrees.isFull_eq.mp hfull)] at hpush
  holds_written := fun h => .inr h.of_raiseWrIdx
  advance_holds := fun h => .inr h
  empty_iff := fun h => h.agrees.empty
  used_eq := fun h => h.agrees.used
  peek_eq := fun {q b l} h => by
    cases hnone : q.storagePacket.isNone with
    | true => cases h.nil_of_isNone hnone
    | false => exact (h.ringed hnone).take.1
  drop_holds := fun {q b l} h => by
    cases hnone : q.storagePacket.isNone with
    | true => cases h.nil_of_isNone hnone
    | false => exact .inr (h.ringed hnone).take.2
  drop_written := fun {q b l b'} h => (show Ringed n q.raiseWrIdx (b :: (l ++ [b'])) from h).take.2
  drop_absent := fun {q b l} h => by
    cases hnone : q.storagePacket.isNone with
    | true => cases h.nil_of_isNone hnone
    | false => exact hnone
  drop_full := fun {q b l} h hfull => by
    cases hnone : q.storagePacket.isNone with
    | true => cases h.nil_of_isNone hnone
    | false =>
        have hring := h.ringed hnone
        have hroom := hring.agrees.isFull_eq.mp hfull
        rw [List.length_cons] at hroom
        exact hring.take.2.agrees.isFull_eq.mpr (by omega)

end LidarDataQueue

end FastLivo2
