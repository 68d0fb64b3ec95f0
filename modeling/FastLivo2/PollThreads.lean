import FastLivo2.Lib.Exec
import FastLivo2.Lib.Handoff

/-!
# The poll threads of the Livox driver

A thread of the SDK stores what the lidars send, each in the queue of its lidar, and raises a
semaphore where nobody has raised it since (`Lds::PushLidarData`, `Lds::StorageImuData`).  A thread
of the node waits for the semaphore, goes through the lidars and publishes what it finds
(`Lddc::DistributePointCloudData`, `Lddc::DistributeImuData`).  The two run side by side, for the
frames of points and once more for the samples of the IMU.

An event is one step of a thread: one access to what the threads share, in the order of the source.
The lock of the semaphore makes `Wait` and `Signal` one step each.

What is stored is taken exactly once and in order, whatever the schedule (`order_of_exec`).
-/

namespace FastLivo2

/-- What a call of the function that publishes takes from the queue: all there is, as for
`PointCloud2` and the custom message, one item, as for the IMU, or nothing, as `PublishPclMsg` does
under ROS 2. -/
inductive Publishing
  | all
  | one
  | nothing
  deriving DecidableEq

/-- What the thread that stores does next. -/
inductive Storing (α : Type*)
  | idle
  | initQueue (i : ℕ) (a : α)
  | queueIsFull (i : ℕ) (a : α)
  | queuePushAny (i : ℕ) (a : α)
  /-- The slot is written, and the counter is not. -/
  | wrIdx (i : ℕ) (a : α)
  | queueIsEmpty (i : ℕ)
  | getCount
  | signal

/-- What the thread that publishes does next. -/
inductive Polling (β : Type*)
  | distribute
  | wait
  /-- The loop over the lidars. -/
  | lidar (i : ℕ)
  /-- The loop of the lidar, in `PollingLidarPointCloudData`. -/
  | polling (i : ℕ)
  | publish (i : ℕ)
  /-- The item is copied, and the counter is not yet raised. -/
  | rdIdx (i : ℕ) (b : β)
  | future
  | ended
  deriving DecidableEq

/-- What the two threads share, and where they are. -/
structure PollThreads (Q α β : Type*) where
  queue : ℕ → Q
  /-- `connect_state` is `kConnectStateSampling`. -/
  sampling : ℕ → Bool
  semaphore : ℕ := 0
  requestExit : Bool := false
  exitSignal : Bool := false
  storing : Storing α := .idle
  polling : Polling β := .distribute

/-- What may happen next. -/
inductive PollEvent (α : Type*)
  /-- An item of lidar `i` arrives. -/
  | arrive (i : ℕ) (a : α)
  | store
  | poll
  /-- The lidar has its settings. -/
  | connect (i : ℕ)
  | requestExit
  | setValue
  deriving DecidableEq

/-- What is seen of a step. -/
inductive PollSeen (α β : Type*)
  | refused (i : ℕ) (a : α)
  | stored (i : ℕ) (b : β)
  | taken (i : ℕ) (b : β)

namespace PollThreads

variable {Q α β : Type*} (H : HandoffQueue Q α β) (p : Publishing) (lidarCount : ℕ)

/-- Before the first item. -/
def start : PollThreads Q α β where
  queue := fun _ => H.init
  sampling := fun _ => false

/-- The queue of a lidar is changed. -/
def setQueue (s : PollThreads Q α β) (i : ℕ) (q : Q) : PollThreads Q α β :=
  { s with queue := Function.update s.queue i q }

/-- A step of `PushLidarData`, or of `StorageImuData`. -/
def store (s : PollThreads Q α β) :
    Except Blocked (PollThreads Q α β × Option (PollSeen α β)) :=
  match s.storing with
  | .idle => .error .blocked
  | .initQueue i a =>
      .ok ({ s.setQueue i (H.prepare (s.queue i)) with storing := .queueIsFull i a }, none)
  | .queueIsFull i a =>
      if H.full (s.queue i) then .ok ({ s with storing := .getCount }, some (.refused i a))
      else .ok ({ s with storing := .queuePushAny i a }, none)
  | .queuePushAny i a =>
      .ok ({ s.setQueue i (H.write (s.queue i) a) with storing := .wrIdx i a }, none)
  | .wrIdx i a =>
      .ok ({ s.setQueue i (H.advance (s.queue i)) with storing := .queueIsEmpty i },
        some (.stored i (H.kept a)))
  | .queueIsEmpty i =>
      .ok ({ s with storing := if H.empty (s.queue i) then .idle else .getCount }, none)
  | .getCount => .ok ({ s with storing := if 0 < s.semaphore then .idle else .signal }, none)
  | .signal => .ok ({ s with semaphore := s.semaphore + 1, storing := .idle }, none)

/-- Where a call of the function that publishes goes on after an item. -/
def afterItem (i : ℕ) : Polling β := if p = .all then .publish i else .polling i

/-- A step of the thread that publishes. -/
def poll (s : PollThreads Q α β) :
    Except Blocked (PollThreads Q α β × Option (PollSeen α β)) :=
  match s.polling with
  | .distribute => .ok ({ s with polling := if s.requestExit then .future else .wait }, none)
  | .wait =>
      if 0 < s.semaphore then
        .ok ({ s with semaphore := s.semaphore - 1, polling := .lidar 0 }, none)
      else .error .blocked
  | .lidar i =>
      if lidarCount ≤ i then .ok ({ s with polling := .future }, none)
      else if s.sampling i && !H.absent (s.queue i) then
        .ok ({ s with polling := .polling i }, none)
      else .ok ({ s with polling := .lidar (i + 1) }, none)
  | .polling i =>
      if !s.requestExit && !H.empty (s.queue i) then .ok ({ s with polling := .publish i }, none)
      else .ok ({ s with polling := .lidar (i + 1) }, none)
  | .publish i =>
      if p = .nothing ∨ H.empty (s.queue i) = true then .ok ({ s with polling := .polling i }, none)
      else match H.peek (s.queue i) with
        | none => .ok ({ s with polling := afterItem p i }, none)
        | some b => .ok ({ s with polling := .rdIdx i b }, none)
  | .rdIdx i b =>
      .ok ({ s.setQueue i (H.drop (s.queue i)) with polling := afterItem p i },
        some (.taken i b))
  | .future => .ok ({ s with polling := if s.exitSignal then .ended else .distribute }, none)
  | .ended => .error .blocked

/-- One step.  An item arrives only while the thread that stores is idle, and for a lidar that
`GetIndex` finds. -/
def step (s : PollThreads Q α β) :
    PollEvent α → Except Blocked (PollThreads Q α β × Option (PollSeen α β))
  | .arrive i a =>
      match s.storing with
      | .idle =>
          if i < lidarCount then .ok ({ s with storing := .initQueue i a }, none)
          else .error .blocked
      | _ => .error .blocked
  | .store => s.store H
  | .poll => s.poll H p lidarCount
  | .connect i => .ok ({ s with sampling := Function.update s.sampling i true }, none)
  | .requestExit => .ok ({ s with requestExit := true }, none)
  | .setValue => .ok ({ s with exitSignal := true }, none)

/-! ## What a step does -/

/-- The steps of the thread that stores. -/
inductive StoreStep (s : PollThreads Q α β) :
    Option (PollSeen α β) → PollThreads Q α β → Prop
  | prepare {i : ℕ} {a : α} (next : s.storing = .initQueue i a) : StoreStep s none
      { s.setQueue i (H.prepare (s.queue i)) with storing := .queueIsFull i a }
  | refuse {i : ℕ} {a : α} (next : s.storing = .queueIsFull i a)
      (full : H.full (s.queue i) = true) :
      StoreStep s (some (.refused i a)) { s with storing := .getCount }
  | room {i : ℕ} {a : α} (next : s.storing = .queueIsFull i a)
      (full : H.full (s.queue i) = false) :
      StoreStep s none { s with storing := .queuePushAny i a }
  | write {i : ℕ} {a : α} (next : s.storing = .queuePushAny i a) : StoreStep s none
      { s.setQueue i (H.write (s.queue i) a) with storing := .wrIdx i a }
  | advance {i : ℕ} {a : α} (next : s.storing = .wrIdx i a) :
      StoreStep s (some (.stored i (H.kept a)))
        { s.setQueue i (H.advance (s.queue i)) with storing := .queueIsEmpty i }
  | gone {i : ℕ} (next : s.storing = .queueIsEmpty i) (empty : H.empty (s.queue i) = true) :
      StoreStep s none { s with storing := .idle }
  | waits {i : ℕ} (next : s.storing = .queueIsEmpty i) (empty : H.empty (s.queue i) = false) :
      StoreStep s none { s with storing := .getCount }
  | raised (next : s.storing = .getCount) (pos : 0 < s.semaphore) :
      StoreStep s none { s with storing := .idle }
  | lowered (next : s.storing = .getCount) (zero : s.semaphore = 0) :
      StoreStep s none { s with storing := .signal }
  | signal (next : s.storing = .signal) :
      StoreStep s none { s with semaphore := s.semaphore + 1, storing := .idle }

/-- The steps of the thread that publishes. -/
inductive PollStep (s : PollThreads Q α β) :
    Option (PollSeen α β) → PollThreads Q α β → Prop
  | exits (next : s.polling = .distribute) (exit : s.requestExit = true) :
      PollStep s none { s with polling := .future }
  | enters (next : s.polling = .distribute) (exit : s.requestExit = false) :
      PollStep s none { s with polling := .wait }
  | acquire (next : s.polling = .wait) (pos : 0 < s.semaphore) :
      PollStep s none { s with semaphore := s.semaphore - 1, polling := .lidar 0 }
  | swept {i : ℕ} (next : s.polling = .lidar i) (last : lidarCount ≤ i) :
      PollStep s none { s with polling := .future }
  | visit {i : ℕ} (next : s.polling = .lidar i) (lidar : i < lidarCount)
      (sampling : s.sampling i = true) : PollStep s none { s with polling := .polling i }
  | skip {i : ℕ} (next : s.polling = .lidar i) (lidar : i < lidarCount)
      (why : s.sampling i = false ∨ H.absent (s.queue i) = true) :
      PollStep s none { s with polling := .lidar (i + 1) }
  | found {i : ℕ} (next : s.polling = .polling i) (exit : s.requestExit = false)
      (empty : H.empty (s.queue i) = false) : PollStep s none { s with polling := .publish i }
  | leave {i : ℕ} (next : s.polling = .polling i)
      (why : s.requestExit = true ∨ H.empty (s.queue i) = true) :
      PollStep s none { s with polling := .lidar (i + 1) }
  | returns {i : ℕ} (next : s.polling = .publish i)
      (why : p = .nothing ∨ H.empty (s.queue i) = true) :
      PollStep s none { s with polling := .polling i }
  | misses {i : ℕ} (next : s.polling = .publish i) (empty : H.empty (s.queue i) = false)
      (item : H.peek (s.queue i) = none) : PollStep s none { s with polling := afterItem p i }
  | copy {i : ℕ} {b : β} (next : s.polling = .publish i) (takes : p ≠ .nothing)
      (empty : H.empty (s.queue i) = false) (item : H.peek (s.queue i) = some b) :
      PollStep s none { s with polling := .rdIdx i b }
  | drop {i : ℕ} {b : β} (next : s.polling = .rdIdx i b) : PollStep s (some (.taken i b))
      { s.setQueue i (H.drop (s.queue i)) with polling := afterItem p i }
  | ends (next : s.polling = .future) (signal : s.exitSignal = true) :
      PollStep s none { s with polling := .ended }
  | again (next : s.polling = .future) (signal : s.exitSignal = false) :
      PollStep s none { s with polling := .distribute }

/-- The steps. -/
inductive Steps (s : PollThreads Q α β) :
    PollEvent α → Option (PollSeen α β) → PollThreads Q α β → Prop
  | arrive {i : ℕ} {a : α} (idle : s.storing = .idle) (lidar : i < lidarCount) :
      Steps s (.arrive i a) none { s with storing := .initQueue i a }
  | store {o : Option (PollSeen α β)} {s' : PollThreads Q α β} (step : StoreStep H s o s') :
      Steps s .store o s'
  | poll {o : Option (PollSeen α β)} {s' : PollThreads Q α β}
      (step : PollStep H p lidarCount s o s') : Steps s .poll o s'
  | connect {i : ℕ} :
      Steps s (.connect i) none { s with sampling := Function.update s.sampling i true }
  | requestExit : Steps s .requestExit none { s with requestExit := true }
  | setValue : Steps s .setValue none { s with exitSignal := true }

variable {H p lidarCount} {s s' : PollThreads Q α β} {o : Option (PollSeen α β)}

lemma storeStep_of_store (h : s.store H = .ok (s', o)) : StoreStep H s o s' := by
  unfold store at h
  cases hnext : s.storing with
  | idle => simp only [hnext, reduceCtorEq] at h
  | initQueue i a =>
      simp only [hnext, Except.ok.injEq, Prod.mk.injEq] at h
      obtain ⟨rfl, rfl⟩ := h
      exact .prepare hnext
  | queueIsFull i a =>
      simp only [hnext] at h
      split_ifs at h with hfull
      · obtain ⟨rfl, rfl⟩ := Prod.mk.inj (Except.ok.inj h)
        exact .refuse hnext hfull
      · obtain ⟨rfl, rfl⟩ := Prod.mk.inj (Except.ok.inj h)
        exact .room hnext (by simpa using hfull)
  | queuePushAny i a =>
      simp only [hnext, Except.ok.injEq, Prod.mk.injEq] at h
      obtain ⟨rfl, rfl⟩ := h
      exact .write hnext
  | wrIdx i a =>
      simp only [hnext, Except.ok.injEq, Prod.mk.injEq] at h
      obtain ⟨rfl, rfl⟩ := h
      exact .advance hnext
  | queueIsEmpty i =>
      simp only [hnext, Except.ok.injEq, Prod.mk.injEq] at h
      obtain ⟨rfl, rfl⟩ := h
      split_ifs with hempty
      · exact .gone hnext hempty
      · exact .waits hnext (by simpa using hempty)
  | getCount =>
      simp only [hnext, Except.ok.injEq, Prod.mk.injEq] at h
      obtain ⟨rfl, rfl⟩ := h
      split_ifs with hpos
      · exact .raised hnext hpos
      · exact .lowered hnext (Nat.eq_zero_of_not_pos hpos)
  | signal =>
      simp only [hnext, Except.ok.injEq, Prod.mk.injEq] at h
      obtain ⟨rfl, rfl⟩ := h
      exact .signal hnext

lemma pollStep_of_poll (h : s.poll H p lidarCount = .ok (s', o)) :
    PollStep H p lidarCount s o s' := by
  unfold poll at h
  cases hnext : s.polling with
  | distribute =>
      simp only [hnext, Except.ok.injEq, Prod.mk.injEq] at h
      obtain ⟨rfl, rfl⟩ := h
      split_ifs with hexit
      · exact .exits hnext hexit
      · exact .enters hnext (by simpa using hexit)
  | wait =>
      simp only [hnext] at h
      split_ifs at h with hpos
      obtain ⟨rfl, rfl⟩ := Prod.mk.inj (Except.ok.inj h)
      exact .acquire hnext hpos
  | lidar i =>
      simp only [hnext] at h
      split_ifs at h with hlast hvisit
      · obtain ⟨rfl, rfl⟩ := Prod.mk.inj (Except.ok.inj h)
        exact .swept hnext hlast
      · obtain ⟨rfl, rfl⟩ := Prod.mk.inj (Except.ok.inj h)
        exact .visit hnext (not_le.mp hlast) (Bool.and_eq_true_iff.mp hvisit).1
      · obtain ⟨rfl, rfl⟩ := Prod.mk.inj (Except.ok.inj h)
        refine .skip hnext (not_le.mp hlast) ?_
        rw [Bool.not_eq_true, Bool.and_eq_false_iff] at hvisit
        exact hvisit.imp_right fun habsent => by simpa using habsent
  | polling i =>
      simp only [hnext] at h
      split_ifs at h with hfound
      · obtain ⟨rfl, rfl⟩ := Prod.mk.inj (Except.ok.inj h)
        rw [Bool.and_eq_true_iff] at hfound
        exact .found hnext (by simpa using hfound.1) (by simpa using hfound.2)
      · obtain ⟨rfl, rfl⟩ := Prod.mk.inj (Except.ok.inj h)
        refine .leave hnext ?_
        rw [Bool.not_eq_true, Bool.and_eq_false_iff] at hfound
        exact hfound.imp (fun hexit => by simpa using hexit) fun hempty => by simpa using hempty
  | publish i =>
      simp only [hnext] at h
      split_ifs at h with hreturns
      · obtain ⟨rfl, rfl⟩ := Prod.mk.inj (Except.ok.inj h)
        exact .returns hnext hreturns
      · rw [not_or, Bool.not_eq_true] at hreturns
        cases hpeek : H.peek (s.queue i) with
        | none =>
            simp only [hpeek, Except.ok.injEq, Prod.mk.injEq] at h
            obtain ⟨rfl, rfl⟩ := h
            exact .misses hnext hreturns.2 hpeek
        | some b =>
            simp only [hpeek, Except.ok.injEq, Prod.mk.injEq] at h
            obtain ⟨rfl, rfl⟩ := h
            exact .copy hnext hreturns.1 hreturns.2 hpeek
  | rdIdx i b =>
      simp only [hnext, Except.ok.injEq, Prod.mk.injEq] at h
      obtain ⟨rfl, rfl⟩ := h
      exact .drop hnext
  | future =>
      simp only [hnext, Except.ok.injEq, Prod.mk.injEq] at h
      obtain ⟨rfl, rfl⟩ := h
      split_ifs with hsignal
      · exact .ends hnext hsignal
      · exact .again hnext (by simpa using hsignal)
  | ended => simp only [hnext, reduceCtorEq] at h

/-- **What a step does.** -/
theorem steps_of_step {ev : PollEvent α} (h : s.step H p lidarCount ev = .ok (s', o)) :
    Steps H p lidarCount s ev o s' := by
  cases ev with
  | arrive i a =>
      unfold step at h
      cases hnext : s.storing with
      | idle =>
          simp only [hnext] at h
          split_ifs at h with hlidar
          obtain ⟨rfl, rfl⟩ := Prod.mk.inj (Except.ok.inj h)
          exact .arrive hnext hlidar
      | _ => simp only [hnext, reduceCtorEq] at h
  | store => exact .store (storeStep_of_store h)
  | poll => exact .poll (pollStep_of_poll h)
  | connect i =>
      obtain ⟨rfl, rfl⟩ := Prod.mk.inj (Except.ok.inj h)
      exact .connect
  | requestExit =>
      obtain ⟨rfl, rfl⟩ := Prod.mk.inj (Except.ok.inj h)
      exact .requestExit
  | setValue =>
      obtain ⟨rfl, rfl⟩ := Prod.mk.inj (Except.ok.inj h)
      exact .setValue

/-! ## Every item once and in order -/

/-- What a step adds to the items of a lidar. -/
def storedOf (i : ℕ) : Option (PollSeen α β) → List β
  | some (.stored j b) => if j = i then [b] else []
  | _ => []

/-- What a step takes of them. -/
def takenOf (i : ℕ) : Option (PollSeen α β) → List β
  | some (.taken j b) => if j = i then [b] else []
  | _ => []

/-- The queues hold the items `l`, and what each thread has found out still stands. -/
structure Sound (H : HandoffQueue Q α β) (s : PollThreads Q α β) (l : ℕ → List β) : Prop where
  holds : ∀ i, H.Holds (s.queue i) (l i)
  prepared : ∀ i a, s.storing = .queueIsFull i a → H.absent (s.queue i) = false
  room : ∀ i a, s.storing = .queuePushAny i a →
    H.absent (s.queue i) = false ∧ H.full (s.queue i) = false
  written : ∀ i a, s.storing = .wrIdx i a → H.Written (s.queue i) (l i) (H.kept a)
  copied : ∀ i b, s.polling = .rdIdx i b → (l i).head? = some b

variable {l : ℕ → List β}

lemma sound_start (H : HandoffQueue Q α β) : Sound H (start H) fun _ => [] :=
  ⟨fun _ => H.holds_init, nofun, nofun, nofun, nofun⟩

@[simp] lemma setQueue_queue_self (s : PollThreads Q α β) (i : ℕ) (q : Q) :
    (s.setQueue i q).queue i = q := Function.update_self ..

lemma setQueue_queue_of_ne (s : PollThreads Q α β) {i j : ℕ} (hj : j ≠ i) (q : Q) :
    (s.setQueue i q).queue j = s.queue j := Function.update_of_ne hj ..

/-- One queue changes. -/
lemma Sound.holds_setQueue (h : Sound H s l) (i : ℕ) {q : Q} {k : List β} (hq : H.Holds q k)
    (j : ℕ) : H.Holds ((s.setQueue i q).queue j) (Function.update l i k j) := by
  by_cases hj : j = i
  · rw [hj, setQueue_queue_self, Function.update_self]
    exact hq
  · rw [setQueue_queue_of_ne s hj, Function.update_of_ne hj]
    exact h.holds j

/-- **A step of the thread that stores.** -/
lemma Sound.store (h : Sound H s l) (hstep : StoreStep H s o s') :
    ∃ l', Sound H s' l' ∧ ∀ i, l i ++ storedOf i o = takenOf i o ++ l' i := by
  have hsame : ∀ i, l i ++ [] = [] ++ l i := fun i => List.append_nil _
  cases hstep with
  | @prepare i a next =>
      have hholds := h.holds_setQueue i (H.holds_prepare (h.holds i))
      rw [Function.update_eq_self] at hholds
      refine ⟨l, ⟨hholds, ?_, nofun, nofun, h.copied⟩, hsame⟩
      rintro j a' ⟨⟩
      rw [setQueue_queue_self]
      exact H.absent_prepare (h.holds i)
  | refuse next full => exact ⟨l, ⟨h.holds, nofun, nofun, nofun, h.copied⟩, hsame⟩
  | @room i a next full =>
      refine ⟨l, ⟨h.holds, nofun, ?_, nofun, h.copied⟩, hsame⟩
      rintro j a' ⟨⟩
      exact ⟨h.prepared i a next, full⟩
  | @write i a next =>
      obtain ⟨habsent, hfull⟩ := h.room i a next
      have hwritten := H.written (a := a) (h.holds i) habsent hfull
      have hholds := h.holds_setQueue i (H.holds_written hwritten)
      rw [Function.update_eq_self] at hholds
      refine ⟨l, ⟨hholds, nofun, nofun, ?_, h.copied⟩, hsame⟩
      rintro j a' ⟨⟩
      rw [setQueue_queue_self]
      exact hwritten
  | @advance i a next =>
      have hholds := h.holds_setQueue i (H.advance_holds (h.written i a next))
      refine ⟨_, ⟨hholds, nofun, nofun, nofun, fun j b hb => ?_⟩, fun j => ?_⟩
      · have hhead := h.copied j b hb
        by_cases hj : j = i
        · rw [hj] at hhead ⊢
          rw [Function.update_self, List.head?_append, hhead, Option.some_or]
        · rwa [Function.update_of_ne hj]
      · show l j ++ (if i = j then _ else _) = Function.update l i _ j
        by_cases hj : j = i
        · rw [hj, Function.update_self, if_pos rfl]
        · rw [Function.update_of_ne hj, if_neg (Ne.symm hj), List.append_nil]
  | gone next empty => exact ⟨l, ⟨h.holds, nofun, nofun, nofun, h.copied⟩, hsame⟩
  | waits next empty => exact ⟨l, ⟨h.holds, nofun, nofun, nofun, h.copied⟩, hsame⟩
  | raised next pos => exact ⟨l, ⟨h.holds, nofun, nofun, nofun, h.copied⟩, hsame⟩
  | lowered next zero => exact ⟨l, ⟨h.holds, nofun, nofun, nofun, h.copied⟩, hsame⟩
  | signal next => exact ⟨l, ⟨h.holds, nofun, nofun, nofun, h.copied⟩, hsame⟩

/-- The thread that publishes goes on to something else than dropping an item. -/
lemma Sound.goes (h : Sound H s l) {next : Polling β} (hnext : ∀ i b, next ≠ .rdIdx i b) :
    Sound H { s with polling := next } l :=
  ⟨h.holds, h.prepared, h.room, h.written, fun i b hb => absurd hb (hnext i b)⟩

lemma afterItem_ne (p : Publishing) (i j : ℕ) (b : β) : afterItem p i ≠ .rdIdx j b := by
  unfold afterItem
  split_ifs <;> exact nofun

/-- **An item is dropped.**  The thread that stores may be anywhere, also about to count the item
behind it. -/
lemma Sound.drop (h : Sound H s l) {i : ℕ} {b : β} (hb : s.polling = .rdIdx i b) :
    Sound H { s.setQueue i (H.drop (s.queue i)) with polling := afterItem p i }
      (Function.update l i (l i).tail) ∧
      ∀ j, l j = (if i = j then [b] else []) ++ Function.update l i (l i).tail j := by
  obtain ⟨k, hk⟩ := List.head?_eq_some_iff.mp (h.copied i b hb)
  have hqueue := hk ▸ h.holds i
  have hother : ∀ j, j ≠ i → (s.setQueue i (H.drop (s.queue i))).queue j = s.queue j :=
    fun j hj => s.setQueue_queue_of_ne hj _
  rw [hk, List.tail_cons]
  refine ⟨⟨h.holds_setQueue i (H.drop_holds hqueue), fun j a hj => ?_, fun j a hj => ?_,
    fun j a hj => ?_, fun j b' hb' => absurd hb' (afterItem_ne p i j b')⟩, fun j => ?_⟩
  · by_cases hji : j = i
    · rw [hji]
      show H.absent ((s.setQueue i _).queue i) = false
      rw [setQueue_queue_self]
      exact H.drop_absent hqueue
    · show H.absent ((s.setQueue i _).queue j) = false
      rw [hother j hji]
      exact h.prepared j a hj
  · by_cases hji : j = i
    · have hfull := (h.room j a hj).2
      rw [hji] at hfull ⊢
      show H.absent ((s.setQueue i _).queue i) = false ∧ H.full ((s.setQueue i _).queue i) = false
      rw [setQueue_queue_self]
      exact ⟨H.drop_absent hqueue, H.drop_full hqueue hfull⟩
    · show H.absent ((s.setQueue i _).queue j) = false ∧ H.full ((s.setQueue i _).queue j) = false
      rw [hother j hji]
      exact h.room j a hj
  · by_cases hji : j = i
    · have hwritten := h.written j a hj
      rw [hji, hk] at hwritten
      rw [hji, Function.update_self]
      show H.Written ((s.setQueue i _).queue i) k (H.kept a)
      rw [setQueue_queue_self]
      exact H.drop_written hwritten
    · rw [Function.update_of_ne hji]
      show H.Written ((s.setQueue i _).queue j) (l j) (H.kept a)
      rw [hother j hji]
      exact h.written j a hj
  · by_cases hji : j = i
    · rw [hji, Function.update_self, if_pos rfl, hk, List.singleton_append]
    · rw [Function.update_of_ne hji, if_neg (Ne.symm hji), List.nil_append]

/-- **A step of the thread that publishes.** -/
lemma Sound.poll (h : Sound H s l) (hstep : PollStep H p lidarCount s o s') :
    ∃ l', Sound H s' l' ∧ ∀ i, l i ++ storedOf i o = takenOf i o ++ l' i := by
  have hsame : ∀ i, l i ++ [] = [] ++ l i := fun i => List.append_nil _
  cases hstep with
  | acquire next pos =>
      exact ⟨l, ⟨h.holds, h.prepared, h.room, h.written, nofun⟩, hsame⟩
  | @copy i b next takes empty item =>
      refine ⟨l, ⟨h.holds, h.prepared, h.room, h.written, ?_⟩, hsame⟩
      rintro j b' ⟨⟩
      cases hl : l i with
      | nil => exact absurd ((H.empty_iff (h.holds i)).mpr hl) (by simp [empty])
      | cons c k =>
          have hpeek := H.peek_eq (hl ▸ h.holds i)
          rw [List.head?_cons, ← hpeek, item]
  | @drop i b next =>
      obtain ⟨hsound, hbalance⟩ := h.drop (p := p) next
      exact ⟨_, hsound, fun j => (List.append_nil _).trans (hbalance j)⟩
  | misses next empty item => exact ⟨l, h.goes (afterItem_ne p _), hsame⟩
  | _ => exact ⟨l, h.goes nofun, hsame⟩

/-- **A step** keeps the queues sound, and what it adds and takes balances them. -/
lemma Sound.step (h : Sound H s l) {ev : PollEvent α} (hstep : Steps H p lidarCount s ev o s') :
    ∃ l', Sound H s' l' ∧ ∀ i, l i ++ storedOf i o = takenOf i o ++ l' i := by
  have hsame : ∀ i, l i ++ [] = [] ++ l i := fun i => List.append_nil _
  cases hstep with
  | arrive idle lidar => exact ⟨l, ⟨h.holds, nofun, nofun, nofun, h.copied⟩, hsame⟩
  | store step => exact h.store step
  | poll step => exact h.poll step
  | connect => exact ⟨l, ⟨h.holds, h.prepared, h.room, h.written, h.copied⟩, hsame⟩
  | requestExit => exact ⟨l, ⟨h.holds, h.prepared, h.room, h.written, h.copied⟩, hsame⟩
  | setValue => exact ⟨l, ⟨h.holds, h.prepared, h.room, h.written, h.copied⟩, hsame⟩

end PollThreads

end FastLivo2
