import FastLivo2.Lib.Exec

/-!
# Frames the camera drops

The camera driver counts the frames it loses.  Each buffer that `v4l2src` pushes is counted where it
enters the pipeline (`GstBackend::on_src_push`).  At the other end an `appsink` keeps the newest
buffer only (`max-buffers=1`, `drop=TRUE`), from which `EconRos2Driver::loop` takes one with
`GstBackend::grab`.  After each grab the loop compares the pushes since the last one with the one
frame it has.

The two ends are not read at the same moment: between them are the frames on their way.  The module
follows every order of pushes, deliveries and grabs.  The counters, of 64 bits each, are natural
numbers here.
-/

namespace FastLivo2

/-- The pipeline and the counters of the loop; a frame is called by the number of its push. -/
structure EconRos2Driver where
  nPush : ℕ := 0
  /-- The frames between the source and the sink, oldest first. -/
  pipe : List ℕ := []
  /-- The buffer of the `appsink`. -/
  sink : Option ℕ := none
  /-- The frame of a grab that has returned and has not been accounted for. -/
  frame : Option ℕ := none
  nPull : ℕ := 0
  lastPushSeen : ℕ := 0
  totalDrops : ℕ := 0
  /-- The frames that a newer one has replaced in the sink (ghost data). -/
  superseded : List ℕ := []
  /-- The frames of samples that could not be mapped (ghost data). -/
  discarded : List ℕ := []
  deriving DecidableEq, Repr

inductive CameraEvent
  /-- The source pushes a buffer. -/
  | push
  /-- The oldest frame in the pipeline reaches the sink. -/
  | deliver
  /-- `grab` returns; `mapped` is whether the sample it has pulled, if any, can be mapped. -/
  | grab (mapped : Bool)
  /-- The rest of the loop: `push_count`, the accounting, `publish` and `release`. -/
  | account
  deriving DecidableEq, Repr

/-- The pipeline or the loop is not at this step. -/
inductive CameraFault
  | nothingToDeliver
  | grabbing
  | notGrabbing
  deriving DecidableEq, Repr

namespace EconRos2Driver

/-- The drop accounting, where `push_count` returns `pushNow`. -/
def accountDrops (pushNow : ℕ) (s : EconRos2Driver) : EconRos2Driver :=
  let pushedSince := pushNow - s.lastPushSeen
  { s with
    nPull := s.nPull + 1
    lastPushSeen := pushNow
    totalDrops := if 1 < pushedSince then s.totalDrops + (pushedSince - 1) else s.totalDrops }

/-- One step; the observation is the frame published. -/
def step (s : EconRos2Driver) : CameraEvent → Except CameraFault (EconRos2Driver × Option ℕ)
  | .push => .ok ({ s with nPush := s.nPush + 1, pipe := s.pipe ++ [s.nPush] }, none)
  | .deliver =>
      match s.pipe with
      | [] => .error .nothingToDeliver
      | f :: pipe =>
          .ok ({ s with pipe := pipe, sink := some f,
                        superseded := s.superseded ++ s.sink.toList }, none)
  | .grab mapped =>
      match s.frame, s.sink with
      | some _, _ => .error .grabbing
      | none, none => .ok (s, none)
      | none, some f =>
          if mapped then .ok ({ s with sink := none, frame := some f }, none)
          else .ok ({ s with sink := none, discarded := s.discarded ++ [f] }, none)
  | .account =>
      match s.frame with
      | none => .error .notGrabbing
      | some f => .ok ({ s.accountDrops s.nPush with frame := none }, some f)

/-- The driver before its first frame. -/
def initial : EconRos2Driver := {}

/-- No frame is on its way. -/
def Drained (s : EconRos2Driver) : Prop := s.pipe = [] ∧ s.sink = none

end EconRos2Driver

abbrev CameraTurn := Turn EconRos2Driver CameraEvent (Option ℕ)

namespace EconRos2Driver

/-- The step ends a turn of the loop. -/
def EndsLoop (x : CameraTurn) : Prop :=
  x.event = .account ∨ (∃ mapped, x.event = .grab mapped) ∧ x.post.frame = none

/-- The counter is never ahead of the frames that were superseded, and agrees with them where a turn
of the loop ends and no frame is on its way. -/
def Counts (tr : List CameraTurn) : Prop :=
  ∀ x ∈ tr, x.post.totalDrops ≤ x.post.superseded.length ∧
    (EndsLoop x → x.post.Drained → x.post.totalDrops = x.post.superseded.length)

/-- No frame is on its way when the loop does its accounting, and no sample is discarded. -/
def Settled (x : CameraTurn) : Prop :=
  (x.event = .account → x.pre.Drained) ∧ (x.event = .grab false → x.pre.sink = none)

instance (s : EconRos2Driver) : Decidable s.Drained := inferInstanceAs (Decidable (_ ∧ _))

instance (x : CameraTurn) : Decidable (Settled x) := inferInstanceAs (Decidable ((_ → _) ∧ (_ → _)))

/-! ## What a step does -/

variable {s t : EconRos2Driver} {e : CameraEvent} {o : Option ℕ}

lemma account_eq (hstep : step s .account = .ok (t, o)) :
    ∃ f, s.frame = some f ∧ t = { s.accountDrops s.nPush with frame := none } := by
  cases hframe : s.frame with
  | none => simp [step, hframe] at hstep
  | some f =>
      rw [step, hframe] at hstep
      have ht := congrArg Prod.fst (Except.ok.inj hstep)
      exact ⟨f, rfl, ht.symm⟩

/-- A sample is taken out of the sink by a grab, and only then. -/
lemma step_cases (hstep : step s e = .ok (t, o)) :
    (e = .push ∧ t = { s with nPush := s.nPush + 1, pipe := s.pipe ++ [s.nPush] }) ∨
    (e = .deliver ∧ ∃ f pipe, s.pipe = f :: pipe ∧
      t = { s with pipe := pipe, sink := some f, superseded := s.superseded ++ s.sink.toList }) ∨
    (∃ mapped, e = .grab mapped ∧ s.frame = none ∧ s.sink = none ∧ t = s) ∨
    (e = .grab true ∧ s.frame = none ∧ ∃ f, s.sink = some f ∧
      t = { s with sink := none, frame := some f }) ∨
    (e = .grab false ∧ s.frame = none ∧ ∃ f, s.sink = some f ∧
      t = { s with sink := none, discarded := s.discarded ++ [f] }) ∨
    (e = .account ∧ ∃ f, s.frame = some f ∧ t = { s.accountDrops s.nPush with frame := none }) := by
  cases e with
  | push =>
      have ht := congrArg Prod.fst (Except.ok.inj hstep)
      exact .inl ⟨rfl, ht.symm⟩
  | deliver =>
      cases hpipe : s.pipe with
      | nil => simp [step, hpipe] at hstep
      | cons f pipe =>
          rw [step, hpipe] at hstep
          have ht := congrArg Prod.fst (Except.ok.inj hstep)
          exact .inr (.inl ⟨rfl, f, pipe, rfl, ht.symm⟩)
  | grab mapped =>
      cases hframe : s.frame with
      | some f => simp [step, hframe] at hstep
      | none =>
          cases hsink : s.sink with
          | none =>
              rw [step, hframe, hsink] at hstep
              have ht := congrArg Prod.fst (Except.ok.inj hstep)
              exact .inr (.inr (.inl ⟨mapped, rfl, rfl, rfl, ht.symm⟩))
          | some f =>
              rw [step, hframe, hsink] at hstep
              cases mapped with
              | true =>
                  have ht := congrArg Prod.fst (Except.ok.inj hstep)
                  exact .inr (.inr (.inr (.inl ⟨rfl, rfl, f, rfl, ht.symm⟩)))
              | false =>
                  have ht := congrArg Prod.fst (Except.ok.inj hstep)
                  exact .inr (.inr (.inr (.inr (.inl ⟨rfl, rfl, f, rfl, ht.symm⟩))))
  | account => exact .inr (.inr (.inr (.inr (.inr ⟨rfl, account_eq hstep⟩))))

/-! ## Where the frames are -/

/-- The frames that have left the source and are not accounted for by the loop. -/
def underway (s : EconRos2Driver) : ℕ :=
  s.pipe.length + s.sink.toList.length + s.frame.toList.length

/-- What holds of every run. -/
structure Balanced (s : EconRos2Driver) : Prop where
  /-- A frame is underway, superseded, discarded or published. -/
  frames : s.nPush = s.underway + s.superseded.length + s.discarded.length + s.nPull
  /-- The loop counts no fewer frames than it has seen pushed. -/
  seen : s.lastPushSeen ≤ s.totalDrops + s.nPull
  /-- A frame pushed since the last accounting is underway, or the newest one was discarded. -/
  newest : s.lastPushSeen < s.nPush → 0 < s.underway ∨ s.discarded ≠ []

lemma balanced_initial : Balanced initial where
  frames := rfl
  seen := le_rfl
  newest := fun h => absurd h (lt_irrefl 0)

/-- **Step lemma.** -/
lemma Balanced.step (h : Balanced s) (hstep : EconRos2Driver.step s e = .ok (t, o)) :
    Balanced t := by
  have hframes := h.frames
  have hseen := h.seen
  simp only [underway] at hframes
  obtain ⟨-, rfl⟩ | ⟨-, f, pipe, hpipe, rfl⟩ | ⟨-, -, -, -, rfl⟩ | ⟨-, hframe, f, hsink, rfl⟩ |
    ⟨-, hframe, f, hsink, rfl⟩ | ⟨-, f, hframe, rfl⟩ := step_cases hstep
  · refine ⟨?_, hseen, fun _ => .inl ?_⟩ <;>
      simp only [underway, List.length_append, List.length_singleton] <;> omega
  · rw [hpipe, List.length_cons] at hframes
    refine ⟨?_, hseen, fun _ => .inl ?_⟩ <;>
      simp only [underway, List.length_append, Option.toList_some, List.length_singleton] <;> omega
  · exact h
  · simp only [hframe, hsink, Option.toList_some, Option.toList_none, List.length_nil,
      List.length_singleton] at hframes
    refine ⟨?_, hseen, fun _ => .inl ?_⟩ <;>
      simp only [underway, Option.toList_some, Option.toList_none, List.length_nil,
        List.length_singleton] <;> omega
  · simp only [hframe, hsink, Option.toList_some, Option.toList_none, List.length_nil,
      List.length_singleton] at hframes
    refine ⟨?_, hseen, fun _ => .inr (by simp)⟩
    simp only [underway, hframe, Option.toList_none, List.length_nil, List.length_append,
      List.length_singleton]
    omega
  · simp only [hframe, Option.toList_some, List.length_singleton] at hframes
    refine ⟨?_, ?_, fun hlt => absurd hlt (lt_irrefl _)⟩
    · simp only [underway, accountDrops, Option.toList_none, List.length_nil]
      omega
    · simp only [accountDrops]
      split_ifs <;> omega

/-- What the accounting counts besides the frames superseded: those on their way, and those
discarded. -/
lemma le_totalDrops_of_account (h : Balanced s)
    (hstep : EconRos2Driver.step s .account = .ok (t, o)) :
    t.superseded.length + (s.pipe.length + s.sink.toList.length + s.discarded.length) ≤
      t.totalDrops := by
  have hpost := h.step hstep
  have hframes := hpost.frames
  have hseen := hpost.seen
  obtain ⟨f, hframe, rfl⟩ := account_eq hstep
  simp only [underway, accountDrops, Option.toList_none, List.length_nil] at hframes hseen ⊢
  omega

/-! ## Settled runs -/

/-- What holds while no frame is on its way at any accounting and none is discarded. -/
structure Exact (s : EconRos2Driver) : Prop where
  discarded : s.discarded = []
  seen : s.lastPushSeen = s.totalDrops + s.nPull
  /-- The frames seen were superseded or published. -/
  past : s.lastPushSeen ≤ s.superseded.length + s.nPull

lemma exact_initial : Exact initial := ⟨rfl, rfl, le_rfl⟩

/-- **Step lemma.** -/
lemma Exact.step (h : Exact s) (hb : Balanced s) (hstep : EconRos2Driver.step s e = .ok (t, o))
    (hsettled : Settled ⟨s, e, o, t⟩) : Exact t := by
  have hseen := h.seen
  have hpast := h.past
  have hframes := hb.frames
  obtain ⟨-, rfl⟩ | ⟨-, f, pipe, hpipe, rfl⟩ | ⟨-, -, -, -, rfl⟩ | ⟨-, hframe, f, hsink, rfl⟩ |
    ⟨rfl, hframe, f, hsink, rfl⟩ | ⟨rfl, f, hframe, rfl⟩ := step_cases hstep
  · exact ⟨h.discarded, hseen, hpast⟩
  · refine ⟨h.discarded, hseen, ?_⟩
    simp only [List.length_append]
    omega
  · exact h
  · exact ⟨h.discarded, hseen, hpast⟩
  · have hnone : s.sink = none := hsettled.2 rfl
    rw [hsink] at hnone
    cases hnone
  · obtain ⟨hpipe, hsink⟩ : s.Drained := hsettled.1 rfl
    -- the frame in hand was pushed after the last accounting
    simp only [underway, hpipe, hsink, hframe, h.discarded, Option.toList_none, Option.toList_some,
      List.length_nil, List.length_singleton] at hframes
    refine ⟨h.discarded, ?_, ?_⟩
    · simp only [accountDrops]
      split_ifs <;> omega
    · simp only [accountDrops]
      omega

/-- The counter agrees with the frames superseded where a turn of the loop ends. -/
lemma Exact.counts (h : Exact t) (hb : Balanced t) :
    t.totalDrops ≤ t.superseded.length ∧
      (t.frame = none → t.Drained → t.totalDrops = t.superseded.length) := by
  have hseen := h.seen
  have hpast := h.past
  refine ⟨by omega, ?_⟩
  rintro hframe ⟨hpipe, hsink⟩
  have hframes := hb.frames
  have hunderway : t.underway = 0 := by simp [underway, hpipe, hsink, hframe]
  have hnewest : ¬ t.lastPushSeen < t.nPush := fun hlt => by
    obtain hpos | hdiscarded := hb.newest hlt
    · omega
    · exact hdiscarded h.discarded
  rw [hunderway, h.discarded, List.length_nil] at hframes
  omega

/-- A turn of the loop ends with no frame in hand. -/
lemma EndsLoop.frame_eq_none {x : CameraTurn} (h : EndsLoop x) (hx : x.Taken EconRos2Driver.step) :
    x.post.frame = none := by
  obtain he | ⟨-, hframe⟩ := h
  · have hstep : EconRos2Driver.step x.pre x.event = .ok (x.post, x.obs) := hx
    rw [he] at hstep
    obtain ⟨f, -, ht⟩ := account_eq hstep
    rw [ht]
  · exact hframe

lemma balanced_of_exec {tr : List CameraTurn} (h : Exec EconRos2Driver.step initial tr t) :
    ∀ x ∈ tr, Balanced x.pre :=
  fun x hx => ((h.invariant (C := fun _ => True) (I := Balanced) balanced_initial
    (fun _ hx _ hb => hb.step hx) fun _ _ => trivial).2 x hx).1

/-- **Drop accounting.**  The counter is right throughout a run in which no frame is on its way at
any accounting and no sample is discarded; and it is not unless at every accounting no frame is on
its way and none has been discarded. -/
theorem counts_of_settled {tr : List CameraTurn} (h : Exec EconRos2Driver.step initial tr t) :
    ((∀ x ∈ tr, Settled x) → Counts tr) ∧
      (Counts tr → ∀ x ∈ tr, x.event = .account → x.pre.Drained ∧ x.pre.discarded = []) := by
  constructor
  · intro hsettled x hx
    have hinv := h.invariant (C := Settled) (I := fun s => Balanced s ∧ Exact s)
      ⟨balanced_initial, exact_initial⟩ ?_ hsettled
    · obtain ⟨hb, he⟩ := (hinv.2 x hx).2
      have hcounts := he.counts hb
      exact ⟨hcounts.1, fun hends => hcounts.2 (hends.frame_eq_none (h.taken x hx))⟩
    · rintro y hy hsettled' ⟨hb, he⟩
      exact ⟨hb.step hy, he.step hb hy hsettled'⟩
  · intro hcounts x hx he
    have hstep : EconRos2Driver.step x.pre x.event = .ok (x.post, x.obs) := h.taken x hx
    rw [he] at hstep
    have hle := le_totalDrops_of_account (balanced_of_exec h x hx) hstep
    have hge := (hcounts x hx).1
    have hpipe : x.pre.pipe.length = 0 := by omega
    have hsink : x.pre.sink.toList.length = 0 := by omega
    have hdiscarded : x.pre.discarded.length = 0 := by omega
    refine ⟨⟨List.length_eq_zero_iff.mp hpipe, ?_⟩, List.length_eq_zero_iff.mp hdiscarded⟩
    exact Option.toList_eq_nil_iff.mp (List.length_eq_zero_iff.mp hsink)

/-- Three frames, the second of which is superseded while the first is being published. -/
def slowLoop : List CameraEvent :=
  [.push, .deliver, .grab true, .account, .push, .deliver, .push, .deliver, .grab true, .account,
    .grab true]

/-- It is the one drop that is counted. -/
theorem slowLoop_counts :
    (trace step slowLoop initial).2.totalDrops = 1 ∧ Counts (trace step slowLoop initial).1 :=
  ⟨by decide, (counts_of_settled (Exec.of_trace slowLoop initial)).1 (by decide)⟩

/-- The second frame is pushed while the loop has the first. -/
def latency : List CameraEvent :=
  [.push, .deliver, .grab true, .push, .account, .deliver, .grab true, .account, .grab true]

/-- Both frames are published and one is counted as dropped, to the end of the run. -/
theorem latency_miscounts :
    Exec step initial (trace step latency initial).1 (trace step latency initial).2 ∧
    (trace step latency initial).1.filterMap Turn.obs = [0, 1] ∧
    (trace step latency initial).2.totalDrops = 1 ∧
    (trace step latency initial).2.superseded = [] ∧
    ¬ Counts (trace step latency initial).1 := by
  refine ⟨Exec.of_trace _ _, by decide, by decide, by decide, fun h => ?_⟩
  have hle := (h ((trace step latency initial).1.get ⟨4, by decide⟩) (List.get_mem _ _)).1
  exact absurd hle (by decide)

end EconRos2Driver

end FastLivo2
