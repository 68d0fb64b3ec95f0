import FastLivo2.CameraDrops

/-!
# The capture stamp of an image

The flight recorder of the camera driver keeps, for each image published, when it was captured and
when the loop got hold of it.  The time of capture is read by a probe where the buffers leave
`v4l2src`, and stored in one variable for all of them (`GstBackend::t_push_ns_`).  The loop reads
the variable in `EconRos2Driver::publish`, for the frame it has pulled at the other end of the
pipeline.

The pipeline is the one of `EconRos2Driver`.  The module follows what `publish` does after the
accounting of the loop: it reads the stamp with `log_cbk`, publishes, and completes the record with
`log_pub`.
-/

namespace FastLivo2

structure ImagePubRecord where
  seq : UInt64
  headerStamp : UInt64
  tCaptureNs : UInt64
  tCbkNs : UInt64
  tPubNs : UInt64
  capDone : UInt8
  rosDone : UInt8
  deriving DecidableEq, Repr, Inhabited

/-- The box of the camera driver, which one thread writes to.  `base` is null when `fd` is not
open. -/
structure ImageBox where
  base : Option (List ImagePubRecord) := none
  idx : UInt64 := 0
  seq : UInt64 := 0
  deriving DecidableEq, Repr

namespace ImageBox

/-- `kBufN`. -/
def kBufN : UInt64 := 1048576

/-- `log_cbk`, with the index that it returns unless it is `SIZE_MAX`. -/
def logCbk (headerStamp tCapture now : UInt64) (b : ImageBox) :
    ImageBox × Option (ℕ × ImagePubRecord) :=
  match b.base with
  | none => (b, none)
  | some slots =>
      if b.idx < kBufN then
        let r : ImagePubRecord := ⟨b.seq + 1, headerStamp, tCapture, now, 0, 1, 0⟩
        ({ b with base := some (slots.set b.idx.toNat r), idx := b.idx + 1, seq := b.seq + 1 },
          some (b.idx.toNat, r))
      else ({ b with idx := b.idx + 1 }, none)

/-- `log_pub`. -/
def logPub (i : Option ℕ) (now : UInt64) (b : ImageBox) : ImageBox :=
  match b.base, i with
  | some slots, some i =>
      { b with base := some (slots.modify i fun r => { r with tPubNs := now, rosDone := 1 }) }
  | _, _ => b

end ImageBox

/-- Where the loop is. -/
inductive PublishStage
  /-- In `grab`, or before the accounting. -/
  | grabbing
  /-- In `publish` with a frame. -/
  | publishing (f : ℕ)
  /-- The frame is published; the index is that of its record. -/
  | published (i : Option ℕ)
  deriving DecidableEq, Repr

/-- The parameters of the driver that `publish` reads. -/
structure PublishParams where
  compressed : Bool
  expectedSize : ℕ
  deriving DecidableEq, Repr

/-- The driver with the stamp of its backend and the box. -/
structure StampedDriver where
  driver : EconRos2Driver := {}
  /-- `GstBackend::t_push_ns_`. -/
  tPushNs : UInt64 := 0
  stage : PublishStage := .grabbing
  box : ImageBox := {}
  /-- The clock when each buffer was pushed, by the number of the push (ghost data). -/
  pushTimes : List UInt64 := []
  deriving DecidableEq, Repr

inductive CaptureEvent
  /-- The source pushes a buffer, and `on_src_push` reads the clock. -/
  | push (now : UInt64)
  | deliver
  | grab (mapped : Bool)
  /-- The accounting of the loop. -/
  | account
  /-- `publish` up to `log_cbk`: the low edge that the stamper has read, the ROS time, the size of
  the frame and the clock. -/
  | logCbk (lowNs rosNow : Int64) (size : ℕ) (now : UInt64)
  /-- The rest of `publish`, and `release`. -/
  | logPub (now : UInt64)
  deriving DecidableEq, Repr

namespace StampedDriver

/-- The pipeline or the loop takes a step of its own. -/
def onDriver (s : StampedDriver) (e : CameraEvent) :
    Except CameraFault (StampedDriver × Option ℕ) :=
  match s.driver.step e with
  | .error f => .error f
  | .ok (d, o) => .ok ({ s with driver := d }, o)

/-- The time stamp of the header. -/
def headerStamp (lowNs rosNow : Int64) : UInt64 :=
  (if 0 < lowNs then lowNs else rosNow).toUInt64

/-- One step; the observation is a frame whose record is stored, with the record. -/
def step (p : PublishParams) (s : StampedDriver) :
    CaptureEvent → Except CameraFault (StampedDriver × Option (ℕ × ImagePubRecord))
  | .push now =>
      match s.onDriver .push with
      | .error f => .error f
      | .ok (s, _) => .ok ({ s with tPushNs := now, pushTimes := s.pushTimes ++ [now] }, none)
  | .deliver =>
      match s.onDriver .deliver with
      | .error f => .error f
      | .ok (s, _) => .ok (s, none)
  | .grab mapped =>
      match s.stage with
      | .grabbing =>
          match s.onDriver (.grab mapped) with
          | .error f => .error f
          | .ok (s, _) => .ok (s, none)
      | _ => .error .notGrabbing
  | .account =>
      match s.stage with
      | .grabbing =>
          match s.onDriver .account with
          | .error f => .error f
          | .ok (s, none) => .ok (s, none)
          | .ok (s, some f) => .ok ({ s with stage := .publishing f }, none)
      | _ => .error .notGrabbing
  | .logCbk lowNs rosNow size now =>
      match s.stage with
      | .publishing f =>
          -- a raw frame that is too small is not published
          if p.compressed = false ∧ size < p.expectedSize then
            .ok ({ s with stage := .grabbing }, none)
          else
            let (box, r) := s.box.logCbk (headerStamp lowNs rosNow) s.tPushNs now
            .ok ({ s with box := box, stage := .published (r.map Prod.fst) },
              r.map fun r => (f, r.2))
      | _ => .error .grabbing
  | .logPub now =>
      match s.stage with
      | .published i => .ok ({ s with box := s.box.logPub i now, stage := .grabbing }, none)
      | _ => .error .grabbing

/-- The driver before its first frame, with the box `b`. -/
def initial (b : ImageBox) : StampedDriver := { box := b }

end StampedDriver

abbrev CaptureTurn := Turn StampedDriver CaptureEvent (Option (ℕ × ImagePubRecord))

namespace StampedDriver

/-- The span from the capture to the loop, as the analysis takes it from a record. -/
def captureToCbk (r : ImagePubRecord) : UInt64 := r.tCbkNs - r.tCaptureNs

/-- A record stored in the turn has the push time of its own frame, and so its latency. -/
def Identified (x : CaptureTurn) : Prop :=
  ∀ f r, x.obs = some (f, r) → ∃ t, x.pre.pushTimes[f]? = some t ∧
    r.tCaptureNs = t ∧ captureToCbk r = r.tCbkNs - t

/-- No buffer has been pushed after the frame whose record is stored, or the clock stood for the
last of them where it did for the frame. -/
def Undisturbed (x : CaptureTurn) : Prop :=
  ∀ y ∈ x.obs, x.pre.pushTimes.length = y.1 + 1 ∨
    x.pre.pushTimes.getLast? = x.pre.pushTimes[y.1]?

instance (x : CaptureTurn) : Decidable (Undisturbed x) :=
  inferInstanceAs (Decidable (∀ y ∈ x.obs, _ ∨ _))

/-! ## The pipeline -/

end StampedDriver

namespace EconRos2Driver

variable {s t : EconRos2Driver} {e : CameraEvent} {o : Option ℕ}

/-- The frames of the pipeline and the one that the loop has taken. -/
def held (s : EconRos2Driver) : List ℕ := s.pipe ++ s.sink.toList ++ s.frame.toList

lemma mem_held {f : ℕ} : f ∈ s.held ↔ f ∈ s.pipe ∨ s.sink = some f ∨ s.frame = some f := by
  simp [held]

lemma nPush_of_step (hstep : step s e = .ok (t, o)) :
    t.nPush = if e = .push then s.nPush + 1 else s.nPush := by
  obtain ⟨rfl, rfl⟩ | ⟨rfl, f, pipe, hpipe, rfl⟩ | ⟨mapped, rfl, -, -, rfl⟩ |
    ⟨rfl, hframe, f, hsink, rfl⟩ | ⟨rfl, hframe, f, hsink, rfl⟩ | ⟨rfl, f, hframe, rfl⟩ :=
    step_cases hstep <;> rfl

/-- Only a push brings a frame, that of its number. -/
lemma held_of_step (hstep : step s e = .ok (t, o)) {f : ℕ} (hf : f ∈ t.held) :
    f ∈ s.held ∨ e = .push ∧ f = s.nPush := by
  rw [mem_held] at hf ⊢
  obtain ⟨rfl, rfl⟩ | ⟨-, g, pipe, hpipe, rfl⟩ | ⟨-, -, -, -, rfl⟩ | ⟨-, hframe, g, hsink, rfl⟩ |
    ⟨-, hframe, g, hsink, rfl⟩ | ⟨-, g, hframe, rfl⟩ := step_cases hstep
  · obtain hf | hf := hf
    · obtain hf | hf := List.mem_append.mp hf
      · exact .inl (.inl hf)
      · exact .inr ⟨rfl, List.mem_singleton.mp hf⟩
    · exact .inl (.inr hf)
  · obtain hf | hf | hf := hf
    · exact .inl (.inl (hpipe ▸ List.mem_cons_of_mem g hf))
    · exact .inl (.inl (hpipe ▸ Option.some.inj hf ▸ List.mem_cons_self))
    · exact .inl (.inr (.inr hf))
  · exact .inl hf
  · obtain hf | hf | hf := hf
    · exact .inl (.inl hf)
    · cases hf
    · exact .inl (.inr (.inl (hsink.trans hf)))
  · obtain hf | hf | hf := hf
    · exact .inl (.inl hf)
    · cases hf
    · exact .inl (.inr (.inr hf))
  · obtain hf | hf | hf := hf
    · exact .inl (.inl hf)
    · exact .inl (.inr (.inl hf))
    · cases hf

/-- The frame accounted for is the one that the loop has taken. -/
lemma obs_of_step (hstep : step s e = .ok (t, o)) {f : ℕ} (hf : o = some f) : f ∈ s.held := by
  subst hf
  cases e with
  | push => cases hstep
  | deliver =>
      simp only [step] at hstep
      split at hstep <;> cases hstep
  | grab mapped =>
      simp only [step] at hstep
      split at hstep
      · cases hstep
      · cases hstep
      · split_ifs at hstep <;> cases hstep
  | account =>
      simp only [step] at hstep
      cases hframe : s.frame with
      | none =>
          rw [hframe] at hstep
          cases hstep
      | some g =>
          rw [hframe] at hstep
          cases hstep
          exact mem_held.mpr (.inr (.inr hframe))

end EconRos2Driver

namespace StampedDriver

/-! ## What a step does -/

variable {p : PublishParams} {s t : StampedDriver} {e : CaptureEvent}
  {o : Option (ℕ × ImagePubRecord)}

/-- The frames that the pipeline or the loop has. -/
def frames (s : StampedDriver) : List ℕ :=
  s.driver.held ++
    match s.stage with
    | .publishing f => [f]
    | _ => []

/-- What holds of every run. -/
structure Stamped (s : StampedDriver) : Prop where
  count : s.driver.nPush = s.pushTimes.length
  pushed : ∀ f ∈ s.frames, f < s.pushTimes.length
  /-- The stamp is that of the last push. -/
  newest : s.pushTimes ≠ [] → s.pushTimes.getLast? = some s.tPushNs

lemma stamped_initial (b : ImageBox) : Stamped (initial b) where
  count := rfl
  pushed := nofun
  newest := fun h => absurd rfl h

lemma onDriver_eq {e : CameraEvent} {o : Option ℕ} (h : s.onDriver e = .ok (t, o)) :
    ∃ d, s.driver.step e = .ok (d, o) ∧ t = { s with driver := d } := by
  unfold onDriver at h
  cases hd : s.driver.step e with
  | error f =>
      rw [hd] at h
      cases h
  | ok y =>
      obtain ⟨d, o'⟩ := y
      rw [hd] at h
      cases h
      exact ⟨d, rfl, rfl⟩

/-- The pipeline and the loop, apart from a push, leave the stamps as they are. -/
lemma Stamped.onDriver {e : CameraEvent} {o : Option ℕ} (h : Stamped s) (he : e ≠ .push)
    (hstep : s.onDriver e = .ok (t, o)) :
    Stamped t ∧ ∀ f, o = some f → Stamped { t with stage := .publishing f } := by
  obtain ⟨d, hd, rfl⟩ := onDriver_eq hstep
  have hcount : d.nPush = s.pushTimes.length := by
    rw [EconRos2Driver.nPush_of_step hd, if_neg he, h.count]
  have hheld : ∀ f ∈ d.held, f < s.pushTimes.length := fun f hf =>
    h.pushed f (List.mem_append_left _
      ((EconRos2Driver.held_of_step hd hf).resolve_right fun hp => he hp.1))
  refine ⟨⟨hcount, fun f hf => ?_, h.newest⟩, fun f hf => ⟨hcount, fun g hg => ?_, h.newest⟩⟩
  · obtain hf | hf := List.mem_append.mp hf
    · exact hheld f hf
    · exact h.pushed f (List.mem_append_right _ hf)
  · obtain hg | hg := List.mem_append.mp hg
    · exact hheld g hg
    · obtain rfl := List.mem_singleton.mp hg
      exact h.pushed g (List.mem_append_left _ (EconRos2Driver.obs_of_step hd hf))

/-- A stamp is stored with every push. -/
lemma Stamped.push {now : UInt64} {o : Option ℕ} (h : Stamped s)
    (hstep : s.onDriver .push = .ok (t, o)) :
    Stamped { t with tPushNs := now, pushTimes := t.pushTimes ++ [now] } := by
  obtain ⟨d, hd, rfl⟩ := onDriver_eq hstep
  have hlen : (s.pushTimes ++ [now]).length = s.pushTimes.length + 1 := by simp
  refine ⟨?_, fun f hf => lt_of_lt_of_eq ?_ hlen.symm, fun _ => List.getLast?_concat⟩
  · rw [EconRos2Driver.nPush_of_step hd, if_pos rfl, h.count]
    exact hlen.symm
  · obtain hf | hf := List.mem_append.mp hf
    · obtain hf | ⟨-, rfl⟩ := EconRos2Driver.held_of_step hd hf
      · have := h.pushed f (List.mem_append_left _ hf)
        omega
      · rw [h.count]
        omega
    · have := h.pushed f (List.mem_append_right _ hf)
      omega

/-- Away from `publish` the loop has no frame besides that of the pipeline. -/
lemma Stamped.leave {b : ImageBox} {stage : PublishStage} (h : Stamped s)
    (hstage : ∀ f, stage ≠ .publishing f) : Stamped { s with box := b, stage := stage } where
  count := h.count
  pushed := fun f hf => by
    obtain hf | hf := List.mem_append.mp hf
    · exact h.pushed f (List.mem_append_left _ hf)
    · cases stage with
      | publishing g => exact absurd rfl (hstage g)
      | grabbing => cases hf
      | published i => cases hf
  newest := h.newest

/-- What is stored in the box has the stamp of the backend. -/
lemma logCbk_spec {b b' : ImageBox} {header capture now : UInt64} {y : ℕ × ImagePubRecord}
    (h : b.logCbk header capture now = (b', some y)) :
    y.2.tCaptureNs = capture ∧ y.2.tCbkNs = now := by
  unfold ImageBox.logCbk at h
  split at h
  · cases h
  · split_ifs at h
    · cases h
      exact ⟨rfl, rfl⟩
    · cases h

/-- **Step lemma.** -/
lemma Stamped.step (h : Stamped s) (hstep : StampedDriver.step p s e = .ok (t, o)) :
    Stamped t ∧ ∀ f r, o = some (f, r) → f ∈ s.frames ∧ r.tCaptureNs = s.tPushNs := by
  unfold StampedDriver.step at hstep
  cases e with
  | push now =>
      dsimp only at hstep
      split at hstep
      · cases hstep
      · rename_i u _ hd
        cases hstep
        exact ⟨h.push hd, fun _ _ hc => by cases hc⟩
  | deliver =>
      dsimp only at hstep
      split at hstep
      · cases hstep
      · rename_i u _ hd
        cases hstep
        exact ⟨(h.onDriver (by decide) hd).1, fun _ _ hc => by cases hc⟩
  | grab mapped =>
      dsimp only at hstep
      split at hstep
      · split at hstep
        · cases hstep
        · rename_i u _ hd
          cases hstep
          exact ⟨(h.onDriver (by simp) hd).1, fun _ _ hc => by cases hc⟩
      · cases hstep
  | account =>
      dsimp only at hstep
      split at hstep
      · split at hstep
        · cases hstep
        · rename_i u hd
          cases hstep
          exact ⟨(h.onDriver (by decide) hd).1, fun _ _ hc => by cases hc⟩
        · rename_i u f hd
          cases hstep
          exact ⟨(h.onDriver (by decide) hd).2 f rfl, fun _ _ hc => by cases hc⟩
      · cases hstep
  | logCbk lowNs rosNow size now =>
      dsimp only at hstep
      split at hstep
      · rename_i f hstage
        split_ifs at hstep
        · cases hstep
          exact ⟨h.leave (b := s.box) nofun, fun _ _ hc => by cases hc⟩
        · generalize hlog : s.box.logCbk (headerStamp lowNs rosNow) s.tPushNs now = y at hstep
          obtain ⟨b, r⟩ := y
          cases hstep
          refine ⟨h.leave nofun, fun g r' hr => ?_⟩
          obtain ⟨z, rfl, hz⟩ := Option.map_eq_some_iff.mp hr
          cases hz
          refine ⟨List.mem_append_right _ ?_, (logCbk_spec hlog).1⟩
          rw [hstage]
          exact List.mem_singleton_self _
      · cases hstep
  | logPub now =>
      dsimp only at hstep
      split at hstep
      · cases hstep
        exact ⟨h.leave nofun, fun _ _ hc => by cases hc⟩
      · cases hstep

/-! ## The stamps of a run -/

lemma identified_iff {x : CaptureTurn} (h : Stamped x.pre)
    (hx : x.Taken (StampedDriver.step p)) : Identified x ↔ Undisturbed x := by
  have hlogs := (h.step hx).2
  constructor
  · rintro hid ⟨f, r⟩ hobs
    obtain ⟨hf, hcapture⟩ := hlogs f r hobs
    have hlt := h.pushed f hf
    obtain ⟨t, ht, hrt, -⟩ := hid f r hobs
    have hnewest := h.newest (List.ne_nil_of_length_pos (by omega))
    right
    rw [hnewest, ht, ← hrt, hcapture]
  · intro hun f r hobs
    obtain ⟨hf, hcapture⟩ := hlogs f r hobs
    have hlt := h.pushed f hf
    have hnewest := h.newest (List.ne_nil_of_length_pos (by omega))
    have hown : x.pre.pushTimes[f]? = some x.pre.tPushNs := by
      obtain hlast | hsame := hun (f, r) hobs
      · rw [← hnewest, List.getLast?_eq_getElem?, hlast]
        rfl
      · rw [← hsame, hnewest]
    refine ⟨_, hown, hcapture, ?_⟩
    rw [captureToCbk, hcapture]

/-- **Capture stamps.**  In a run every record has the push time of its own frame exactly when no
other buffer is ever pushed, at another time, between the push of a frame and its record. -/
theorem identified_of_exec {b : ImageBox} {tr : List CaptureTurn}
    (h : Exec (StampedDriver.step p) (initial b) tr t) :
    (∀ x ∈ tr, Identified x) ↔ ∀ x ∈ tr, Undisturbed x := by
  have hinv := h.invariant (C := fun _ => True) (I := Stamped) (stamped_initial b)
    (fun _ hx _ hs => (hs.step hx).1) fun _ _ => trivial
  exact forall₂_congr fun x hx => identified_iff (hinv.2 x hx).1 (h.taken x hx)

/-- The driver that publishes compressed images. -/
def mjpg : PublishParams := ⟨true, 0⟩

/-- A box of two slots that are blank. -/
def twoSlots : ImageBox := { base := some [default, default] }

/-- A frame that is published before the next is pushed. -/
def oneByOne : List CaptureEvent :=
  [.push 100, .deliver, .grab true, .account, .logCbk 5 0 9 130, .logPub 140, .push 200]

/-- Its record is of its own capture. -/
theorem oneByOne_identified :
    (∀ x ∈ (trace (step mjpg) oneByOne (initial twoSlots)).1, Undisturbed x) ∧
      ∀ x ∈ (trace (step mjpg) oneByOne (initial twoSlots)).1, Identified x := by
  have hun : ∀ x ∈ (trace (step mjpg) oneByOne (initial twoSlots)).1, Undisturbed x := by decide
  exact ⟨hun, (identified_of_exec (Exec.of_trace oneByOne (initial twoSlots))).mpr hun⟩

/-- The second frame is pushed while the first is on its way. -/
def overtaken : List CaptureEvent :=
  [.push 100, .deliver, .grab true, .account, .push 200, .logCbk 5 0 9 210]

/-- The first frame is recorded as captured when the second was. -/
theorem overtaken_not_identified :
    ∃ tr t, Exec (step mjpg) (initial twoSlots) tr t ∧ ¬∀ x ∈ tr, Identified x := by
  refine ⟨_, _, Exec.of_trace overtaken (initial twoSlots), fun h => ?_⟩
  have hget := h ((trace (step mjpg) overtaken (initial twoSlots)).1.get ⟨5, by decide⟩)
    (List.get_mem _ _)
  obtain ⟨t, ht, hr, -⟩ := hget 0 ⟨1, 5, 200, 210, 0, 1, 0⟩ rfl
  cases ht
  exact absurd hr (by decide)

end StampedDriver

end FastLivo2
