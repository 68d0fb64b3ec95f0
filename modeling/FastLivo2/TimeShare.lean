import FastLivo2.Lib.Exec

/-!
# The shared timestamp

The lidar driver shares the time of the latest cloud with the camera driver through a file that both
map (`Lddc::TryOpenSharedMmap` and `WriteSharedStamp` in `livox_ros_driver2/src/lddc.cpp`, the same
steps in `mmap_time_writer_node.cpp`; `MmapStamper` in `econ_ros2_driver/include/mmap_stamper.hpp`
and `EconRos2Driver::publish`).  There is no handshake.  The writer truncates the file when it
starts, extends it, maps it, zeroes it and then stores the time of each cloud in `low`.  The camera
maps the file once, loads `low` for every image, and falls back to its own clock when it finds no
positive value.

The steps of the two processes may come in any order.  A load through a mapping that lies beyond the
end of the file is a bus error, which ends the camera process.
-/

namespace FastLivo2

/-- The file `timeshare`: its length, the field `low` of the struct in it, and (ghost data) the
session of the writer that stored the field. -/
structure TimeFile where
  length : ℕ
  low : ℤ
  storedBy : ℕ
  deriving DecidableEq, Repr

/-- How far the writer process has come. -/
inductive WriterPhase
  /-- No process runs. -/
  | down
  /-- The process runs and has not opened the file, or has given up an attempt. -/
  | started
  /-- `open` with `O_TRUNC` has returned. -/
  | truncated
  /-- `ftruncate` has returned. -/
  | extended
  /-- `mmap` has returned. -/
  | mapped
  /-- The struct has been zeroed. -/
  | ready
  deriving DecidableEq, Repr

/-- How far the camera has come with an image. -/
inductive CameraPhase
  | idle
  /-- `try_open` holds a descriptor and has not mapped it. -/
  | fdOpen
  /-- `try_open` has returned. -/
  | tried
  /-- `read_low_ns` has returned. -/
  | loaded (ns : ℤ)
  deriving DecidableEq, Repr

/-- An image as it is published: its header stamp, and whether that is a lidar time. -/
structure StampedImage where
  stamp : ℤ
  lidar : Bool
  deriving DecidableEq, Repr

structure TimeShare where
  file : Option TimeFile
  writer : WriterPhase := .down
  /-- The number of times the writer has been started. -/
  session : ℕ := 0
  camera : CameraPhase := .idle
  /-- `opened_` of the `MmapStamper`. -/
  opened : Bool := false
  /-- The last image published (ghost data). -/
  lastImage : Option StampedImage := none
  deriving DecidableEq, Repr

/-- A step of one of the two processes; `ok` is whether its system call succeeds. -/
inductive TimeShareEvent
  | start
  | openTrunc (ok : Bool)
  | ftruncate (ok : Bool)
  | mmap (ok : Bool)
  | zero
  | store (ns : UInt64)
  | exit
  | camOpen (ok : Bool)
  | camMmap (ok : Bool)
  | camLoad
  /-- The image is stamped; `now` is what the ROS clock would say.  A raw frame that is too small
  is not published. -/
  | camStamp (now : ℤ) (published : Bool)
  | camExit
  deriving DecidableEq, Repr

/-- The process is not at this step. -/
inductive NotEnabled
  | notEnabled
  deriving DecidableEq, Repr

namespace TimeShare

/-- The stamp of an image for which `ns` was loaded. -/
def stampOf (ns now : ℤ) : StampedImage := if 0 < ns then ⟨ns, true⟩ else ⟨now, false⟩

/-- `read_low_ns`: `none` is a load beyond the end of the file. -/
def readLowNs (s : TimeShare) : Option ℤ :=
  if s.opened then
    match s.file with
    | some f => if f.length < 16 then none else some f.low
    | none => none
  else some 0

/-- A step that can only be taken at one point of the program. -/
def guarded (p : Prop) [Decidable p] (t : TimeShare) (image : Option StampedImage) :
    Except NotEnabled (TimeShare × Option StampedImage) :=
  if p then .ok (t, image) else .error .notEnabled

/-- One step of one of the processes. -/
def step (s : TimeShare) : TimeShareEvent → Except NotEnabled (TimeShare × Option StampedImage)
  | .start =>
      guarded (s.writer = .down) { s with writer := .started, session := s.session + 1 } none
  | .openTrunc ok =>
      guarded (s.writer = .started)
        (if ok then { s with writer := .truncated, file := some ⟨0, 0, s.session⟩ } else s) none
  | .ftruncate ok =>
      guarded (s.writer = .truncated)
        (if ok then
          { s with writer := .extended, file := s.file.map fun f => { f with length := 16 } }
          else { s with writer := .started }) none
  | .mmap ok =>
      guarded (s.writer = .extended) { s with writer := if ok then .mapped else .started } none
  | .zero =>
      guarded (s.writer = .mapped)
        { s with writer := .ready, file := s.file.map fun f => { f with low := 0 } } none
  | .store ns =>
      guarded (s.writer = .ready)
        { s with file := s.file.map fun f =>
            { f with low := ns.toInt64.toInt, storedBy := s.session } } none
  | .exit => guarded (s.writer ≠ .down) { s with writer := .down } none
  | .camOpen ok =>
      guarded (s.camera = .idle)
        { s with camera :=
            if s.opened = false ∧ ok = true ∧ s.file.isSome = true then .fdOpen else .tried } none
  | .camMmap ok => guarded (s.camera = .fdOpen) { s with camera := .tried, opened := ok } none
  | .camLoad =>
      guarded (s.camera = .tried)
        (match s.readLowNs with
          | some ns => { s with camera := .loaded ns }
          | none => { s with camera := .idle, opened := false }) none
  | .camStamp now published =>
      match s.camera with
      | .loaded ns =>
          if published then
            .ok ({ s with camera := .idle, lastImage := some (stampOf ns now) },
              some (stampOf ns now))
          else .ok ({ s with camera := .idle }, none)
      | _ => .error .notEnabled
  | .camExit => .ok ({ s with camera := .idle, opened := false }, none)

/-- No process has run yet; the file may be left from another day. -/
def initial (file : Option TimeFile) : TimeShare := { file := file }

end TimeShare

/-- A step taken. -/
abbrev TimeShareTurn := Turn TimeShare TimeShareEvent (Option StampedImage)

namespace TimeShare

/-! ## What the camera relies on -/

/-- The images published in a run. -/
def images (tr : List TimeShareTurn) : List StampedImage := tr.filterMap Turn.obs

/-- A load through the mapping stays within the file. -/
def LoadInside (x : TimeShareTurn) : Prop :=
  x.event = .camLoad → x.pre.opened = true → ∃ f ∈ x.pre.file, 16 ≤ f.length

/-- A positive value that is loaded was stored by the session of the writer that is running. -/
def FromRunning (x : TimeShareTurn) : Prop :=
  x.event = .camLoad → x.pre.opened = true → ∀ f ∈ x.pre.file, 16 ≤ f.length → 0 < f.low →
    x.pre.writer ≠ .down ∧ f.storedBy = x.pre.session

/-- An image may follow another: its stamp is not smaller, and a lidar time is followed by a lidar
time. -/
def Follows (a b : StampedImage) : Prop := a.stamp ≤ b.stamp ∧ (a.lidar = true → b.lidar = true)

instance (x : TimeShareTurn) : Decidable (LoadInside x) :=
  inferInstanceAs (Decidable (_ → _))

instance (x : TimeShareTurn) : Decidable (FromRunning x) :=
  inferInstanceAs (Decidable (_ → _))

instance (a b : StampedImage) : Decidable (Follows a b) :=
  inferInstanceAs (Decidable (_ ∧ _))

/-- The protocol as the camera relies on it. -/
def Safe (tr : List TimeShareTurn) : Prop :=
  (∀ x ∈ tr, LoadInside x ∧ FromRunning x) ∧ (images tr).Pairwise Follows

/-! ## Orderly steps -/

/-- The writer has opened the file in the session that is running. -/
def HasOpened (s : TimeShare) : Prop := s.writer ≠ .down ∧ s.writer ≠ .started

/-- A load finds the file extended since it was last truncated, and a positive value only after the
running writer has opened the file; after an image with a lidar time it finds a positive value. -/
def OrderlyLoad (s : TimeShare) : Prop :=
  (s.opened = true → ∀ f ∈ s.file, 16 ≤ f.length ∧ (0 < f.low → s.HasOpened)) ∧
    ∀ image ∈ s.lastImage, image.lidar = true → s.opened = true ∧ ∀ f ∈ s.file, 0 < f.low

/-- A time that is stored is not behind the one the camera is about to use, or the stamp of the last
image. -/
def OrderlyStore (s : TimeShare) (low : ℤ) : Prop :=
  (∀ ns, s.camera = .loaded ns → ns ≤ low) ∧ ∀ image ∈ s.lastImage, image.stamp ≤ low

/-- A fallback stamp is not behind that of the last image, nor ahead of the lidar. -/
def OrderlyFallback (s : TimeShare) (now : ℤ) : Prop :=
  ∀ ns, s.camera = .loaded ns → ns ≤ 0 → (∀ image ∈ s.lastImage, image.stamp ≤ now) ∧
    (s.HasOpened → ∀ f ∈ s.file, 0 < f.low → now ≤ f.low)

/-- What a step asks of the state it is taken in. -/
def Orderly (x : TimeShareTurn) : Prop :=
  match x.event with
  | .camLoad => x.pre.OrderlyLoad
  | .store ns => x.pre.OrderlyStore ns.toInt64.toInt
  | .camStamp now true => x.pre.OrderlyFallback now
  | _ => True

/-! ## What orderly steps keep -/

@[simp] lemma guarded_eq_ok {p : Prop} [Decidable p] {t u : TimeShare}
    {image image' : Option StampedImage} :
    guarded p t image = .ok (u, image') ↔ p ∧ t = u ∧ image = image' := by
  unfold guarded
  split_ifs with hp <;> simp [hp]

/-- A load that does not fault finds the field, or nothing without a mapping. -/
lemma readLowNs_eq_some {s : TimeShare} {ns : ℤ} (h : s.readLowNs = some ns) :
    (s.opened = true → ∃ f ∈ s.file, f.low = ns) ∧
      (0 < ns → s.opened = true ∧ ∃ f ∈ s.file, f.low = ns) := by
  unfold readLowNs at h
  by_cases hopened : s.opened = true
  · rw [if_pos hopened] at h
    cases hf : s.file with
    | none => simp [hf] at h
    | some f =>
        have hlow : f.low = ns := by
          rw [hf] at h
          by_cases hlen : f.length < 16
          · simp [hlen] at h
          · simpa [hlen] using h
        exact ⟨fun _ => ⟨f, rfl, hlow⟩, fun _ => ⟨hopened, f, rfl, hlow⟩⟩
  · rw [if_neg hopened] at h
    have hzero : 0 = ns := Option.some.inj h
    refine ⟨fun h' => absurd h' hopened, fun hpos => ?_⟩
    omega

/-- What holds of the file, of the value the camera is about to use, and of the last image. -/
structure Ordered (s : TimeShare) : Prop where
  stored : s.HasOpened → ∀ f ∈ s.file, 0 < f.low → f.storedBy = s.session
  exists_file : s.opened = true ∨ s.camera = .fdOpen → s.file.isSome = true
  loaded_fresh : ∀ ns, s.camera = .loaded ns → 0 < ns → ∀ image ∈ s.lastImage, image.stamp ≤ ns
  loaded_fallback : ∀ ns, s.camera = .loaded ns → ns ≤ 0 → ∀ image ∈ s.lastImage,
    image.lidar = false
  low_fresh : s.HasOpened → ∀ f ∈ s.file, 0 < f.low →
    (∀ ns, s.camera = .loaded ns → ns ≤ f.low) ∧ ∀ image ∈ s.lastImage, image.stamp ≤ f.low

lemma ordered_initial (file : Option TimeFile) : Ordered (initial file) where
  stored := fun h => absurd rfl h.1
  exists_file := by simp [initial]
  loaded_fresh := by simp [initial]
  loaded_fallback := by simp [initial]
  low_fresh := by simp [initial]

namespace Ordered

variable {s t : TimeShare}

/-- A step of the writer leaves the camera alone. -/
lemma writerStep (h : Ordered s) (hcamera : t.camera = s.camera) (hopened : t.opened = s.opened)
    (himage : t.lastImage = s.lastImage) (hfile : s.file.isSome = true → t.file.isSome = true)
    (hstored : t.HasOpened → ∀ f ∈ t.file, 0 < f.low → f.storedBy = t.session)
    (hlow : t.HasOpened → ∀ f ∈ t.file, 0 < f.low →
      (∀ ns, s.camera = .loaded ns → ns ≤ f.low) ∧ ∀ image ∈ s.lastImage, image.stamp ≤ f.low) :
    Ordered t where
  stored := hstored
  exists_file := by
    rw [hcamera, hopened]
    exact fun hs => hfile (h.exists_file hs)
  loaded_fresh := by
    rw [hcamera, himage]
    exact h.loaded_fresh
  loaded_fallback := by
    rw [hcamera, himage]
    exact h.loaded_fallback
  low_fresh := by
    rw [hcamera, himage]
    exact hlow

/-- A step of the writer that leaves the file alone. -/
lemma writerOnly (h : Ordered s) (hcamera : t.camera = s.camera) (hopened : t.opened = s.opened)
    (himage : t.lastImage = s.lastImage) (hfile : t.file = s.file)
    (hstored : t.HasOpened → s.HasOpened ∧ t.session = s.session) : Ordered t := by
  apply h.writerStep hcamera hopened himage (by rw [hfile]; exact id)
  · intro ht
    obtain ⟨hs, hsession⟩ := hstored ht
    rw [hfile, hsession]
    exact h.stored hs
  · intro ht
    rw [hfile]
    exact h.low_fresh (hstored ht).1

/-- A step of the writer after which the file holds no time. -/
lemma writerZeroes (h : Ordered s) (hcamera : t.camera = s.camera) (hopened : t.opened = s.opened)
    (himage : t.lastImage = s.lastImage) (hfile : s.file.isSome = true → t.file.isSome = true)
    (hzero : ∀ f ∈ t.file, f.low = 0) : Ordered t := by
  refine h.writerStep hcamera hopened himage hfile (fun _ f hf hpos => ?_) fun _ f hf hpos => ?_
  all_goals
    rw [hzero f hf] at hpos
    exact absurd hpos (lt_irrefl 0)

/-- The file is extended to the length of the struct. -/
lemma ftruncate (h : Ordered s) (hwriter : s.writer = .truncated) :
    Ordered { s with
      writer := .extended
      file := s.file.map fun f => { f with length := 16 } } := by
  have hopened : s.HasOpened := by simp [HasOpened, hwriter]
  refine h.writerStep rfl rfl rfl (by simp) ?_ ?_
  · rintro - f hf
    obtain ⟨g, hg, rfl⟩ := Option.mem_map.mp hf
    exact h.stored hopened g hg
  · rintro - f hf
    obtain ⟨g, hg, rfl⟩ := Option.mem_map.mp hf
    exact h.low_fresh hopened g hg

/-- A time is stored in the file. -/
lemma store {low : ℤ} (h : Ordered s) (ho : s.OrderlyStore low) :
    Ordered { s with
      file := s.file.map fun f => { f with low := low, storedBy := s.session } } := by
  obtain ⟨hloaded, himage⟩ := ho
  refine h.writerStep rfl rfl rfl (by simp) ?_ ?_
  · rintro - f hf _
    obtain ⟨g, -, rfl⟩ := Option.mem_map.mp hf
    rfl
  · rintro - f hf _
    obtain ⟨g, -, rfl⟩ := Option.mem_map.mp hf
    exact ⟨hloaded, himage⟩

/-- A step of the camera leaves the writer and the file alone. -/
lemma cameraStep (h : Ordered s) (hfile : t.file = s.file) (hwriter : t.writer = s.writer)
    (hsession : t.session = s.session)
    (hexists : t.opened = true ∨ t.camera = .fdOpen → s.file.isSome = true)
    (hloaded : ∀ ns, t.camera = .loaded ns → ∀ image ∈ t.lastImage,
      (0 < ns → image.stamp ≤ ns) ∧ (ns ≤ 0 → image.lidar = false))
    (hlow : s.HasOpened → ∀ f ∈ s.file, 0 < f.low →
      (∀ ns, t.camera = .loaded ns → ns ≤ f.low) ∧ ∀ image ∈ t.lastImage, image.stamp ≤ f.low) :
    Ordered t where
  stored := by
    rw [HasOpened, hwriter, hfile, hsession]
    exact h.stored
  exists_file := by
    rw [hfile]
    exact hexists
  loaded_fresh := fun ns hns hpos image himage => (hloaded ns hns image himage).1 hpos
  loaded_fallback := fun ns hns hpos image himage => (hloaded ns hns image himage).2 hpos
  low_fresh := by
    rw [HasOpened, hwriter, hfile]
    exact hlow

/-- A step of the camera after which it holds no value that it has loaded. -/
lemma cameraEmptied (h : Ordered s) (hfile : t.file = s.file) (hwriter : t.writer = s.writer)
    (hsession : t.session = s.session) (himage : t.lastImage = s.lastImage)
    (hexists : t.opened = true ∨ t.camera = .fdOpen → s.file.isSome = true)
    (hempty : ∀ ns, t.camera ≠ .loaded ns) : Ordered t := by
  refine h.cameraStep hfile hwriter hsession hexists (fun ns hns => absurd hns (hempty ns))
    fun hw f hf hpos => ⟨fun ns hns => absurd hns (hempty ns), ?_⟩
  rw [himage]
  exact (h.low_fresh hw f hf hpos).2

lemma camLoad {ns : ℤ} (h : Ordered s) (ho : s.OrderlyLoad) (hread : s.readLowNs = some ns) :
    Ordered { s with camera := .loaded ns } := by
  have hvalue := readLowNs_eq_some hread
  -- a positive value is that of the file, and the writer that runs has opened it
  have hfresh : 0 < ns → ∃ f ∈ s.file, f.low = ns ∧ s.HasOpened := by
    intro hpos
    obtain ⟨hopened, f, hf, hlow⟩ := hvalue.2 hpos
    exact ⟨f, hf, hlow, (ho.1 hopened f hf).2 (hlow ▸ hpos)⟩
  refine h.cameraStep rfl rfl rfl ?_ ?_ ?_
  · rintro (hopened | hfd)
    · exact h.exists_file (.inl hopened)
    · cases hfd
  · rintro ns' ⟨⟩ image himage
    refine ⟨fun hpos => ?_, fun hneg => ?_⟩
    · obtain ⟨f, hf, hlow, hw⟩ := hfresh hpos
      rw [← hlow] at hpos ⊢
      exact (h.low_fresh hw f hf hpos).2 image himage
    · -- after a lidar time the load would have found a positive value
      by_contra htrue
      obtain ⟨hopened, hlow⟩ := ho.2 image himage (by simpa using htrue)
      obtain ⟨f, hf, hns⟩ := hvalue.1 hopened
      have hpos := hlow f hf
      omega
  · intro hw f hf hpos
    refine ⟨?_, (h.low_fresh hw f hf hpos).2⟩
    rintro ns' ⟨⟩
    by_cases hns : 0 < ns
    · obtain ⟨-, g, hg, hlow⟩ := hvalue.2 hns
      obtain rfl := Option.mem_unique hf hg
      omega
    · omega

lemma camStamp {ns now : ℤ} (h : Ordered s) (ho : s.OrderlyFallback now)
    (hcam : s.camera = .loaded ns) :
    Ordered { s with camera := .idle, lastImage := some (stampOf ns now) } := by
  refine h.cameraStep rfl rfl rfl ?_ ?_ ?_
  · rintro (hopened | hfd)
    · exact h.exists_file (.inl hopened)
    · cases hfd
  · simp
  · intro hw f hf hpos
    refine ⟨by simp, ?_⟩
    rintro image ⟨⟩
    by_cases hns : 0 < ns
    · rw [stampOf, if_pos hns]
      exact (h.low_fresh hw f hf hpos).1 ns hcam
    · rw [stampOf, if_neg hns]
      exact (ho ns hcam (by omega)).2 hw f hf hpos

end Ordered

/-- **Step lemma.**  An orderly step keeps the order. -/
lemma ordered_step {s t : TimeShare} {e : TimeShareEvent} {o : Option StampedImage}
    (hstep : step s e = .ok (t, o)) (ho : Orderly ⟨s, e, o, t⟩) (hs : Ordered s) : Ordered t := by
  cases e with
  | start =>
      obtain ⟨-, rfl, -⟩ := guarded_eq_ok.mp hstep
      exact hs.writerOnly rfl rfl rfl rfl fun ht => absurd rfl ht.2
  | openTrunc ok =>
      obtain ⟨-, rfl, -⟩ := guarded_eq_ok.mp hstep
      by_cases hok : ok = true
      · rw [if_pos hok]
        refine hs.writerZeroes rfl rfl rfl (fun _ => rfl) ?_
        rintro f ⟨⟩
        rfl
      · rw [if_neg hok]
        exact hs
  | ftruncate ok =>
      obtain ⟨hw, rfl, -⟩ := guarded_eq_ok.mp hstep
      by_cases hok : ok = true
      · rw [if_pos hok]
        exact hs.ftruncate hw
      · rw [if_neg hok]
        exact hs.writerOnly rfl rfl rfl rfl fun ht => absurd rfl ht.2
  | mmap ok =>
      obtain ⟨hw, rfl, -⟩ := guarded_eq_ok.mp hstep
      exact hs.writerOnly rfl rfl rfl rfl fun _ => ⟨by simp [HasOpened, hw], rfl⟩
  | zero =>
      obtain ⟨-, rfl, -⟩ := guarded_eq_ok.mp hstep
      refine hs.writerZeroes rfl rfl rfl (by simp) fun f hf => ?_
      obtain ⟨g, -, rfl⟩ := Option.mem_map.mp hf
      rfl
  | store ns =>
      obtain ⟨-, rfl, -⟩ := guarded_eq_ok.mp hstep
      exact hs.store ho
  | exit =>
      obtain ⟨-, rfl, -⟩ := guarded_eq_ok.mp hstep
      exact hs.writerOnly rfl rfl rfl rfl fun ht => absurd rfl ht.1
  | camOpen ok =>
      obtain ⟨-, rfl, -⟩ := guarded_eq_ok.mp hstep
      refine hs.cameraEmptied rfl rfl rfl rfl ?_ fun ns => ?_
      · rintro (hopened | hfd)
        · exact hs.exists_file (.inl hopened)
        · by_cases hc : s.opened = false ∧ ok = true ∧ s.file.isSome = true
          · exact hc.2.2
          · simp [hc] at hfd
      · dsimp only
        split_ifs <;> simp
  | camMmap ok =>
      obtain ⟨hfd, rfl, -⟩ := guarded_eq_ok.mp hstep
      exact hs.cameraEmptied rfl rfl rfl rfl (fun _ => hs.exists_file (.inr hfd)) (by simp)
  | camLoad =>
      obtain ⟨-, rfl, -⟩ := guarded_eq_ok.mp hstep
      cases hread : s.readLowNs with
      | none => exact hs.cameraEmptied rfl rfl rfl rfl (by simp) (by simp)
      | some ns => exact hs.camLoad ho hread
  | camStamp now published =>
      cases hcam : s.camera with
      | loaded ns =>
          cases published with
          | false =>
              obtain ⟨rfl, -⟩ : _ ∧ none = o := by simpa [step, hcam] using hstep
              refine hs.cameraEmptied rfl rfl rfl rfl ?_ (by simp)
              rintro (hopened | hfd)
              · exact hs.exists_file (.inl hopened)
              · cases hfd
          | true =>
              obtain ⟨rfl, -⟩ : _ ∧ some (stampOf ns now) = o := by simpa [step, hcam] using hstep
              exact hs.camStamp ho hcam
      | _ => simp [step, hcam] at hstep
  | camExit =>
      obtain ⟨rfl, -⟩ : _ ∧ none = o := by simpa [step] using hstep
      exact hs.cameraEmptied rfl rfl rfl rfl (by simp) (by simp)

/-! ## Runs -/

/-- An image is published only when one is stamped. -/
lemma step_obs {s t : TimeShare} {e : TimeShareEvent} {o : Option StampedImage}
    (hstep : step s e = .ok (t, o)) : (o = none ∧ t.lastImage = s.lastImage) ∨
      ∃ now ns, e = .camStamp now true ∧ s.camera = .loaded ns ∧ o = some (stampOf ns now) ∧
        t.lastImage = o := by
  cases e with
  | camStamp now published =>
      cases hcam : s.camera with
      | loaded ns =>
          cases published with
          | false =>
              obtain ⟨rfl, rfl⟩ : _ ∧ none = o := by simpa [step, hcam] using hstep
              exact .inl ⟨rfl, rfl⟩
          | true =>
              obtain ⟨rfl, rfl⟩ : _ ∧ some (stampOf ns now) = o := by
                simpa [step, hcam] using hstep
              exact .inr ⟨now, ns, rfl, rfl, rfl, rfl⟩
      | _ => simp [step, hcam] at hstep
  | camExit =>
      obtain ⟨rfl, rfl⟩ : _ ∧ none = o := by simpa [step] using hstep
      exact .inl ⟨rfl, rfl⟩
  | camLoad =>
      obtain ⟨-, rfl, rfl⟩ := guarded_eq_ok.mp hstep
      cases s.readLowNs <;> exact .inl ⟨rfl, rfl⟩
  | openTrunc ok =>
      obtain ⟨-, rfl, rfl⟩ := guarded_eq_ok.mp hstep
      cases ok <;> exact .inl ⟨rfl, rfl⟩
  | ftruncate ok =>
      obtain ⟨-, rfl, rfl⟩ := guarded_eq_ok.mp hstep
      cases ok <;> exact .inl ⟨rfl, rfl⟩
  | _ =>
      obtain ⟨-, rfl, rfl⟩ := guarded_eq_ok.mp hstep
      exact .inl ⟨rfl, rfl⟩

/-- An image stamped in an orderly step follows the last one. -/
lemma follows_last {s : TimeShare} {now ns : ℤ} (hcam : s.camera = .loaded ns)
    (ho : s.OrderlyFallback now) (hs : Ordered s) :
    ∀ last ∈ s.lastImage, Follows last (stampOf ns now) := by
  intro last hlast
  by_cases hns : 0 < ns
  · rw [stampOf, if_pos hns]
    exact ⟨hs.loaded_fresh ns hcam hns last hlast, fun _ => rfl⟩
  · rw [stampOf, if_neg hns]
    refine ⟨(ho ns hcam (by omega)).1 last hlast, fun hlidar => ?_⟩
    rw [hs.loaded_fallback ns hcam (by omega) last hlast] at hlidar
    cases hlidar

lemma follows_trans {a b c : StampedImage} (hab : Follows a b) (hbc : Follows b c) : Follows a c :=
  ⟨hab.1.trans hbc.1, fun ha => hbc.2 (hab.2 ha)⟩

/-- A load of an orderly run is safe. -/
lemma load_safe {x : TimeShareTurn} (ho : Orderly x) (h : Ordered x.pre) :
    LoadInside x ∧ FromRunning x := by
  constructor
  · intro he hopened
    have hload : x.pre.OrderlyLoad := by simpa [Orderly, he] using ho
    obtain ⟨f, hf⟩ := Option.isSome_iff_exists.mp (h.exists_file (.inl hopened))
    exact ⟨f, hf, (hload.1 hopened f hf).1⟩
  · intro he hopened f hf _ hpos
    have hload : x.pre.OrderlyLoad := by simpa [Orderly, he] using ho
    have hwriter := (hload.1 hopened f hf).2 hpos
    exact ⟨hwriter.1, h.stored hwriter f hf hpos⟩

/-- **Safety of orderly runs**, from any file left by an earlier session. -/
lemma safe_of_orderly {file : Option TimeFile} {tr : List TimeShareTurn} {t : TimeShare}
    (h : Exec step (initial file) tr t) (horderly : ∀ x ∈ tr, Orderly x) : Safe tr := by
  have hrun := h.history (C := Orderly)
    (P := fun tr t => Ordered t ∧ Safe tr ∧ ∀ image ∈ images tr, ∃ last ∈ t.lastImage,
      image = last ∨ Follows image last)
    ⟨ordered_initial file, ⟨by simp, by simp [images]⟩, by simp [images]⟩ ?_ horderly
  · exact hrun.2.1
  rintro tr x - hx ho ⟨hpre, ⟨hloads, himages⟩, hlast⟩
  have hstep : step x.pre x.event = .ok (x.post, x.obs) := hx
  have hpost := ordered_step hstep ho hpre
  have hall : ∀ y ∈ tr ++ [x], LoadInside y ∧ FromRunning y := by
    intro y hy
    obtain hy | hy := List.mem_append.mp hy
    · exact hloads y hy
    · rw [List.mem_singleton.mp hy]
      exact load_safe ho hpre
  obtain ⟨hobs, hsame⟩ | ⟨now, ns, he, hcam, hobs, hnew⟩ := step_obs hstep
  · have hunchanged : images (tr ++ [x]) = images tr := by simp [images, hobs]
    rw [Safe, hunchanged, hsame]
    exact ⟨hpost, ⟨hall, himages⟩, hlast⟩
  · have hfallback : x.pre.OrderlyFallback now := by simpa [Orderly, he] using ho
    have happend : images (tr ++ [x]) = images tr ++ [stampOf ns now] := by simp [images, hobs]
    have hfollows : ∀ image ∈ images tr, Follows image (stampOf ns now) := by
      intro image himage
      obtain ⟨last, hmem, rfl | hle⟩ := hlast image himage
      · exact follows_last hcam hfallback hpre _ hmem
      · exact follows_trans hle (follows_last hcam hfallback hpre last hmem)
    rw [Safe, happend, hnew, hobs]
    refine ⟨hpost, ⟨hall, ?_⟩, ?_⟩
    · rw [List.pairwise_append]
      exact ⟨himages, List.pairwise_singleton _ _, by simpa using hfollows⟩
    · intro image himage
      refine ⟨stampOf ns now, rfl, ?_⟩
      obtain himage | himage := List.mem_append.mp himage
      · exact .inr (hfollows image himage)
      · exact .inl (List.mem_singleton.mp himage)

end TimeShare

end FastLivo2
