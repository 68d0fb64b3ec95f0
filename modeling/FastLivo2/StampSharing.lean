import FastLivo2.TimeShare

/-!
# The order of the two processes

Nothing tells the camera driver that the lidar driver has ended, has started again or has truncated
the file that both have mapped.  So what it relies on holds only of runs in which the two processes
take their steps in a certain order.

`Disciplined` says which, by the steps alone: where a load may stand among the truncations,
extensions, stores and ends of the other process, what the clock of the lidar does from one session
to the next, and what the clock of the camera says when it falls back to it.
-/

namespace FastLivo2

/-- An event of the first kind has happened, and since then none of the second. -/
def Pending {α : Type} (start stop : α → Prop) : List α → Prop
  | [] => False
  | e :: l => (start e ∧ ∀ y ∈ l, ¬stop y) ∨ Pending start stop l

instance decidablePending {α : Type} (start stop : α → Prop) [DecidablePred start]
    [DecidablePred stop] : (l : List α) → Decidable (Pending start stop l)
  | [] => isFalse id
  | e :: l =>
      have := decidablePending start stop l
      inferInstanceAs (Decidable ((start e ∧ ∀ y ∈ l, ¬stop y) ∨ Pending start stop l))

lemma pending_snoc {α : Type} {start stop : α → Prop} {e : α} :
    ∀ {l : List α}, Pending start stop (l ++ [e]) ↔ start e ∨ Pending start stop l ∧ ¬stop e
  | [] => by simp [Pending]
  | d :: l => by
      rw [List.cons_append, Pending, Pending, pending_snoc, List.forall_mem_append,
        List.forall_mem_singleton]
      tauto

namespace TimeShare

/-! ## The steps so far -/

/-- The time that a step stores. -/
def storeOf : TimeShareEvent → Option ℤ
  | .store ns => some ns.toInt64.toInt
  | _ => none

def stores (past : List TimeShareEvent) : List ℤ := past.filterMap storeOf

/-- The file has been truncated. -/
abbrev Truncated (past : List TimeShareEvent) : Prop := .openTrunc true ∈ past

/-- The file has been truncated, and not extended since. -/
abbrev Shortened (past : List TimeShareEvent) : Prop :=
  Pending (· = .openTrunc true) (· = .ftruncate true) past

/-- A time has been stored since the file was last truncated. -/
abbrev Timed (past : List TimeShareEvent) : Prop :=
  Pending (fun e => (storeOf e).isSome = true) (· = .openTrunc true) past

/-- The lidar driver has ended, and the file has not been truncated since. -/
abbrev Ended (past : List TimeShareEvent) : Prop :=
  Pending (· = .exit) (· = .openTrunc true) past

/-- The reading of the ROS clock with which a turn stamps an image. -/
def reading (x : TimeShareTurn) : Option ℤ :=
  match x.event, x.pre.camera with
  | .camStamp now true, .loaded ns => if 0 < ns then none else some now
  | _, _ => none

/-- The places where a load may stand: the steps before it are `past`. -/
structure LoadInOrder (file : Option TimeFile) (past : List TimeShareEvent) (s : TimeShare) :
    Prop where
  /-- Not between a truncation and the extension that follows it. -/
  extended : s.opened = true → ¬Shortened past
  /-- Not between the end of a lidar driver that has stored a time and the next truncation. -/
  running : s.opened = true → ¬(Timed past ∧ Ended past)
  /-- Not before the first truncation, if a file is left with a time in it, or too short. -/
  left : s.opened = true → Truncated past ∨ ∀ f ∈ file, 16 ≤ f.length ∧ f.low ≤ 0
  /-- Once an image has had a lidar time, only through the mapping, and after a store of the session
  that is running. -/
  timed : (∃ image ∈ s.lastImage, image.lidar = true) → s.opened = true ∧ Timed past

/-- **The order of the steps.**  The loads stand where they may; the times stored are positive and
do not go back, not even from one session to the next; and the ROS clock, as far as it is used, does
not go back and is not ahead of the clock of the lidar. -/
structure Disciplined (file : Option TimeFile) (tr : List TimeShareTurn) : Prop where
  loads : ∀ past x, past ++ [x] <+: tr → x.event = .camLoad →
    LoadInOrder file (past.map Turn.event) x.pre
  stores_pos : ∀ ns ∈ stores (tr.map Turn.event), 0 < ns
  stores_le : (stores (tr.map Turn.event)).Pairwise (· ≤ ·)
  readings_le : (tr.filterMap reading).Pairwise (· ≤ ·)
  behind : ∀ past x later, tr = past ++ x :: later → ∀ now ∈ reading x,
    (∀ ns ∈ stores (later.map Turn.event), now ≤ ns) ∧
      (Timed (past.map Turn.event) → ∀ ns ∈ (stores (past.map Turn.event)).getLast?, now ≤ ns)

lemma Disciplined.init {file : Option TimeFile} {tr : List TimeShareTurn} {x : TimeShareTurn}
    (h : Disciplined file (tr ++ [x])) : Disciplined file tr where
  loads := fun past y hy => h.loads past y (hy.trans (List.prefix_append ..))
  stores_pos := fun ns hns => h.stores_pos ns (by
    rw [List.map_append, stores, List.filterMap_append]
    exact List.mem_append_left _ hns)
  stores_le := by
    have hle := h.stores_le
    rw [List.map_append, stores, List.filterMap_append] at hle
    exact (List.pairwise_append.mp hle).1
  readings_le := by
    have hle := h.readings_le
    rw [List.filterMap_append] at hle
    exact (List.pairwise_append.mp hle).1
  behind := by
    rintro past y later rfl now hnow
    obtain ⟨hlater, hpast⟩ := h.behind past y (later ++ [x]) (by simp) now hnow
    refine ⟨fun ns hns => hlater ns ?_, hpast⟩
    rw [List.map_append, stores, List.filterMap_append]
    exact List.mem_append_left _ hns

/-! ## What the steps so far tell of the state -/

/-- What is in the file, and what the camera has of it, by the steps so far. -/
structure Traced (file : Option TimeFile) (past : List TimeShareEvent) (s : TimeShare) : Prop where
  length : ∀ f ∈ s.file, f.length < 16 → Shortened past ∨ ¬Truncated past ∧ s.file = file
  low : ∀ f ∈ s.file, 0 < f.low → Timed past ∨ ¬Truncated past ∧ s.file = file
  last : Timed past → ∀ f ∈ s.file, (stores past).getLast? = some f.low
  running : Timed past → s.HasOpened ∨ Ended past
  blank : s.writer = .truncated ∨ s.writer = .extended ∨ s.writer = .mapped → ¬Timed past
  truncated : s.HasOpened ∨ Timed past → Truncated past
  loaded : ∀ ns, s.camera = .loaded ns → 0 < ns → ns ∈ stores past
  lidar : ∀ image ∈ s.lastImage, image.lidar = true → image.stamp ∈ stores past

lemma traced_initial (file : Option TimeFile) : Traced file [] (initial file) where
  length := fun _ _ _ => .inr ⟨List.not_mem_nil, rfl⟩
  low := fun _ _ _ => .inr ⟨List.not_mem_nil, rfl⟩
  last := False.elim
  running := False.elim
  blank := fun _ => id
  truncated := fun h => h.elim (fun h => absurd rfl h.1) False.elim
  loaded := nofun
  lidar := nofun

namespace Traced

variable {file : Option TimeFile} {past : List TimeShareEvent} {s t : TimeShare}
  {e : TimeShareEvent}

/-- A step of no account for the file. -/
lemma quiet (h : Traced file past s) (htrunc : e ≠ .openTrunc true) (hext : e ≠ .ftruncate true)
    (hstore : storeOf e = none) (hexit : e ≠ .exit) : Traced file (past ++ [e]) s := by
  have hshort : Shortened (past ++ [e]) ↔ Shortened past := by
    simp [Shortened, pending_snoc, htrunc, hext]
  have htimed : Timed (past ++ [e]) ↔ Timed past := by
    simp [Timed, pending_snoc, htrunc, hstore]
  have hended : Ended (past ++ [e]) ↔ Ended past := by
    simp [Ended, pending_snoc, htrunc, hexit]
  have htruncated : Truncated (past ++ [e]) ↔ Truncated past := by
    simp [Truncated, Ne.symm htrunc]
  have hstores : stores (past ++ [e]) = stores past := by
    simp [stores, hstore]
  constructor
  · rw [hshort, htruncated]
    exact h.length
  · rw [htimed, htruncated]
    exact h.low
  · rw [htimed, hstores]
    exact h.last
  · rw [htimed, hended]
    exact h.running
  · rw [htimed]
    exact h.blank
  · rw [htimed, htruncated]
    exact h.truncated
  · rw [hstores]
    exact h.loaded
  · rw [hstores]
    exact h.lidar

/-- The writer takes a step that leaves the file alone. -/
lemma writer {w : WriterPhase} {n : ℕ} (h : Traced file past s)
    (hopened : HasOpened { s with writer := w, session := n } → Truncated past)
    (htimed : Timed past → HasOpened { s with writer := w, session := n } ∨ Ended past)
    (hblank : w = .truncated ∨ w = .extended ∨ w = .mapped → ¬Timed past) :
    Traced file past { s with writer := w, session := n } where
  length := h.length
  low := h.low
  last := h.last
  running := htimed
  blank := hblank
  truncated := fun hs => hs.elim hopened fun ht => h.truncated (.inr ht)
  loaded := h.loaded
  lidar := h.lidar

/-- The file is truncated: nothing is in it. -/
lemma openTrunc (h : Traced file past s) :
    Traced file (past ++ [.openTrunc true])
      { s with writer := .truncated, file := some ⟨0, 0, s.session⟩ } := by
  have htimed : ¬Timed (past ++ [.openTrunc true]) := by simp [Timed, pending_snoc, storeOf]
  have hstores : stores (past ++ [.openTrunc true]) = stores past := by simp [stores, storeOf]
  refine ⟨fun f hf _ => .inl (pending_snoc.mpr (.inl rfl)), ?_, fun hc => absurd hc htimed,
    fun hc => absurd hc htimed, fun _ => htimed, fun _ => by simp [Truncated], ?_, ?_⟩
  · rintro f ⟨⟩ hpos
    exact absurd hpos (lt_irrefl 0)
  · rw [hstores]
    exact h.loaded
  · rw [hstores]
    exact h.lidar

/-- The file is extended. -/
lemma ftruncate (h : Traced file past s) (hw : s.writer = .truncated) :
    Traced file (past ++ [.ftruncate true])
      { s with
        writer := .extended
        file := s.file.map fun f => { f with length := 16 } } := by
  have hopened : s.HasOpened := by simp [HasOpened, hw]
  have htimed : Timed (past ++ [.ftruncate true]) ↔ Timed past := by
    simp [Timed, pending_snoc, storeOf]
  have hstores : stores (past ++ [.ftruncate true]) = stores past := by simp [stores, storeOf]
  have hblank : ¬Timed (past ++ [.ftruncate true]) := htimed.not.mpr (h.blank (.inl hw))
  have htruncated : Truncated (past ++ [.ftruncate true]) :=
    List.mem_append_left _ (h.truncated (.inl hopened))
  refine ⟨fun f hf hlen => ?_, fun f hf hpos => ?_, fun hc => absurd hc hblank,
    fun hc => absurd hc hblank, fun _ => hblank, fun _ => htruncated, ?_, ?_⟩
  · obtain ⟨g, -, rfl⟩ := Option.mem_map.mp hf
    exact absurd hlen (lt_irrefl 16)
  · obtain ⟨g, hg, rfl⟩ := Option.mem_map.mp hf
    obtain ht | ⟨hnever, -⟩ := h.low g hg hpos
    · exact .inl (htimed.mpr ht)
    · exact absurd (h.truncated (.inl hopened)) hnever
  · rw [hstores]
    exact h.loaded
  · rw [hstores]
    exact h.lidar

/-- The struct is zeroed. -/
lemma zero (h : Traced file past s) (hw : s.writer = .mapped) :
    Traced file past
      { s with writer := .ready, file := s.file.map fun f => { f with low := 0 } } := by
  have hopened : s.HasOpened := by simp [HasOpened, hw]
  have hblank : ¬Timed past := h.blank (.inr (.inr hw))
  refine ⟨fun f hf hlen => ?_, fun f hf hpos => ?_, fun hc => absurd hc hblank,
    fun hc => absurd hc hblank, fun _ => hblank, fun _ => h.truncated (.inl hopened), h.loaded,
    h.lidar⟩
  · obtain ⟨g, hg, rfl⟩ := Option.mem_map.mp hf
    obtain hs | ⟨hnever, -⟩ := h.length g hg hlen
    · exact .inl hs
    · exact absurd (h.truncated (.inl hopened)) hnever
  · obtain ⟨g, -, rfl⟩ := Option.mem_map.mp hf
    exact absurd hpos (lt_irrefl 0)

/-- A time is stored. -/
lemma store {ns : UInt64} (h : Traced file past s) (hw : s.writer = .ready) :
    Traced file (past ++ [.store ns])
      { s with file := s.file.map fun f =>
          { f with low := ns.toInt64.toInt, storedBy := s.session } } := by
  have hopened : s.HasOpened := by simp [HasOpened, hw]
  have htimed : Timed (past ++ [.store ns]) := pending_snoc.mpr (.inl rfl)
  have hstores : stores (past ++ [.store ns]) = stores past ++ [ns.toInt64.toInt] := by
    simp [stores, storeOf]
  have hshort : Shortened (past ++ [.store ns]) ↔ Shortened past := by
    simp [Shortened, pending_snoc]
  refine ⟨fun f hf hlen => ?_, fun f _ _ => .inl htimed, fun _ f hf => ?_, fun _ => .inl hopened,
    ?_, fun _ => List.mem_append_left _ (h.truncated (.inl hopened)), ?_, ?_⟩
  · obtain ⟨g, hg, rfl⟩ := Option.mem_map.mp hf
    obtain hs | ⟨hnever, -⟩ := h.length g hg hlen
    · exact .inl (hshort.mpr hs)
    · exact absurd (h.truncated (.inl hopened)) hnever
  · obtain ⟨g, -, rfl⟩ := Option.mem_map.mp hf
    rw [hstores, List.getLast?_concat]
  · rintro (hc | hc | hc) <;> simp [hw] at hc
  · intro v hv hpos
    rw [hstores]
    exact List.mem_append_left _ (h.loaded v hv hpos)
  · intro image himage hlidar
    rw [hstores]
    exact List.mem_append_left _ (h.lidar image himage hlidar)

/-- The lidar driver ends. -/
lemma exit (h : Traced file past s) : Traced file (past ++ [.exit]) { s with writer := .down } := by
  have htimed : Timed (past ++ [.exit]) ↔ Timed past := by simp [Timed, pending_snoc, storeOf]
  have hshort : Shortened (past ++ [.exit]) ↔ Shortened past := by simp [Shortened, pending_snoc]
  have hstores : stores (past ++ [.exit]) = stores past := by simp [stores, storeOf]
  have htruncated : Truncated (past ++ [.exit]) ↔ Truncated past := by simp [Truncated]
  refine ⟨?_, ?_, ?_, fun _ => .inr (pending_snoc.mpr (.inl rfl)), ?_, ?_, ?_, ?_⟩
  · rw [hshort, htruncated]
    exact h.length
  · rw [htimed, htruncated]
    exact h.low
  · rw [htimed, hstores]
    exact h.last
  · rintro (hc | hc | hc) <;> cases hc
  · rw [htimed, htruncated]
    exact fun hs => hs.elim (fun hc => absurd rfl hc.1) fun ht => h.truncated (.inr ht)
  · rw [hstores]
    exact h.loaded
  · rw [hstores]
    exact h.lidar

/-- The camera takes a step. -/
lemma camera {c : CameraPhase} {opened : Bool} {image : Option StampedImage}
    (h : Traced file past s) (hloaded : ∀ ns, c = .loaded ns → 0 < ns → ns ∈ stores past)
    (hlidar : ∀ i ∈ image, i.lidar = true → i.stamp ∈ stores past) :
    Traced file past { s with camera := c, opened := opened, lastImage := image } where
  length := h.length
  low := h.low
  last := h.last
  running := h.running
  blank := h.blank
  truncated := h.truncated
  loaded := hloaded
  lidar := hlidar

end Traced

/-- **Step lemma.** -/
lemma traced_step {file : Option TimeFile} {past : List TimeShareEvent} {s t : TimeShare}
    {e : TimeShareEvent} {o : Option StampedImage} (hstep : step s e = .ok (t, o))
    (h : Traced file past s)
    (hload : e = .camLoad → LoadInOrder file past s) : Traced file (past ++ [e]) t := by
  cases e with
  | start =>
      obtain ⟨hw, rfl, -⟩ := guarded_eq_ok.mp hstep
      have hq := h.quiet (e := .start) (by simp) (by simp) rfl (by simp)
      refine hq.writer (fun hc => absurd rfl hc.2) (fun ht => ?_) (by simp)
      obtain hc | hended := hq.running ht
      · exact absurd hw hc.1
      · exact .inr hended
  | openTrunc ok =>
      obtain ⟨hw, rfl, -⟩ := guarded_eq_ok.mp hstep
      cases ok with
      | true => exact h.openTrunc
      | false => exact h.quiet (by simp) (by simp) rfl (by simp)
  | ftruncate ok =>
      obtain ⟨hw, rfl, -⟩ := guarded_eq_ok.mp hstep
      cases ok with
      | true => exact h.ftruncate hw
      | false =>
          have hq := h.quiet (e := .ftruncate false) (by simp) (by simp) rfl (by simp)
          exact hq.writer (fun hc => absurd rfl hc.2)
            (fun ht => absurd ht (hq.blank (.inl hw))) (by simp)
  | mmap ok =>
      obtain ⟨hw, rfl, -⟩ := guarded_eq_ok.mp hstep
      have hq := h.quiet (e := .mmap ok) (by simp) (by simp) rfl (by simp)
      have hblank := hq.blank (.inr (.inl hw))
      exact hq.writer (fun _ => hq.truncated (.inl (by simp [HasOpened, hw])))
        (fun ht => absurd ht hblank) fun _ => hblank
  | zero =>
      obtain ⟨hw, rfl, -⟩ := guarded_eq_ok.mp hstep
      exact (h.quiet (e := .zero) (by simp) (by simp) rfl (by simp)).zero hw
  | store ns =>
      obtain ⟨hw, rfl, -⟩ := guarded_eq_ok.mp hstep
      exact h.store hw
  | exit =>
      obtain ⟨-, rfl, -⟩ := guarded_eq_ok.mp hstep
      exact h.exit
  | camOpen ok =>
      obtain ⟨-, rfl, -⟩ := guarded_eq_ok.mp hstep
      have hq := h.quiet (e := .camOpen ok) (by simp) (by simp) rfl (by simp)
      refine hq.camera (fun ns hns => ?_) hq.lidar
      split_ifs at hns
  | camMmap ok =>
      obtain ⟨-, rfl, -⟩ := guarded_eq_ok.mp hstep
      have hq := h.quiet (e := .camMmap ok) (by simp) (by simp) rfl (by simp)
      exact hq.camera (fun _ hns => by cases hns) hq.lidar
  | camLoad =>
      obtain ⟨-, rfl, -⟩ := guarded_eq_ok.mp hstep
      have hq := h.quiet (e := .camLoad) (by simp) (by simp) rfl (by simp)
      cases hread : s.readLowNs with
      | none => exact hq.camera (fun _ hns => by cases hns) hq.lidar
      | some ns =>
          refine hq.camera (fun ns' hns hpos => ?_) hq.lidar
          obtain rfl := CameraPhase.loaded.inj hns
          obtain ⟨hopened, f, hf, rfl⟩ := (readLowNs_eq_some hread).2 hpos
          obtain ht | ⟨hnever, hsame⟩ := h.low f hf hpos
          · rw [stores, List.filterMap_append]
            exact List.mem_append_left _ (List.mem_of_getLast? (h.last ht f hf))
          · obtain hc | hleft := (hload rfl).left hopened
            · exact absurd hc hnever
            · exact absurd hpos (not_lt.mpr (hleft f (hsame ▸ hf)).2)
  | camStamp now published =>
      have hq := h.quiet (e := .camStamp now published) (by simp) (by simp) rfl (by simp)
      cases hcam : s.camera with
      | loaded ns =>
          cases published with
          | false =>
              obtain ⟨rfl, -⟩ : _ ∧ none = o := by simpa [step, hcam] using hstep
              exact hq.camera (fun _ hns => by cases hns) hq.lidar
          | true =>
              obtain ⟨rfl, -⟩ : _ ∧ some (stampOf ns now) = o := by simpa [step, hcam] using hstep
              refine hq.camera (fun _ hns => by cases hns) fun image himage hlidar => ?_
              obtain rfl := Option.some.inj himage
              by_cases hns : 0 < ns
              · rw [stampOf, if_pos hns]
                exact hq.loaded ns hcam hns
              · rw [stampOf, if_neg hns] at hlidar
                cases hlidar
      | _ => simp [step, hcam] at hstep
  | camExit =>
      obtain ⟨rfl, -⟩ : _ ∧ none = o := by simpa [step] using hstep
      have hq := h.quiet (e := .camExit) (by simp) (by simp) rfl (by simp)
      exact hq.camera (fun _ hns => by cases hns) hq.lidar

/-! ## Disciplined runs -/

/-- A fallback stamp is a reading of the ROS clock. -/
def ReadBefore (tr : List TimeShareTurn) (s : TimeShare) : Prop :=
  ∀ image ∈ s.lastImage, image.lidar = false → ∃ past x later, tr = past ++ x :: later ∧
    image.stamp ∈ reading x

lemma readBefore_snoc {tr : List TimeShareTurn} {x : TimeShareTurn} (hx : x.Taken step)
    (h : ReadBefore tr x.pre) : ReadBefore (tr ++ [x]) x.post := by
  have hstep : step x.pre x.event = .ok (x.post, x.obs) := hx
  intro image himage hfallback
  obtain ⟨-, hsame⟩ | ⟨now, ns, he, hcam, hobs, hnew⟩ := step_obs hstep
  · rw [hsame] at himage
    obtain ⟨past, y, later, rfl, hy⟩ := h image himage hfallback
    exact ⟨past, y, later ++ [x], by simp, hy⟩
  · rw [hnew, hobs] at himage
    obtain rfl := Option.some.inj himage
    refine ⟨tr, x, [], rfl, ?_⟩
    by_cases hns : 0 < ns
    · rw [stampOf, if_pos hns] at hfallback
      cases hfallback
    · unfold reading
      rw [he, hcam, stampOf, if_neg hns]
      exact if_neg hns

section LastTurn

variable {file : Option TimeFile} {tr : List TimeShareTurn} {x : TimeShareTurn}

lemma orderlyLoad_of_disciplined (hd : Disciplined file (tr ++ [x])) (he : x.event = .camLoad)
    (ht : Traced file (tr.map Turn.event) x.pre) : x.pre.OrderlyLoad := by
  have hpos : ∀ ns ∈ stores (tr.map Turn.event), 0 < ns := hd.init.stores_pos
  have hload := hd.loads tr x List.prefix_rfl he
  refine ⟨fun hopened f hf => ⟨?_, fun hlow => ?_⟩, fun image himage hlidar => ?_⟩
  · by_contra hshort
    obtain hc | ⟨hnever, hsame⟩ := ht.length f hf (not_le.mp hshort)
    · exact hload.extended hopened hc
    · obtain hc | hleft := hload.left hopened
      · exact hnever hc
      · exact hshort (hleft f (hsame ▸ hf)).1
  · obtain htimed | ⟨hnever, hsame⟩ := ht.low f hf hlow
    · exact (ht.running htimed).resolve_right fun hc => hload.running hopened ⟨htimed, hc⟩
    · obtain hc | hleft := hload.left hopened
      · exact absurd hc hnever
      · exact absurd hlow (not_lt.mpr (hleft f (hsame ▸ hf)).2)
  · obtain ⟨hopened, htimed⟩ := hload.timed ⟨image, himage, hlidar⟩
    exact ⟨hopened, fun f hf => hpos _ (List.mem_of_getLast? (ht.last htimed f hf))⟩

lemma orderlyStore_of_disciplined {ns : UInt64} (hd : Disciplined file (tr ++ [x]))
    (he : x.event = .store ns) (ht : Traced file (tr.map Turn.event) x.pre)
    (hr : ReadBefore tr x.pre) : x.pre.OrderlyStore ns.toInt64.toInt := by
  have hstores : stores ((tr ++ [x]).map Turn.event) =
      stores (tr.map Turn.event) ++ [ns.toInt64.toInt] := by
    simp [stores, storeOf, he]
  have hle : ∀ v ∈ stores (tr.map Turn.event), v ≤ ns.toInt64.toInt := by
    have hall := hd.stores_le
    rw [hstores, List.pairwise_append] at hall
    exact fun v hv => hall.2.2 v hv _ (List.mem_singleton_self _)
  have hnew : 0 < ns.toInt64.toInt := hd.stores_pos _ (by
    rw [hstores]
    exact List.mem_append_right _ (List.mem_singleton_self _))
  refine ⟨fun v hv => ?_, fun image himage => ?_⟩
  · by_cases hv' : 0 < v
    · exact hle v (ht.loaded v hv hv')
    · omega
  · cases hlidar : image.lidar with
    | true => exact hle _ (ht.lidar image himage hlidar)
    | false =>
        obtain ⟨past, y, later, rfl, hy⟩ := hr image himage hlidar
        have hwhole : past ++ y :: later ++ [x] = past ++ y :: (later ++ [x]) := by simp
        have hmem : ns.toInt64.toInt ∈ stores ((later ++ [x]).map Turn.event) := by
          simp [stores, storeOf, he]
        exact (hd.behind past y (later ++ [x]) hwhole _ hy).1 _ hmem

lemma orderlyFallback_of_disciplined {now : ℤ} (hd : Disciplined file (tr ++ [x]))
    (he : x.event = .camStamp now true) (hs : Ordered x.pre)
    (ht : Traced file (tr.map Turn.event) x.pre) (hr : ReadBefore tr x.pre) :
    x.pre.OrderlyFallback now := by
  intro ns hcam hns
  have hreading : now ∈ reading x := by
    unfold reading
    rw [he, hcam]
    exact if_neg (not_lt.mpr hns)
  refine ⟨fun image himage => ?_, fun hopened f hf hlow => ?_⟩
  · have hfallback := hs.loaded_fallback ns hcam hns image himage
    obtain ⟨past, y, later, rfl, hy⟩ := hr image himage hfallback
    have hall := hd.readings_le
    rw [List.filterMap_append, List.pairwise_append] at hall
    refine hall.2.2 image.stamp (List.mem_filterMap.mpr ⟨y, by simp, hy⟩) now ?_
    exact List.mem_filterMap.mpr ⟨x, List.mem_singleton_self _, hreading⟩
  · obtain htimed | ⟨hnever, -⟩ := ht.low f hf hlow
    · exact (hd.behind tr x [] rfl now hreading).2 htimed _ (ht.last htimed f hf)
    · exact absurd (ht.truncated (.inl hopened)) hnever

/-- The last turn of a disciplined run is orderly. -/
lemma orderly_of_disciplined (hd : Disciplined file (tr ++ [x])) (hs : Ordered x.pre)
    (ht : Traced file (tr.map Turn.event) x.pre) (hr : ReadBefore tr x.pre) : Orderly x := by
  unfold Orderly
  split
  · rename_i he
    exact orderlyLoad_of_disciplined hd he ht
  · rename_i ns he
    exact orderlyStore_of_disciplined hd he ht hr
  · rename_i now he
    exact orderlyFallback_of_disciplined hd he hs ht hr
  · trivial

end LastTurn

/-- **Safety of disciplined runs**, from any file left by an earlier session. -/
theorem safe_of_disciplined {file : Option TimeFile} {tr : List TimeShareTurn} {t : TimeShare}
    (h : Exec step (initial file) tr t) (hd : Disciplined file tr) : Safe tr := by
  suffices hrun : (∀ x ∈ tr, Orderly x) ∧ Ordered t ∧ Traced file (tr.map Turn.event) t ∧
      ReadBefore tr t from safe_of_orderly h hrun.1
  revert hd
  refine h.history (C := fun _ => True) (P := fun tr t => Disciplined file tr →
    (∀ x ∈ tr, Orderly x) ∧ Ordered t ∧ Traced file (tr.map Turn.event) t ∧ ReadBefore tr t)
    (fun _ => ?_) ?_ fun _ _ => trivial
  · exact ⟨by simp, ordered_initial file, traced_initial file, by simp [ReadBefore, initial]⟩
  intro tr x _ hx _ ih hd
  obtain ⟨horderly, hordered, htraced, hread⟩ := ih hd.init
  have ho := orderly_of_disciplined hd hordered htraced hread
  refine ⟨fun y hy => ?_, ordered_step hx ho hordered, ?_, readBefore_snoc hx hread⟩
  · obtain hy | hy := List.mem_append.mp hy
    · exact horderly y hy
    · exact List.mem_singleton.mp hy ▸ ho
  · rw [List.map_append]
    exact traced_step hx htraced fun he => hd.loads tr x List.prefix_rfl he

/-- The order of a run can be tested on the turns up to each one. -/
lemma disciplined_of_inits {file : Option TimeFile} {tr : List TimeShareTurn}
    (hloads : ∀ l ∈ tr.inits, ∀ x ∈ l.getLast?, x.event = .camLoad →
      LoadInOrder file (l.dropLast.map Turn.event) x.pre)
    (hpos : ∀ ns ∈ stores (tr.map Turn.event), 0 < ns)
    (hstores : (stores (tr.map Turn.event)).Pairwise (· ≤ ·))
    (hreadings : (tr.filterMap reading).Pairwise (· ≤ ·))
    (hbehind : ∀ l ∈ tr.inits, ∀ x ∈ l.getLast?, ∀ now ∈ reading x,
      (∀ ns ∈ stores ((tr.drop l.length).map Turn.event), now ≤ ns) ∧
        (Timed (l.dropLast.map Turn.event) →
          ∀ ns ∈ (stores (l.dropLast.map Turn.event)).getLast?, now ≤ ns)) :
    Disciplined file tr where
  loads := fun past x hpast he => by
    have hload := hloads _ ((List.mem_inits ..).mpr hpast) x List.getLast?_concat he
    rwa [List.dropLast_concat] at hload
  stores_pos := hpos
  stores_le := hstores
  readings_le := hreadings
  behind := by
    rintro past x later rfl now hnow
    have hprefix : past ++ [x] <+: past ++ x :: later := ⟨later, by simp⟩
    have hback := hbehind _ ((List.mem_inits ..).mpr hprefix) x List.getLast?_concat now hnow
    rw [List.dropLast_concat] at hback
    have hdrop : (past ++ x :: later).drop (past ++ [x]).length = later := by
      rw [show past ++ x :: later = past ++ [x] ++ later by simp, List.drop_left]
    rwa [hdrop] at hback

instance (file : Option TimeFile) (past : List TimeShareEvent) (s : TimeShare) :
    Decidable (LoadInOrder file past s) :=
  decidable_of_iff ((s.opened = true → ¬Shortened past) ∧
    (s.opened = true → ¬(Timed past ∧ Ended past)) ∧
    (s.opened = true → Truncated past ∨ ∀ f ∈ file, 16 ≤ f.length ∧ f.low ≤ 0) ∧
    ((∃ image ∈ s.lastImage, image.lidar = true) → s.opened = true ∧ Timed past))
    ⟨fun ⟨hext, hrun, hleft, htimed⟩ => ⟨hext, hrun, hleft, htimed⟩,
      fun h => ⟨h.extended, h.running, h.left, h.timed⟩⟩

/-- The lidar driver starts while the camera is running, ends, and starts again between two
images. -/
def startUp : List TimeShareEvent :=
  [.camOpen true, .camLoad, .camStamp 5 true,
    .start, .openTrunc true, .ftruncate true, .mmap true, .zero, .store 100,
    .camOpen true, .camMmap true, .camLoad, .camStamp 6 true,
    .store 200, .camOpen true, .camLoad, .camStamp 7 true, .exit,
    .start, .openTrunc true, .ftruncate true, .mmap true, .zero, .store 300,
    .camOpen true, .camLoad, .camStamp 8 true]

/-- The run is disciplined; its images have the stamps 5, 100, 200 and 300. -/
theorem startUp_safe : images (trace step startUp (initial none)).1 =
      [⟨5, false⟩, ⟨100, true⟩, ⟨200, true⟩, ⟨300, true⟩] ∧
    Safe (trace step startUp (initial none)).1 :=
  ⟨by decide +kernel, safe_of_disciplined (Exec.of_trace startUp (initial none))
    (disciplined_of_inits (by decide +kernel) (by decide +kernel) (by decide +kernel)
      (by decide +kernel) (by decide +kernel))⟩

/-- The lidar driver ends after one image, and is started twice more while the camera is running. -/
def restarts : List TimeShareEvent :=
  [.start, .openTrunc true, .ftruncate true, .mmap true, .zero, .store 100,
    .camOpen true, .camMmap true, .camLoad, .camStamp 5 true, .exit,
    -- the value of the session that has ended is used
    .camOpen true, .camLoad, .camStamp 6 true,
    -- the new session has not stored a value
    .start, .openTrunc true, .ftruncate true, .camOpen true, .camLoad, .camStamp 7 true, .exit,
    -- the file has been truncated under the mapping
    .start, .openTrunc true, .camOpen true, .camLoad]

/-- A restart of the lidar driver breaks each part of what the camera relies on. -/
theorem restarts_unsafe : Exec step (initial none) (trace step restarts (initial none)).1
      (trace step restarts (initial none)).2 ∧
    (∃ x ∈ (trace step restarts (initial none)).1, ¬ LoadInside x) ∧
    (∃ x ∈ (trace step restarts (initial none)).1, ¬ FromRunning x) ∧
    ¬ (images (trace step restarts (initial none)).1).Pairwise Follows :=
  ⟨Exec.of_trace _ _, by decide +kernel, by decide +kernel, by decide +kernel⟩

end TimeShare

end FastLivo2
