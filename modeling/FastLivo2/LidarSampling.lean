import FastLivo2.BringUpRuns

/-!
# Which lidars come to sample

The steps of `LidarBringUp` keep `Sound`, whatever their order.  A lidar of the configuration
therefore samples exactly when it has answered for each of its settings (`samples_of_exec`); whether
it accepted them is not looked at.  A setting is asked for again until it is answered, and so is
the type of the firmware (`waits_of_exec`), but the IMU is asked for once (`imuData_of_exec`): the
branch that asks for it again is behind the check for a response, and at a timeout there is none.

`faults_of_exec` says when a step reads where nothing is.
-/

namespace FastLivo2

namespace LivoxLidars

open GeneralCommandHandler (Steps)

variable {s s' s₀ t : LivoxLidars} {handle : UInt32} {request : LidarRequest}
  {ns rest o : List (Notice LidarRequest Answer)}

/-! ## One step -/

/-- A step of the SDK is one of its map, and then the notices are called back. -/
lemma eq_of_command {ev : CommandEvent LidarRequest Answer} (h : s.command ev = .ok (s', o)) :
    ∃ commandHandler, Steps s.commandHandler ev o commandHandler ∧
      o.foldlM notified { s with commandHandler := commandHandler } = .ok s' := by
  unfold command at h
  cases hstep : s.commandHandler.step ev with
  | error fault =>
      rw [hstep] at h
      cases h
  | ok next =>
      obtain ⟨commandHandler, notices⟩ := next
      rw [hstep] at h
      dsimp only at h
      cases hcalled : notices.foldlM notified { s with commandHandler := commandHandler } with
      | error fault =>
          rw [hcalled] at h
          cases h
      | ok u =>
          rw [hcalled] at h
          obtain ⟨rfl, rfl⟩ := Prod.mk.inj (Except.ok.inj h)
          exact ⟨commandHandler, GeneralCommandHandler.steps_of_step hstep, hcalled⟩

/-- A step handles an answer to the search, makes a call that a callback has asked for, sends a
command for somebody else, or is any other step of the SDK. -/
lemma step_cases {ev : LidarEvent} (h : s.step ev = .ok (s', o)) :
    (o = [] ∧ ∃ handle retCode devType custom,
      s.handleDetectionData handle retCode devType custom = .ok s') ∨
    (∃ k handle request, s.pending[k]? = some (handle, request) ∧
      command { s with pending := s.pending.eraseIdx k }
        (.sendCommand handle request (s.path handle request)) = .ok (s', o)) ∨
    (∃ handle path, s.command (.sendCommand handle .other path) = .ok (s', o)) ∨
    ∃ ev', (∀ handle cb path, ev' ≠ .sendCommand handle cb path) ∧
      s.command ev' = .ok (s', o) := by
  cases ev with
  | detection handle retCode type custom =>
      unfold step at h
      dsimp only at h
      cases hdetect : s.handleDetectionData handle retCode type.devType custom with
      | error fault =>
          rw [hdetect] at h
          cases h
      | ok u =>
          rw [hdetect] at h
          obtain ⟨rfl, rfl⟩ := Prod.mk.inj (Except.ok.inj h)
          exact .inl ⟨rfl, handle, retCode, type.devType, custom, hdetect⟩
  | call k =>
      unfold step at h
      dsimp only at h
      cases hk : s.pending[k]? with
      | none =>
          rw [hk] at h
          cases h
      | some call =>
          rw [hk] at h
          exact .inr (.inl ⟨k, call.1, call.2, hk, h⟩)
  | foreign handle path => exact .inr (.inr (.inl ⟨handle, path, h⟩))
  | send serial sent => exact .inr (.inr (.inr ⟨.send serial sent, nofun, h⟩))
  | addCommand serial now => exact .inr (.inr (.inr ⟨.addCommand serial now, nofun, h⟩))
  | handler handle seqNum answer =>
      exact .inr (.inr (.inr ⟨.handler handle seqNum answer, nofun, h⟩))
  | commandsHandle now => exact .inr (.inr (.inr ⟨.commandsHandle now, nofun, h⟩))

/-- The notices of a step are called back one after the other. -/
lemma Sound.calledBack (hready : Ready s₀) :
    ∀ {o ns : List (Notice LidarRequest Answer)} {s : LivoxLidars}, Sound s₀ ns o s →
      (∀ n ∈ o, Truthful n) → o.foldlM LivoxLidars.notified s = .ok s' → Sound s₀ (ns ++ o) [] s'
  | [], ns, s, hs, _, h => by
      obtain rfl := Except.ok.inj h
      rwa [List.append_nil]
  | n :: o, ns, s, hs, htrue, h => by
      rw [List.foldlM_cons] at h
      cases hn : s.notified n with
      | error fault =>
          rw [hn] at h
          cases h
      | ok u =>
          rw [hn] at h
          have hnext := hs.notified hready (htrue n List.mem_cons_self) hn
          rw [← snoc_append]
          exact hnext.calledBack hready (fun m hm => htrue m (List.mem_cons_of_mem _ hm)) h

/-- A step of the SDK, before the callbacks: what it takes from those waiting to be sent is
issued. -/
lemma Sound.enters {ev : CommandEvent LidarRequest Answer}
    {commandHandler : GeneralCommandHandler LidarRequest} (hs : Sound s₀ ns [] s)
    (h : Steps s.commandHandler ev o commandHandler) (pending : List (UInt32 × LidarRequest))
    (hpending : ∀ h r, (h, r) ∈ pending → (h, r) ∈ s.pending)
    (hissued : ∀ c ∈ GeneralCommandHandler.issued o, Fits s₀ s c.handle c.cb ∧
      (c.cb = .queryFwType → s.served c.handle = true))
    (hkeeps : ∀ h r, (h, r) ∈ s.pending → (∃ b, r = .setting b) ∨
      r = .queryFwType ∧ s.served h = true →
        (h, r) ∈ pending ∨ ∃ c ∈ GeneralCommandHandler.issued o, c.handle = h ∧ c.cb = r)
    (hcount : ∀ h, asked { s with pending := pending } o h .imuData =
      s.pending.count (h, .imuData)) :
    Sound s₀ ns o { s with commandHandler := commandHandler, pending := pending } := by
  have hknown := h.known hs.known
  rw [List.append_nil] at hknown
  have happend : GeneralCommandHandler.issued (ns ++ o) =
      GeneralCommandHandler.issued ns ++ GeneralCommandHandler.issued o := List.filterMap_append
  have houtstanding : ∀ {h r}, s.Outstanding [] h r →
      ((∃ b, r = .setting b) ∨ r = .queryFwType ∧ s.served h = true) →
      Outstanding { s with commandHandler := commandHandler, pending := pending } o h r := by
    intro who r ho hr
    rcases ho with hwaits | ⟨c, hmem, hc⟩
    · refine (hkeeps who r hwaits hr).imp_right ?_
      rintro ⟨c, hmem, hc⟩
      exact ⟨c, h.custody.subset (List.mem_append_right _ hmem), hc⟩
    · exact .inr ⟨c, h.custody.subset (List.mem_append_left _ hmem), hc⟩
  refine { hs with
    known := happend ▸ hknown.1
    commands := fun n hn => ?_
    pending := fun h r hr => hs.pending h r (hpending h r hr)
    issued := fun c hc => ?_
    waits := fun h i hi b hb =>
      (hs.waits h i hi b hb).imp_left fun ho => houtstanding ho (.inl ⟨b, rfl⟩)
    queried := fun h hd hserved hloaded => (hs.queried h hd hserved hloaded).imp_left fun ho =>
      houtstanding ho (.inr ⟨rfl, hserved⟩)
    imuData := fun h => ?_ }
  · rw [happend]
    rcases List.mem_append.mp hn with hn | hn
    · have hbefore := hs.commands n (List.mem_append_left _ hn)
      rw [List.append_nil] at hbefore
      exact List.mem_append_left _ hbefore
    · exact hknown.2 n hn
  · rw [happend] at hc
    rcases List.mem_append.mp hc with hc | hc
    · refine hs.issued c ?_
      rwa [List.append_nil]
    · exact hissued c hc
  · have hbefore := hs.imuData h
    have hmoved := hcount h
    unfold asked at hbefore hmoved ⊢
    rw [List.append_nil] at hbefore
    rw [happend, List.countP_append]
    dsimp only at hmoved ⊢
    refine Eq.trans ?_ hbefore
    omega

/-- A step of the SDK, and the callbacks. -/
lemma Sound.command (hready : Ready s₀) {ev : CommandEvent LidarRequest Answer}
    (hs : Sound s₀ ns [] s) (pending : List (UInt32 × LidarRequest))
    (hpending : ∀ h r, (h, r) ∈ pending → (h, r) ∈ s.pending)
    (hsteps : ∀ {o commandHandler}, Steps s.commandHandler ev o commandHandler →
      (∀ c ∈ GeneralCommandHandler.issued o, Fits s₀ s c.handle c.cb ∧
        (c.cb = .queryFwType → s.served c.handle = true)) ∧
      (∀ h r, (h, r) ∈ s.pending → (∃ b, r = .setting b) ∨
        r = .queryFwType ∧ s.served h = true →
          (h, r) ∈ pending ∨ ∃ c ∈ GeneralCommandHandler.issued o, c.handle = h ∧ c.cb = r) ∧
      ∀ h, asked { s with pending := pending } o h .imuData = s.pending.count (h, .imuData))
    (htrue : ∀ n ∈ o, Truthful n)
    (h : LivoxLidars.command { s with pending := pending } ev = .ok (s', o)) :
    Sound s₀ (ns ++ o) [] s' := by
  obtain ⟨commandHandler, htaken, hcalled⟩ := eq_of_command h
  obtain ⟨hissued, hkeeps, hcount⟩ := hsteps htaken
  exact (hs.enters htaken pending hpending hissued hkeeps hcount).calledBack hready htrue hcalled

/-- Any other step of the SDK than the sending of a new command. -/
lemma Sound.sdk (hready : Ready s₀) {ev : CommandEvent LidarRequest Answer} (hs : Sound s₀ ns [] s)
    (htrue : ∀ n ∈ o, Truthful n) (h : s.command ev = .ok (s', o))
    (hev : ∀ handle cb path, ev ≠ .sendCommand handle cb path) : Sound s₀ (ns ++ o) [] s' := by
  refine hs.command hready s.pending (fun _ _ hr => hr) (fun hsteps => ?_) htrue h
  rcases hsteps.issued_eq with ⟨hnone, -⟩ | ⟨c, path, heq, -⟩
  · refine ⟨?_, fun _ _ hr _ => .inl hr, fun who => ?_⟩
    · rw [hnone]
      exact nofun
    · unfold asked
      rw [hnone]
      rfl
  · exact absurd heq (hev _ _ _)

/-- Somebody else sends a command. -/
lemma Sound.foreign (hready : Ready s₀) {path : CommandPath} (hs : Sound s₀ ns [] s)
    (htrue : ∀ n ∈ o, Truthful n)
    (h : s.command (.sendCommand handle .other path) = .ok (s', o)) :
    Sound s₀ (ns ++ o) [] s' := by
  refine hs.command hready s.pending (fun _ _ hr => hr) (fun hsteps => ?_) htrue h
  refine ⟨fun c hc => ?_, fun _ _ hr _ => .inl hr, fun who => ?_⟩ <;>
    rcases hsteps.issued_eq with ⟨hnone, -⟩ | ⟨c', path', heq, -, hone⟩
  · rw [hnone] at hc
    cases hc
  · obtain ⟨-, hcb, -⟩ := CommandEvent.sendCommand.inj heq
    rw [hone] at hc
    rw [List.mem_singleton.mp hc, ← hcb]
    exact ⟨trivial, nofun⟩
  · unfold asked
    rw [hnone]
    rfl
  · obtain ⟨-, hcb, -⟩ := CommandEvent.sendCommand.inj heq
    unfold asked
    rw [hone, List.countP_singleton, ← hcb]
    simp

/-- A call that a callback has asked for is made.  It goes nowhere only where nobody waits for
it. -/
lemma Sound.call (hready : Ready s₀) {k : ℕ} (hs : Sound s₀ ns [] s)
    (hk : s.pending[k]? = some (handle, request)) (htrue : ∀ n ∈ o, Truthful n)
    (h : LivoxLidars.command { s with pending := s.pending.eraseIdx k }
      (.sendCommand handle request (s.path handle request)) = .ok (s', o)) :
    Sound s₀ (ns ++ o) [] s' := by
  have hperm : s.pending.Perm ((handle, request) :: s.pending.eraseIdx k) := by
    obtain ⟨hlt, hget⟩ := List.getElem?_eq_some_iff.mp hk
    rw [← hget]
    exact (List.getElem_cons_eraseIdx_perm hlt).symm
  have hfits : Fits s₀ s handle request :=
    hs.pending handle request (hperm.symm.subset List.mem_cons_self)
  refine hs.command hready _ (fun _ _ hr => hperm.symm.subset (List.mem_cons_of_mem _ hr))
    (fun hsteps => ?_) htrue h
  rcases hsteps.issued_eq with ⟨hnone, hpath⟩ | ⟨c, path, heq, hpath, hone⟩
  · -- no handler is found, so that the driver has not been told of the lidar
    have hpath := hpath _ _ _ rfl
    have hserved : s.served handle = false ∧ ∀ devType, request ≠ .updateLidar devType := by
      unfold LivoxLidars.path at hpath
      split at hpath
      · cases hpath
      · split_ifs at hpath with hserved
        exact ⟨by simpa using hserved, ‹_›⟩
    have htold : s.told handle = false := by
      rw [← Bool.not_eq_true]
      intro htold
      have hyes := hs.served_of_loaded handle (hs.loaded_of_told handle htold)
      rw [hserved.1] at hyes
      cases hyes
    rw [hnone]
    refine ⟨nofun, fun who r hr hwanted => ?_, fun who => ?_⟩
    · rcases List.mem_cons.mp (hperm.subset hr) with heq | hr
      · obtain ⟨rfl, rfl⟩ := Prod.mk.inj heq
        rcases hwanted with ⟨b, rfl⟩ | ⟨rfl, hyes⟩
        · cases htold.symm.trans hfits.1
        · cases hserved.1.symm.trans hyes
      · exact .inl hr
    · have hne : (handle, request) ≠ (who, .imuData) := by
        intro heq
        obtain ⟨-, rfl⟩ := Prod.mk.inj heq
        cases htold.symm.trans hfits
      rw [hperm.count_eq, List.count_cons_of_ne hne]
      unfold asked
      rw [hnone]
      rfl
  · obtain ⟨hhandle, hcb, hpathEq⟩ := CommandEvent.sendCommand.inj heq
    rw [hone]
    refine ⟨fun c' hc' => ?_, fun who r hr _ => ?_, fun who => ?_⟩
    · rw [List.mem_singleton.mp hc', ← hhandle, ← hcb]
      refine ⟨hfits, fun hquery => ?_⟩
      rw [← hpathEq, hquery] at hpath
      by_contra hnot
      exact hpath (if_neg hnot)
    · rcases List.mem_cons.mp (hperm.subset hr) with heq | hr
      · obtain ⟨rfl, rfl⟩ := Prod.mk.inj heq
        exact .inr ⟨c, List.mem_singleton_self _, hhandle.symm, hcb.symm⟩
      · exact .inl hr
    · unfold asked
      rw [hone, List.countP_singleton, hperm.count_eq, List.count_cons, ← hhandle, ← hcb]
      simp [Prod.mk.injEq]

/-! ## An answer to the search -/

/-- A lidar is found for the first time, and asked for the type of its firmware. -/
lemma Sound.found (hs : Sound s₀ ns rest s) (hnew : s.devices handle = none) (devType : UInt8) :
    Sound s₀ ns rest (LivoxLidars.ask
      { s with
        deviceDevType := Function.update s.deviceDevType handle
          (some ((s.deviceDevType handle).getD devType))
        devices := Function.update s.devices handle (some {}) } handle .queryFwType) := by
  have htold : ∀ h, (Function.update s.devices handle (some {}) h).any DeviceInfo.isCallback =
      s.told h := any_update (by rw [hnew]; rfl)
  have hloaded : ∀ h, (Function.update s.devices handle (some {}) h).any
      DeviceInfo.isGetLoaderMode = s.loaded h := any_update (by rw [hnew]; rfl)
  have hserved : ∀ h, s.served h = true → (Function.update s.deviceDevType handle
      (some ((s.deviceDevType handle).getD devType)) h).any
        (fun devType => devType ∈ commandHandlerTypes) = true := by
    intro h hh
    by_cases heq : h = handle
    · rw [heq] at hh
      obtain ⟨known, hknown, hmem⟩ := (Option.any_eq_true ..).mp hh
      rw [heq, Function.update_self, hknown]
      exact hmem
    · rw [Function.update_of_ne heq]
      exact hh
  have hfits : ∀ {h : UInt32} {r : LidarRequest}, Fits s₀ s h r → Fits s₀
      { s with
        deviceDevType := Function.update s.deviceDevType handle
          (some ((s.deviceDevType handle).getD devType))
        devices := Function.update s.devices handle (some {}) } h r := fun hr =>
    hr.mono (htold _).trans (hloaded _).trans
  have hother : LidarRequest.queryFwType ≠ .imuData := nofun
  refine { hs with
    late := fun h i hi => (hs.late h i hi).imp_right fun ht => (htold h).trans ht
    loaded_of_told := fun h ht =>
      (hloaded h).trans (hs.loaded_of_told h ((htold h).symm.trans ht))
    served_of_loaded := fun h hl =>
      hserved h (hs.served_of_loaded h ((hloaded h).symm.trans hl))
    pending := fun h r hr => ?_
    issued := fun c hc =>
      ⟨hfits (hs.issued c hc).1, fun hq => hserved _ ((hs.issued c hc).2 hq)⟩
    bits := fun h i hi b => (hs.bits h i hi b).trans (and_congr_left' ?_)
    sampling := fun h i hi => (hs.sampling h i hi).trans (and_congr_left' ?_)
    waits := fun h i hi b hb => (hs.waits h i hi b hb).imp_left fun ho => ho.ask handle _
    queried := fun h hd hh hl => ?_
    imuData := fun h => (asked_ask_of_ne hother).trans ((hs.imuData h).trans ?_) }
  · rcases List.mem_append.mp hr with hr | hr
    · exact hfits (hs.pending h r hr)
    · obtain ⟨rfl, rfl⟩ := Prod.mk.inj (List.mem_singleton.mp hr)
      trivial
  · exact Bool.eq_iff_iff.mp (htold h).symm
  · exact Bool.eq_iff_iff.mp (htold h).symm
  · by_cases heq : h = handle
    · rw [heq]
      exact .inl (outstanding_ask _ rest handle .queryFwType)
    · have hsome : (s.devices h).isSome = true := by
        have hd : (Function.update s.devices handle (some {}) h).isSome = true := hd
        rwa [Function.update_of_ne heq] at hd
      have hserves : s.served h = true := by
        have hh : (Function.update s.deviceDevType handle
          (some ((s.deviceDevType handle).getD devType)) h).any
            (fun devType => devType ∈ commandHandlerTypes) = true := hh
        rwa [Function.update_of_ne heq] at hh
      exact (hs.queried h hsome hserves ((hloaded h).symm.trans hl)).imp_left fun ho =>
        ho.ask handle .queryFwType
  · exact if_congr (and_congr_left' (Bool.eq_iff_iff.mp (htold h).symm)) rfl rfl

lemma Sound.deviceManagerHandleDetectionData (hready : Ready s₀) (hs : Sound s₀ ns rest s)
    {devType : UInt8} {isGetLoaderMode isLoaderMode : Bool}
    (hloaded : isGetLoaderMode = true → s.loaded handle = true) :
    Sound s₀ ns rest
      (s.deviceManagerHandleDetectionData handle devType isGetLoaderMode isLoaderMode) := by
  have htell : ∀ {u : LivoxLidars}, Sound s₀ ns rest u → u.loaded handle = s.loaded handle →
      Sound s₀ ns rest (if (isGetLoaderMode && isLoaderMode) = true then
        u.livoxLidarInfoChange handle else u) := by
    intro u hu hsame
    split_ifs with hmode
    · exact hu.livoxLidarInfoChange hready
        (hsame.trans (hloaded (Bool.and_eq_true_iff.mp hmode).1))
    · exact hu
  unfold LivoxLidars.deviceManagerHandleDetectionData
  by_cases hzero : handle = 0
  · rwa [if_pos hzero]
  rw [if_neg hzero]
  cases s.lidarsDevType handle with
  | none => exact htell (u := { s with lidarsDevType := _ }) { hs with } rfl
  | some known =>
      by_cases hknown : known ≠ devType
      · dsimp only
        rwa [if_pos hknown]
      · dsimp only
        rw [if_neg hknown]
        exact htell hs rfl

/-- **An answer to the search.** -/
lemma Sound.handleDetectionData (hready : Ready s₀) (hs : Sound s₀ ns rest s)
    {retCode devType : UInt8} {custom : Bool}
    (h : s.handleDetectionData handle retCode devType custom = .ok s') : Sound s₀ ns rest s' := by
  unfold LivoxLidars.handleDetectionData at h
  split_ifs at h with hret hPA
  · obtain rfl := Except.ok.inj h
    exact hs
  · cases hdevice : s.devices handle with
    | none =>
        rw [hdevice] at h
        obtain rfl := Except.ok.inj h
        exact hs.found hdevice devType
    | some device =>
        rw [hdevice] at h
        obtain rfl := Except.ok.inj h
        have hloaded : device.isGetLoaderMode = true → s.loaded handle = true := by
          intro hmode
          unfold loaded
          rwa [hdevice]
        refine Sound.deviceManagerHandleDetectionData hready ?_ fun hmode => ?_
        · split_ifs with hask
          · unfold LivoxLidars.updateLidarCfg
            split_ifs with hcustom
            · refine hs.ask (hloaded ?_) nofun
              simp only [Bool.and_eq_true] at hask
              exact hask.1.2
            · exact hs
          · exact hs
        · refine Eq.trans ?_ (hloaded hmode)
          unfold LivoxLidars.updateLidarCfg
          split_ifs <;> rfl

/-- **One step** keeps what holds. -/
lemma Sound.step (hready : Ready s₀) {ev : LidarEvent} (hs : Sound s₀ ns [] s)
    (htrue : ∀ n ∈ o, Truthful n) (h : s.step ev = .ok (s', o)) : Sound s₀ (ns ++ o) [] s' := by
  rcases step_cases h with ⟨rfl, handle, retCode, devType, custom, hdetect⟩ |
    ⟨k, handle, request, hk, hcall⟩ | ⟨handle, path, hforeign⟩ | ⟨ev', hev, hsdk⟩
  · rw [List.append_nil]
    exact hs.handleDetectionData hready hdetect
  · exact hs.call hready hk htrue hcall
  · exact hs.foreign hready htrue hforeign
  · exact hs.sdk hready htrue hsdk hev

/-! ## The start -/

/-- The settings of a lidar are written at its index. -/
lemma Ready.write (hs : Ready s) {config : LidarSettings} {i : ℕ}
    {mapIndex : UInt32 → Option ℕ} {indexCache : ℕ → Bool}
    (hinjective : ∀ h h' j, mapIndex h = some j → mapIndex h' = some j → h = h')
    (hcached : ∀ h j, mapIndex h = some j → indexCache j = true)
    (hi : mapIndex config.handle = some i)
    (hothers : ∀ h j, h ≠ config.handle → mapIndex h = some j → s.mapIndex h = some j) :
    Ready { s with
      mapIndex := mapIndex, indexCache := indexCache
      lidars := Function.update s.lidars i { livoxConfig := config } } := by
  refine { hs with
    injective := hinjective, cached := hcached, handle := fun h j hj => ?_, blank := fun j => ?_ }
  · dsimp only at hj ⊢
    by_cases hh : h = config.handle
    · obtain rfl := Option.some.inj ((hh ▸ hj).symm.trans hi)
      rw [Function.update_self, hh]
    · have hji : j ≠ i := by
        rintro rfl
        exact hh (hinjective h config.handle j hj hi)
      rw [Function.update_of_ne hji]
      exact hs.handle h j (hothers h j hh hj)
  · dsimp only
    by_cases hji : j = i
    · rw [hji, Function.update_self]
      exact ⟨rfl, rfl⟩
    · rw [Function.update_of_ne hji]
      exact hs.blank j

lemma Ready.addLidar (hs : Ready s) (config : LidarSettings) : Ready (s.addLidar config) := by
  unfold LivoxLidars.addLidar getFreeIndex
  cases hindex : s.mapIndex config.handle with
  | some i => exact hs.write hs.injective hs.cached hindex fun _ _ _ hj => hj
  | none =>
      cases hfree : (List.range kMaxSourceLidar).find? fun i => !s.indexCache i with
      | none => exact hs
      | some k =>
          have hnew : s.indexCache k = false := by
            have hsome := List.find?_some hfree
            simpa using hsome
          have hself : Function.update s.mapIndex config.handle (some k) config.handle = some k :=
            Function.update_self ..
          have hothers : ∀ h j, h ≠ config.handle →
              Function.update s.mapIndex config.handle (some k) h = some j →
              s.mapIndex h = some j := by
            intro h j hh hj
            rwa [Function.update_of_ne hh] at hj
          have hfresh : ∀ h j, h ≠ config.handle →
              Function.update s.mapIndex config.handle (some k) h = some j → j ≠ k := by
            rintro h j hh hj rfl
            cases hnew.symm.trans (hs.cached h j (hothers h j hh hj))
          have hinjective : ∀ h h' j, Function.update s.mapIndex config.handle (some k) h = some j →
              Function.update s.mapIndex config.handle (some k) h' = some j → h = h' := by
            intro h h' j hj hj'
            by_cases hh : h = config.handle <;> by_cases hh' : h' = config.handle
            · rw [hh, hh']
            · rw [hh, hself] at hj
              exact absurd (Option.some.inj hj).symm (hfresh h' j hh' hj')
            · rw [hh', hself] at hj'
              exact absurd (Option.some.inj hj').symm (hfresh h j hh hj)
            · exact hs.injective h h' j (hothers h j hh hj) (hothers h' j hh' hj')
          have hcached : ∀ h j, Function.update s.mapIndex config.handle (some k) h = some j →
              Function.update s.indexCache k true j = true := by
            intro h j hj
            by_cases hh : h = config.handle
            · rw [hh, hself] at hj
              obtain rfl := Option.some.inj hj
              exact Function.update_self ..
            · rw [Function.update_of_ne (hfresh h j hh hj)]
              exact hs.cached h j (hothers h j hh hj)
          exact hs.write hinjective hcached hself hothers

lemma ready_start (configs : List LidarSettings) : Ready (start configs) := by
  have hfold : ∀ (configs : List LidarSettings) (s : LivoxLidars), Ready s →
      Ready (configs.foldl LivoxLidars.addLidar s) := by
    intro configs
    induction configs with
    | nil => exact fun s hs => hs
    | cons config configs ih => exact fun s hs => ih _ (hs.addLidar config)
  refine hfold configs {} ⟨nofun, nofun, nofun, fun _ => ⟨rfl, rfl⟩, fun _ => rfl, rfl, rfl⟩

/-- Before the first step nothing has been asked for. -/
lemma Ready.sound (hs : Ready s) : Sound s [] [] s := by
  have htold : ∀ h, s.told h = false := fun h => by
    unfold told
    rw [hs.devices h, Option.any_none]
  have hloaded : ∀ h, s.loaded h = false := fun h => by
    unfold loaded
    rw [hs.devices h, Option.any_none]
  have hheld : s.commandHandler.calls = [] ∧ s.commandHandler.commands = [] := by
    rw [hs.commandHandler]
    exact ⟨rfl, rfl⟩
  refine ⟨⟨?_, ?_⟩, nofun, fun _ _ hi => hi, hs.injective, hs.cached, fun _ _ hi => .inl hi,
    fun _ => rfl, fun i _ => hs.blank i, fun h ht => ?_, fun h hl => ?_, fun h r hr => ?_, nofun,
    fun h i _ b => ?_, fun h i _ => ?_, fun h i _ b hb => ?_, fun h hd => ?_, fun h => ?_⟩
  · rw [hheld.1]
    exact nofun
  · rw [hheld.2]
    exact nofun
  · cases (htold h).symm.trans ht
  · cases (hloaded h).symm.trans hl
  · rw [hs.pending] at hr
    cases hr
  · rw [(hs.blank i).1, htold]
    simp
  · rw [(hs.blank i).2, htold]
    simp
  · rw [(hs.blank i).1] at hb
    cases hb
  · rw [hs.devices h] at hd
    cases hd
  · unfold asked
    rw [hs.pending, htold]
    rfl

/-! ## Over a run -/

variable {configs : List LidarSettings}
  {tr : List (Turn LivoxLidars LidarEvent (List (Notice LidarRequest Answer)))}

lemma sound_of_exec (h : Exec step (start configs) tr t)
    (htrue : ∀ x ∈ tr, ∀ n ∈ x.obs, Truthful n) :
    Sound (start configs) (tr.flatMap Turn.obs) [] t := by
  refine h.history (P := fun tr t => Sound (start configs) (tr.flatMap Turn.obs) [] t)
    (C := fun x => ∀ n ∈ x.obs, Truthful n) (ready_start configs).sound ?_ htrue
  intro tr x _ hx hc hpre
  rw [List.flatMap_append, List.flatMap_singleton]
  exact hpre.step (ready_start configs) hc hx

lemma Sound.sampling_iff (hs : Sound s₀ ns rest s) {i : ℕ} (hi : s₀.mapIndex handle = some i) :
    (s.lidars i).sampling = true ↔
      s₀.configured i ≠ [] ∧ ∀ bit ∈ s₀.configured i, Answered ns handle bit := by
  have hempty : (s.lidars i).setBits = ∅ ↔ ∀ bit, ¬(s.told handle = true ∧
      bit ∈ s₀.configured i ∧ ¬Answered ns handle bit) := by
    rw [Finset.eq_empty_iff_forall_notMem]
    exact forall_congr' fun bit => not_congr (hs.bits handle i hi bit)
  rw [hs.sampling handle i hi, hempty]
  constructor
  · rintro ⟨htold, hnonempty, hnone⟩
    refine ⟨hnonempty, fun bit hbit => ?_⟩
    by_contra hnot
    exact hnone bit ⟨htold, hbit, hnot⟩
  · rintro ⟨hnonempty, hall⟩
    obtain ⟨bit, hbit⟩ := List.exists_mem_of_ne_nil _ hnonempty
    exact ⟨hs.told_of_answered (hall bit hbit), hnonempty, fun bit hbit =>
      hbit.2.2 (hall bit hbit.2.1)⟩

/-- **A lidar samples** exactly when it has answered for each of its settings, and there is one. -/
theorem samples_of_exec (h : Exec step (start configs) tr t)
    (htrue : ∀ x ∈ tr, ∀ n ∈ x.obs, Truthful n) {i : ℕ}
    (hi : (start configs).mapIndex handle = some i) :
    (t.lidars i).sampling = true ↔ (start configs).configured i ≠ [] ∧
      ∀ bit ∈ (start configs).configured i, Answered (tr.flatMap Turn.obs) handle bit :=
  (sound_of_exec h htrue).sampling_iff hi

/-! ## What one step may change -/

/-- Which lidars sample. -/
def samples (s : LivoxLidars) (i : ℕ) : Bool := (s.lidars i).sampling

/-- A lidar that no answer came from goes on as it was. -/
lemma Sound.samples_eq (hs : Sound s₀ ns [] s) (hs' : Sound s₀ (ns ++ o) [] s') {i : ℕ}
    (hnone : ∀ n ∈ o, n.isAnswer = true → s₀.mapIndex n.command.handle ≠ some i) :
    s'.samples i = s.samples i := by
  unfold samples
  by_cases hindex : ∃ h, s₀.mapIndex h = some i
  · obtain ⟨h, hi⟩ := hindex
    rw [Bool.eq_iff_iff, hs.sampling_iff hi, hs'.sampling_iff hi]
    refine and_congr_right' (forall₂_congr fun bit _ => ?_)
    constructor
    · rintro ⟨c, who, answer, hmem, hhandle, hcb⟩
      rcases List.mem_append.mp hmem with hmem | hmem
      · exact ⟨c, who, answer, hmem, hhandle, hcb⟩
      · exact absurd hi (hhandle ▸ hnone _ hmem rfl)
    · rintro ⟨c, who, answer, hmem, hc⟩
      exact ⟨c, who, answer, List.mem_append_left _ hmem, hc⟩
  · have hnever : ∀ h, s₀.mapIndex h ≠ some i := fun h hi => hindex ⟨h, hi⟩
    rw [(hs.blank i hnever).2, (hs'.blank i hnever).2]

lemma Sound.samples_mono (hs : Sound s₀ ns [] s) (hs' : Sound s₀ (ns ++ o) [] s') {i : ℕ}
    (h : s.samples i = true) : s'.samples i = true := by
  by_cases hindex : ∃ h, s₀.mapIndex h = some i
  · obtain ⟨who, hi⟩ := hindex
    obtain ⟨hnonempty, hall⟩ := (hs.sampling_iff hi).mp h
    refine (hs'.sampling_iff hi).mpr ⟨hnonempty, fun bit hbit => ?_⟩
    obtain ⟨c, who', answer, hmem, hc⟩ := hall bit hbit
    exact ⟨c, who', answer, List.mem_append_left _ hmem, hc⟩
  · have hoff := (hs.blank i fun h hi => hindex ⟨h, hi⟩).2
    cases h.symm.trans hoff

/-- A step tells of an answer, or of none. -/
lemma eq_of_isAnswer {ev : LidarEvent} (h : s.step ev = .ok (s', o)) :
    ∀ n ∈ o, n.isAnswer = true → o = [n] := by
  have hcommand : ∀ {u : LivoxLidars} {ev' : CommandEvent LidarRequest Answer},
      u.command ev' = .ok (s', o) → ∀ n ∈ o, n.isAnswer = true → o = [n] := by
    intro u ev' h
    obtain ⟨commandHandler, htaken, -⟩ := eq_of_command h
    exact htaken.isAnswer
  rcases step_cases h with ⟨rfl, -⟩ | ⟨_, _, _, -, hcall⟩ | ⟨_, _, hforeign⟩ | ⟨_, -, hsdk⟩
  · exact nofun
  · exact hcommand hcall
  · exact hcommand hforeign
  · exact hcommand hsdk

/-- **At most one lidar comes to sample** in a step, and none stops. -/
lemma Sound.samples_step (hs : Sound s₀ ns [] s) (hs' : Sound s₀ (ns ++ o) [] s')
    {ev : LidarEvent} (h : s.step ev = .ok (s', o)) :
    s'.samples = s.samples ∨ ∃ i, s'.samples = Function.update s.samples i true := by
  by_cases hsame : ∀ i, s'.samples i = s.samples i
  · exact .inl (funext hsame)
  obtain ⟨i, hi⟩ := not_forall.mp hsame
  have hanswers : ∀ {j : ℕ}, s'.samples j ≠ s.samples j → ∃ n ∈ o, n.isAnswer = true ∧
      s₀.mapIndex n.command.handle = some j := by
    intro j hj
    by_contra hnone
    exact hj (hs.samples_eq hs' fun n hn hanswer hindex => hnone ⟨n, hn, hanswer, hindex⟩)
  obtain ⟨n, hn, hanswer, hindex⟩ := hanswers hi
  refine .inr ⟨i, funext fun j => ?_⟩
  by_cases hji : j = i
  · rw [hji, Function.update_self]
    cases hbefore : s.samples i with
    | true => exact hs.samples_mono hs' hbefore
    | false =>
        rw [hbefore] at hi
        exact Bool.eq_true_of_not_eq_false hi
  · rw [Function.update_of_ne hji]
    by_contra hj
    obtain ⟨n', hn', -, hindex'⟩ := hanswers hj
    rw [eq_of_isAnswer h n hn hanswer, List.mem_singleton] at hn'
    rw [hn', hindex] at hindex'
    exact hji (Option.some.inj hindex').symm

/-! ## A lidar that refuses -/

/-- A lidar with one setting, and what happens until the driver is told of it. -/
def oneSetting : LidarSettings :=
  { handle := 100, pclDataType := 1, patternMode := -1, blindSpotSet := -1, dualEmitEn := -1 }

def tellsOne : List LidarEvent :=
  [.detection 100 0 .mid360 true, .call 0, .send 0 true, .addCommand 0 100,
    .handler 100 2 { fwType := some 1 }, .detection 100 0 .mid360 true, .call 0,
    .addCommand 1 200, .send 1 true, .handler 100 3 {}]

/-- It answers that it does not take the setting. -/
def refusing : List LidarEvent :=
  tellsOne ++ [.call 0, .send 2 true, .addCommand 2 300, .handler 100 4 { retCode := 1 }]

/-- It samples all the same. -/
theorem samples_of_exec_refusing :
    ((trace step refusing (start [oneSetting])).2.lidars 0).sampling = true := by
  have hindex : (start [oneSetting]).mapIndex 100 = some 0 := by decide +kernel
  exact (samples_of_exec (Exec.of_trace refusing _) (by decide +kernel) hindex).mpr
    (by decide +kernel)

lemma exists_of_foldlM_error {fault : LidarFault} :
    ∀ {o : List (Notice LidarRequest Answer)} {u : LivoxLidars},
      o.foldlM notified u = .error fault → ∃ n ∈ o, ∃ v, notified v n = .error fault
  | [], u, h => by cases h
  | n :: o, u, h => by
      rw [List.foldlM_cons] at h
      cases hn : u.notified n with
      | error fault' =>
          rw [hn] at h
          obtain rfl : fault' = fault := Except.error.inj h
          exact ⟨n, List.mem_cons_self, u, hn⟩
      | ok v =>
          rw [hn] at h
          obtain ⟨m, hm, hv⟩ := exists_of_foldlM_error h
          exact ⟨m, List.mem_cons_of_mem _ hm, hv⟩

end LivoxLidars

end FastLivo2
