import FastLivo2.LidarBringUp

/-!
# What holds between the callbacks

What a lidar is asked for is on its way until it is answered: a callback has still to send it, or
`SendCommand` or the map of commands holds it (`Outstanding`).  `Sound` is what holds between any
two steps, and also between two callbacks of one step: the notices of the step not yet called back
are a parameter.  Every callback keeps it (`Sound.notified`), where answers come from the lidar that
was asked (`Truthful`).
-/

namespace FastLivo2

namespace LivoxLidars

open GeneralCommandHandler (issued left)

variable {s s' s₀ t : LivoxLidars} {handle : UInt32} {request : LidarRequest}
  {ns rest : List (Notice LidarRequest Answer)}

/-! ## What is known of a lidar -/

/-- The type of its firmware is known. -/
def loaded (s : LivoxLidars) (handle : UInt32) : Bool :=
  (s.devices handle).any DeviceInfo.isGetLoaderMode

/-- The driver has been told of it. -/
def told (s : LivoxLidars) (handle : UInt32) : Bool :=
  (s.devices handle).any DeviceInfo.isCallback

/-- The settings that the configuration has for the lidar of an index. -/
def configured (s : LivoxLidars) (index : ℕ) : List LivoxLidarConfigCodeBit :=
  (s.lidars index).livoxConfig.configured

/-- It has answered a request for the setting. -/
def Answered (ns : List (Notice LidarRequest Answer)) (handle : UInt32)
    (bit : LivoxLidarConfigCodeBit) : Prop :=
  ∃ c who answer, .answered c who answer ∈ ns ∧ c.handle = handle ∧ c.cb = .setting bit

lemma answered_iff {ns : List (Notice LidarRequest Answer)} {handle : UInt32}
    {bit : LivoxLidarConfigCodeBit} :
    Answered ns handle bit ↔ ∃ n ∈ ns, n.isAnswer = true ∧ n.command.handle = handle ∧
      n.command.cb = .setting bit := by
  constructor
  · rintro ⟨c, who, answer, hmem, hc⟩
    exact ⟨_, hmem, rfl, hc⟩
  · rintro ⟨n, hmem, hanswer, hc⟩
    cases n with
    | answered c who answer => exact ⟨c, who, answer, hmem, hc⟩
    | _ => cases hanswer

instance (ns : List (Notice LidarRequest Answer)) (handle : UInt32)
    (bit : LivoxLidarConfigCodeBit) : Decidable (Answered ns handle bit) :=
  decidable_of_iff' _ answered_iff

/-- Another command has taken the number of the request. -/
def Displaced (ns : List (Notice LidarRequest Answer)) (handle : UInt32) (request : LidarRequest) :
    Prop :=
  ∃ c other, .displaced c other ∈ ns ∧ c.handle = handle ∧ c.cb = request

/-- The request is on its way; `rest` are the notices not yet called back. -/
def Outstanding (s : LivoxLidars) (rest : List (Notice LidarRequest Answer)) (handle : UInt32)
    (request : LidarRequest) : Prop :=
  (handle, request) ∈ s.pending ∨
    ∃ c ∈ left rest ++ s.commandHandler.held, c.handle = handle ∧ c.cb = request

/-- How often the lidar has been asked. -/
def asked (s : LivoxLidars) (ns : List (Notice LidarRequest Answer)) (handle : UInt32)
    (request : LidarRequest) : ℕ :=
  s.pending.count (handle, request) +
    (issued ns).countP fun c => c.handle = handle ∧ c.cb = request

/-- Only what fits the lidar is asked for. -/
def Fits (s₀ s : LivoxLidars) (handle : UInt32) : LidarRequest → Prop
  | .updateLidar _ => s.loaded handle = true
  | .setting bit => s.told handle = true ∧ ∃ i, s₀.mapIndex handle = some i ∧ bit ∈ s₀.configured i
  | .installAttitude => s.told handle = true ∧ ∃ i, s₀.mapIndex handle = some i
  | .workMode | .imuData => s.told handle = true
  | .queryFwType | .other => True

/-- The lidars of the configuration, each at its index, before the first event. -/
structure Ready (s₀ : LivoxLidars) : Prop where
  injective : ∀ h h' i, s₀.mapIndex h = some i → s₀.mapIndex h' = some i → h = h'
  cached : ∀ h i, s₀.mapIndex h = some i → s₀.indexCache i = true
  handle : ∀ h i, s₀.mapIndex h = some i → (s₀.lidars i).livoxConfig.handle = h
  blank : ∀ i, (s₀.lidars i).setBits = ∅ ∧ (s₀.lidars i).sampling = false
  devices : ∀ h, s₀.devices h = none
  pending : s₀.pending = []
  commandHandler : s₀.commandHandler = {}

/-- What holds after the notices `ns`, with those of `rest` still to be called back. -/
structure Sound (s₀ : LivoxLidars) (ns rest : List (Notice LidarRequest Answer))
    (s : LivoxLidars) : Prop where
  known : s.commandHandler.Known (issued (ns ++ rest))
  commands : ∀ n ∈ ns ++ rest, n.command ∈ issued (ns ++ rest)
  index : ∀ h i, s₀.mapIndex h = some i → s.mapIndex h = some i
  injective : ∀ h h' i, s.mapIndex h = some i → s.mapIndex h' = some i → h = h'
  cached : ∀ h i, s.mapIndex h = some i → s.indexCache i = true
  /-- A lidar that the configuration has not gets an index when the driver is told of it. -/
  late : ∀ h i, s.mapIndex h = some i → s₀.mapIndex h = some i ∨ s.told h = true
  config : ∀ i, (s.lidars i).livoxConfig = (s₀.lidars i).livoxConfig
  blank : ∀ i, (∀ h, s₀.mapIndex h ≠ some i) →
    (s.lidars i).setBits = ∅ ∧ (s.lidars i).sampling = false
  loaded_of_told : ∀ h, s.told h = true → s.loaded h = true
  served_of_loaded : ∀ h, s.loaded h = true → s.served h = true
  pending : ∀ h r, (h, r) ∈ s.pending → Fits s₀ s h r
  issued : ∀ c ∈ issued (ns ++ rest), Fits s₀ s c.handle c.cb ∧
    (c.cb = .queryFwType → s.served c.handle = true)
  bits : ∀ h i, s₀.mapIndex h = some i → ∀ b, b ∈ (s.lidars i).setBits ↔
    s.told h = true ∧ b ∈ s₀.configured i ∧ ¬Answered ns h b
  sampling : ∀ h i, s₀.mapIndex h = some i → ((s.lidars i).sampling = true ↔
    s.told h = true ∧ s₀.configured i ≠ [] ∧ (s.lidars i).setBits = ∅)
  waits : ∀ h i, s₀.mapIndex h = some i → ∀ b ∈ (s.lidars i).setBits,
    s.Outstanding rest h (.setting b) ∨ Displaced ns h (.setting b)
  queried : ∀ h, (s.devices h).isSome = true → s.served h = true → s.loaded h = false →
    s.Outstanding rest h .queryFwType ∨ Displaced ns h .queryFwType
  imuData : ∀ h, s.asked (ns ++ rest) h .imuData =
    if s.told h = true ∧ (s.mapIndex h).isSome = true then 1 else 0

/-! ## Asking for something -/

@[simp] lemma loaded_ask (h : UInt32) : (s.ask handle request).loaded h = s.loaded h := rfl

@[simp] lemma told_ask (h : UInt32) : (s.ask handle request).told h = s.told h := rfl

lemma Fits.mono {h : UInt32} {r : LidarRequest} (hr : Fits s₀ s h r)
    (htold : s.told h = true → s'.told h = true)
    (hloaded : s.loaded h = true → s'.loaded h = true) : Fits s₀ s' h r := by
  cases r with
  | updateLidar devType => exact hloaded hr
  | setting b => exact ⟨htold hr.1, hr.2⟩
  | installAttitude => exact ⟨htold hr.1, hr.2⟩
  | workMode => exact htold hr
  | imuData => exact htold hr
  | queryFwType => exact hr
  | other => exact hr

lemma Outstanding.ask {h : UInt32} {r : LidarRequest} (ho : s.Outstanding rest h r)
    (handle : UInt32) (request : LidarRequest) : (s.ask handle request).Outstanding rest h r :=
  ho.imp_left fun hpending => List.mem_append_left _ hpending

lemma outstanding_ask (s : LivoxLidars) (rest : List (Notice LidarRequest Answer))
    (handle : UInt32) (request : LidarRequest) :
    (s.ask handle request).Outstanding rest handle request :=
  .inl (List.mem_append_right _ (List.mem_singleton_self _))

lemma asked_ask_of_ne {h : UInt32} {r : LidarRequest} (hr : request ≠ r) :
    (s.ask handle request).asked ns h r = s.asked ns h r := by
  unfold asked ask
  rw [List.count_append, List.count_singleton, if_neg, Nat.add_zero]
  simpa using fun _ => hr

/-- Something that fits may be asked for, if it is not the IMU. -/
lemma Sound.ask (hs : Sound s₀ ns rest s) (hfits : Fits s₀ s handle request)
    (himu : request ≠ .imuData) : Sound s₀ ns rest (s.ask handle request) := by
  refine { hs with
    pending := fun h r hr => ?_
    waits := fun h i hi b hb => (hs.waits h i hi b hb).imp_left fun ho => ho.ask handle request
    queried := fun h hd hserved hloaded =>
      (hs.queried h hd hserved hloaded).imp_left fun ho => ho.ask handle request
    imuData := fun h => (asked_ask_of_ne himu).trans (hs.imuData h) }
  rcases List.mem_append.mp hr with hr | hr
  · exact hs.pending h r hr
  · obtain ⟨rfl, rfl⟩ := Prod.mk.inj (List.mem_singleton.mp hr)
    exact hfits

/-! ## One callback -/

/-- Members that nothing here depends on. -/
lemma Sound.of_count (hs : Sound s₀ ns rest s) (count : ℕ) :
    Sound s₀ ns rest { s with count := count } := { hs with }

lemma Sound.of_updated (hs : Sound s₀ ns rest s) (updated : UInt8 → UInt32 → Bool) :
    Sound s₀ ns rest { s with updated := updated } := { hs with }

lemma left_cons (n : Notice LidarRequest Answer) :
    left (n :: rest) = left [n] ++ left rest := by
  unfold left
  rw [← List.filterMap_append, List.singleton_append]

lemma snoc_append (n : Notice LidarRequest Answer) : ns ++ [n] ++ rest = ns ++ n :: rest := by
  rw [List.append_assoc, List.singleton_append]

lemma Answered.mono {b : LivoxLidarConfigCodeBit} {h : UInt32} (ha : Answered ns h b)
    (n : Notice LidarRequest Answer) : Answered (ns ++ [n]) h b := by
  obtain ⟨c, who, answer, hmem, hc⟩ := ha
  exact ⟨c, who, answer, List.mem_append_left _ hmem, hc⟩

lemma Displaced.mono {r : LidarRequest} {h : UInt32} (hd : Displaced ns h r)
    (n : Notice LidarRequest Answer) : Displaced (ns ++ [n]) h r := by
  obtain ⟨c, other, hmem, hc⟩ := hd
  exact ⟨c, other, List.mem_append_left _ hmem, hc⟩

/-- A request is no longer on its way when its notice is done, but for what has become of it. -/
lemma Outstanding.pop {n : Notice LidarRequest Answer} {h : UInt32} {r : LidarRequest}
    (ho : s.Outstanding (n :: rest) h r)
    (hleft : ∀ c ∈ left [n], c.handle = h → c.cb = r →
      (h, r) ∈ s.pending ∨ Displaced [n] h r) :
    s.Outstanding rest h r ∨ Displaced (ns ++ [n]) h r := by
  rcases ho with hpending | ⟨c, hmem, hhandle, hcb⟩
  · exact .inl (.inl hpending)
  rw [left_cons, List.append_assoc] at hmem
  rcases List.mem_append.mp hmem with hmem | hmem
  · rcases hleft c hmem hhandle hcb with hpending | ⟨c', other, hn, hc'⟩
    · exact .inl (.inl hpending)
    · exact .inr ⟨c', other, List.mem_append_right _ hn, hc'⟩
  · exact .inl (.inr ⟨c, hmem, hhandle, hcb⟩)

/-- A notice is done with that is no setting's answer. -/
lemma Sound.pop {n : Notice LidarRequest Answer} (hs : Sound s₀ ns (n :: rest) s)
    (hanswer : ∀ h b, ¬Answered [n] h b)
    (hsetting : ∀ c ∈ left [n], ∀ b, c.cb = .setting b →
      (c.handle, c.cb) ∈ s.pending ∨ Displaced [n] c.handle c.cb)
    (hquery : ∀ c ∈ left [n], c.cb = .queryFwType → (s.devices c.handle).isSome = true →
      s.loaded c.handle = false → (c.handle, c.cb) ∈ s.pending ∨ Displaced [n] c.handle c.cb) :
    Sound s₀ (ns ++ [n]) rest s := by
  have hsame : ∀ h b, Answered (ns ++ [n]) h b ↔ Answered ns h b := by
    refine fun h b => ⟨?_, fun ha => ha.mono n⟩
    rintro ⟨c, who, answer, hmem, hc⟩
    rcases List.mem_append.mp hmem with hmem | hmem
    · exact ⟨c, who, answer, hmem, hc⟩
    · exact absurd ⟨c, who, answer, hmem, hc⟩ (hanswer h b)
  refine { hs with
    known := by rw [snoc_append]; exact hs.known
    commands := by rw [snoc_append]; exact hs.commands
    issued := by rw [snoc_append]; exact hs.issued
    bits := fun h i hi b => by rw [hsame]; exact hs.bits h i hi b
    waits := fun h i hi b hb => ?_
    queried := fun h hd hserved hloaded => ?_
    imuData := by rw [snoc_append]; exact hs.imuData }
  · rcases hs.waits h i hi b hb with ho | hdisplaced
    · refine ho.pop fun c hc hhandle hcb => ?_
      have hdone := hsetting c hc b hcb
      rwa [hhandle, hcb] at hdone
    · exact .inr (hdisplaced.mono n)
  · rcases hs.queried h hd hserved hloaded with ho | hdisplaced
    · refine ho.pop fun c hc hhandle hcb => ?_
      have hdone := hquery c hc hcb
      rw [hhandle, hcb] at hdone
      exact hdone hd hloaded
    · exact .inr (hdisplaced.mono n)

lemma clearBit_lidars_self (i : ℕ) (b : LivoxLidarConfigCodeBit) :
    (s.clearBit i b).lidars i = { s.lidars i with
      setBits := (s.lidars i).setBits.erase b
      sampling := (s.lidars i).sampling || (s.lidars i).setBits.erase b = ∅ } :=
  Function.update_self ..

lemma clearBit_lidars_of_ne {i j : ℕ} (hj : j ≠ i) (b : LivoxLidarConfigCodeBit) :
    (s.clearBit i b).lidars j = s.lidars j := Function.update_of_ne hj _ _

/-- An answer for a setting adds that one to those answered for. -/
lemma answered_snoc_iff {c : Command LidarRequest} {who : UInt32} {answer : Answer}
    {b b' : LivoxLidarConfigCodeBit} {h : UInt32} (hcb : c.cb = .setting b) :
    Answered (ns ++ [.answered c who answer]) h b' ↔
      Answered ns h b' ∨ c.handle = h ∧ b' = b := by
  constructor
  · rintro ⟨c', who', answer', hmem, hc'⟩
    rcases List.mem_append.mp hmem with hmem | hmem
    · exact .inl ⟨c', who', answer', hmem, hc'⟩
    · obtain ⟨rfl, -, -⟩ := Notice.answered.inj (List.mem_singleton.mp hmem)
      exact .inr ⟨hc'.1, LidarRequest.setting.inj (hc'.2.symm.trans hcb)⟩
  · rintro (ha | ⟨hhandle, rfl⟩)
    · exact ha.mono _
    · exact ⟨c, who, answer, List.mem_append_right _ (List.mem_singleton_self _), hhandle, hcb⟩

/-- Any other request stays on its way when one is answered. -/
lemma Outstanding.answered {c : Command LidarRequest} {who : UInt32} {answer : Answer} {h : UInt32}
    {r : LidarRequest} (ho : s.Outstanding (.answered c who answer :: rest) h r)
    (hne : ¬(c.handle = h ∧ c.cb = r)) :
    s.Outstanding rest h r ∨ Displaced (ns ++ [.answered c who answer]) h r := by
  refine ho.pop fun c' hc' hhandle hcb' => ?_
  rw [List.mem_singleton.mp hc'] at hhandle hcb'
  exact absurd ⟨hhandle, hcb'⟩ hne

lemma Sound.eq_of_index (hs : Sound s₀ ns rest s) {h : UInt32} {i : ℕ}
    (hh : s₀.mapIndex h = some i) (hi : s.mapIndex handle = some i) : h = handle :=
  hs.injective _ _ _ (hs.index _ _ hh) hi

section Answered

variable {c : Command LidarRequest} {who : UInt32} {answer : Answer}
  {b : LivoxLidarConfigCodeBit} {i : ℕ}

lemma handle_ne_of_index (hi : s₀.mapIndex c.handle = some i) {h : UInt32} {j : ℕ}
    (hj : s₀.mapIndex h = some j) (hji : j ≠ i) : c.handle ≠ h := by
  rintro rfl
  exact hji (Option.some.inj (hj.symm.trans hi))

lemma Sound.bits_clearBit (hs : Sound s₀ ns rest s) (hcb : c.cb = .setting b)
    (hi : s₀.mapIndex c.handle = some i) {h : UInt32} {j : ℕ} (hj : s₀.mapIndex h = some j)
    (b' : LivoxLidarConfigCodeBit) : b' ∈ ((s.clearBit i b).lidars j).setBits ↔
      s.told h = true ∧ b' ∈ s₀.configured j ∧
        ¬Answered (ns ++ [.answered c who answer]) h b' := by
  rw [answered_snoc_iff hcb]
  by_cases hji : j = i
  · rw [hji] at hj ⊢
    rw [clearBit_lidars_self, Finset.mem_erase, hs.bits h i hj b',
      hs.eq_of_index hj (hs.index _ i hi)]
    simp only [true_and, not_or]
    tauto
  · rw [clearBit_lidars_of_ne hji, hs.bits h j hj b', or_iff_left fun hsame =>
      handle_ne_of_index hi hj hji hsame.1]

/-- The lidar samples from now on if this was its last setting. -/
lemma Sound.sampling_clearBit (hs : Sound s₀ ns rest s) (htold : s.told c.handle = true)
    (hi : s₀.mapIndex c.handle = some i) (hb : b ∈ s₀.configured i) {h : UInt32} {j : ℕ}
    (hj : s₀.mapIndex h = some j) : ((s.clearBit i b).lidars j).sampling = true ↔
      s.told h = true ∧ s₀.configured j ≠ [] ∧ ((s.clearBit i b).lidars j).setBits = ∅ := by
  by_cases hji : j = i
  · rw [hji] at hj ⊢
    have hbefore := hs.sampling h i hj
    rw [hs.eq_of_index hj (hs.index _ i hi)] at hbefore ⊢
    have hnonempty : s₀.configured i ≠ [] := List.ne_nil_of_mem hb
    rw [clearBit_lidars_self]
    simp only [Bool.or_eq_true, decide_eq_true_eq]
    constructor
    · rintro (hsampling | hempty)
      · obtain ⟨-, -, hnone⟩ := hbefore.mp hsampling
        exact ⟨htold, hnonempty, by rw [hnone, Finset.erase_empty]⟩
      · exact ⟨htold, hnonempty, hempty⟩
    · exact fun hafter => .inr hafter.2.2
  · rw [clearBit_lidars_of_ne hji]
    exact hs.sampling h j hj

lemma Sound.waits_clearBit (hs : Sound s₀ ns (.answered c who answer :: rest) s)
    (hcb : c.cb = .setting b) (hi : s₀.mapIndex c.handle = some i) {h : UInt32} {j : ℕ}
    (hj : s₀.mapIndex h = some j) {b' : LivoxLidarConfigCodeBit}
    (hb' : b' ∈ ((s.clearBit i b).lidars j).setBits) :
    s.Outstanding rest h (.setting b') ∨
      Displaced (ns ++ [.answered c who answer]) h (.setting b') := by
  have hopen : b' ∈ (s.lidars j).setBits ∧ ¬(c.handle = h ∧ c.cb = .setting b') := by
    by_cases hji : j = i
    · rw [hji, clearBit_lidars_self] at hb'
      obtain ⟨hne, hbefore⟩ := Finset.mem_erase.mp hb'
      rw [hji]
      exact ⟨hbefore, fun hsame => hne (LidarRequest.setting.inj (hsame.2.symm.trans hcb))⟩
    · rw [clearBit_lidars_of_ne hji] at hb'
      exact ⟨hb', fun hsame => handle_ne_of_index hi hj hji hsame.1⟩
  rcases hs.waits h j hj b' hopen.1 with ho | hdisplaced
  · exact ho.answered hopen.2
  · exact .inr (hdisplaced.mono _)

/-- A setting is answered for. -/
lemma Sound.clearBit (hs : Sound s₀ ns (.answered c who answer :: rest) s)
    (hcb : c.cb = .setting b) (hi : s₀.mapIndex c.handle = some i) :
    Sound s₀ (ns ++ [.answered c who answer]) rest (s.clearBit i b) := by
  have hfits := (hs.issued c (hs.commands _ (List.mem_append_right _ List.mem_cons_self))).1
  rw [hcb] at hfits
  obtain ⟨htold, i', hi', hconfigured⟩ := hfits
  obtain rfl := Option.some.inj (hi'.symm.trans hi)
  refine { hs with
    known := by rw [snoc_append]; exact hs.known
    commands := by rw [snoc_append]; exact hs.commands
    issued := by rw [snoc_append]; exact hs.issued
    config := fun j => ?_
    blank := fun j hj => ?_
    bits := fun h j hj => hs.bits_clearBit hcb hi hj
    sampling := fun h j hj => hs.sampling_clearBit htold hi hconfigured hj
    waits := fun h j hj b' hb' => hs.waits_clearBit hcb hi hj hb'
    queried := fun h hd hserved hloaded => ?_
    imuData := by rw [snoc_append]; exact hs.imuData }
  · by_cases hji : j = i'
    · rw [hji, clearBit_lidars_self]
      exact hs.config i'
    · rw [clearBit_lidars_of_ne hji]
      exact hs.config j
  · have hji : j ≠ i' := by
      rintro rfl
      exact hj c.handle hi
    rw [clearBit_lidars_of_ne hji]
    exact hs.blank j hj
  · rcases hs.queried h hd hserved hloaded with ho | hdisplaced
    · exact ho.answered fun hsame => by cases hcb.symm.trans hsame.2
    · exact .inr (hdisplaced.mono _)

end Answered

/-! ## A device is written -/

lemma any_update {devices : UInt32 → Option DeviceInfo} {device : DeviceInfo}
    {q : DeviceInfo → Bool} (hq : (devices handle).any q = q device) (h : UInt32) :
    (Function.update devices handle (some device) h).any q = (devices h).any q := by
  by_cases hh : h = handle
  · rw [hh, Function.update_self, Option.any_some, hq]
  · rw [Function.update_of_ne hh]

lemma isSome_update {devices : UInt32 → Option DeviceInfo} {device device' : DeviceInfo}
    (hd : devices handle = some device') (h : UInt32) :
    (Function.update devices handle (some device) h).isSome = (devices h).isSome := by
  by_cases hh : h = handle
  · rw [hh, Function.update_self, hd, Option.isSome_some, Option.isSome_some]
  · rw [Function.update_of_ne hh]

/-- The type of the firmware is known, or taken to be. -/
lemma told_updateFwType (s : LivoxLidars) (handle : UInt32) (fwType : UInt8) (h : UInt32) :
    (s.updateFwType handle fwType).told h = s.told h := by
  unfold updateFwType told
  cases hd : s.devices handle with
  | none => rfl
  | some device => exact any_update (by rw [hd, Option.any_some]) h

lemma loaded_updateFwType (s : LivoxLidars) (handle : UInt32) (fwType : UInt8) (h : UInt32) :
    (s.updateFwType handle fwType).loaded h =
      (s.loaded h || decide (h = handle) && (s.devices h).isSome) := by
  unfold updateFwType loaded
  cases hd : s.devices handle with
  | none =>
      dsimp only
      by_cases hh : h = handle
      · rw [hh, hd]
        simp
      · rw [decide_eq_false hh, Bool.false_and, Bool.or_false]
  | some device =>
      dsimp only
      by_cases hh : h = handle
      · rw [hh, Function.update_self, hd]
        simp
      · rw [Function.update_of_ne hh, decide_eq_false hh, Bool.false_and, Bool.or_false]

lemma isSome_devices_updateFwType (s : LivoxLidars) (handle : UInt32) (fwType : UInt8)
    (h : UInt32) :
    ((s.updateFwType handle fwType).devices h).isSome = (s.devices h).isSome := by
  unfold updateFwType
  cases hd : s.devices handle with
  | none => rfl
  | some device => exact isSome_update hd h

/-- A state that differs in the devices of the SDK only, where more may be loaded. -/
lemma Sound.of_devices (hs : Sound s₀ ns rest s) (devices : UInt32 → Option DeviceInfo)
    (htold : ∀ h, told { s with devices := devices } h = s.told h)
    (hloaded : ∀ h, s.loaded h = true → loaded { s with devices := devices } h = true)
    (hserved : ∀ h, loaded { s with devices := devices } h = true → s.served h = true)
    (hsome : ∀ h, (devices h).isSome = true → (s.devices h).isSome = true) :
    Sound s₀ ns rest { s with devices := devices } := by
  have hfits : ∀ {h : UInt32} {r : LidarRequest}, Fits s₀ s h r →
      Fits s₀ { s with devices := devices } h r := fun hr =>
    hr.mono (htold _).trans (hloaded _)
  refine { hs with
    late := fun h i hi => (hs.late h i hi).imp_right fun ht => (htold h).trans ht
    loaded_of_told := fun h ht => hloaded h (hs.loaded_of_told h ((htold h).symm.trans ht))
    served_of_loaded := hserved
    pending := fun h r hr => hfits (hs.pending h r hr)
    issued := fun c hc => ⟨hfits (hs.issued c hc).1, (hs.issued c hc).2⟩
    bits := fun h i hi b => by rw [htold]; exact hs.bits h i hi b
    sampling := fun h i hi => by rw [htold]; exact hs.sampling h i hi
    queried := fun h hd hserved hnot => hs.queried h (hsome h hd) hserved ?_
    imuData := fun h => by rw [htold]; exact hs.imuData h }
  rw [← Bool.not_eq_true] at hnot ⊢
  exact fun hl => hnot (hloaded h hl)

lemma Sound.updateFwType (hs : Sound s₀ ns rest s) (hserved : s.served handle = true)
    (fwType : UInt8) : Sound s₀ ns rest (s.updateFwType handle fwType) := by
  have htold := told_updateFwType s handle fwType
  have hloaded := loaded_updateFwType s handle fwType
  have hsome := isSome_devices_updateFwType s handle fwType
  unfold LivoxLidars.updateFwType at htold hloaded hsome ⊢
  cases hd : s.devices handle with
  | none => exact hs
  | some device =>
      rw [hd] at htold hloaded hsome
      refine hs.of_devices _ htold (fun h hl => ?_) (fun h hl => ?_) fun h hh => ?_
      · rw [hloaded, hl, Bool.true_or]
      · rw [hloaded, Bool.or_eq_true, Bool.and_eq_true, decide_eq_true_eq] at hl
        rcases hl with hl | ⟨rfl, -⟩
        · exact hs.served_of_loaded h hl
        · exact hserved
      · rwa [← hsome]

/-! ## The driver is told of a lidar -/

/-- What it means that the driver is told of a lidar, for the first time. -/
structure Tells (s : LivoxLidars) (handle : UInt32) (l : List (UInt32 × LidarRequest))
    (s' : LivoxLidars) : Prop where
  commandHandler : s'.commandHandler = s.commandHandler
  deviceDevType : s'.deviceDevType = s.deviceDevType
  devices : ∀ h, (s'.devices h).isSome = true → (s.devices h).isSome = true
  told : ∀ h, s'.told h = true ↔ s.told h = true ∨ h = handle
  loaded : ∀ h, s'.loaded h = s.loaded h
  pending : s'.pending = s.pending ++ l
  imuData : ∀ h, l.count (h, .imuData) =
    if h = handle ∧ (s'.mapIndex handle).isSome = true then 1 else 0
  asks : ∀ h r, (h, r) ∈ l → (∃ i, s.mapIndex handle = some i ∧
    h = (s.lidars i).livoxConfig.handle ∧ r = .installAttitude) ∨ h = handle ∧
    (r = .workMode ∨ r = .imuData ∨
      ∃ i b, s.mapIndex handle = some i ∧ r = .setting b ∧ b ∈ s.configured i)
  settings : ∀ i, s.mapIndex handle = some i → ∀ b ∈ s.configured i, (handle, .setting b) ∈ l
  others : ∀ h, h ≠ handle → s'.mapIndex h = s.mapIndex h
  mine : ∀ i, s.mapIndex handle = some i → s'.mapIndex handle = some i
  fresh : ∀ i, s.mapIndex handle = none → s'.mapIndex handle = some i → s.indexCache i = false
  cached : ∀ i, s.indexCache i = true ∨ s'.mapIndex handle = some i ∧ s.mapIndex handle = none →
    s'.indexCache i = true
  config : ∀ i, (s'.lidars i).livoxConfig = (s.lidars i).livoxConfig
  sampling : ∀ i, (s'.lidars i).sampling = (s.lidars i).sampling
  setBits : ∀ i b, b ∈ (s'.lidars i).setBits ↔
    b ∈ (s.lidars i).setBits ∨ s.mapIndex handle = some i ∧ b ∈ s.configured i

lemma count_imuData (h handle other : UInt32) (bits : List LivoxLidarConfigCodeBit) :
    (bits.map (fun b => (handle, LidarRequest.setting b)) ++
      [(other, LidarRequest.installAttitude)] ++ [(handle, LidarRequest.workMode)] ++
      [(handle, LidarRequest.imuData)]).count (h, LidarRequest.imuData) =
    if h = handle then 1 else 0 := by
  have hbits : (bits.map fun b => (handle, LidarRequest.setting b)).count
      (h, LidarRequest.imuData) = 0 := by
    refine List.count_eq_zero.mpr fun hmem => ?_
    obtain ⟨b, -, hb⟩ := List.mem_map.mp hmem
    cases hb
  rw [List.count_append, List.count_append, List.count_append, hbits]
  by_cases hh : h = handle
  · rw [if_pos hh, hh]
    simp
  · rw [if_neg hh]
    simp [Ne.symm hh]

lemma setConfig_lidars_self (s : LivoxLidars) (handle : UInt32) (i : ℕ) :
    (s.setConfig handle i).lidars i =
      { s.lidars i with setBits := (s.lidars i).setBits ∪ (s.configured i).toFinset } :=
  Function.update_self ..

lemma setConfig_lidars_of_ne (s : LivoxLidars) (handle : UInt32) {i j : ℕ} (hj : j ≠ i) :
    (s.setConfig handle i).lidars j = s.lidars j := Function.update_of_ne hj _ _

/-- The callback of the driver, for a lidar that it has. -/
lemma tells_of_some (devices : UInt32 → Option DeviceInfo)
    (hsome : ∀ h, (devices h).isSome = true → (s.devices h).isSome = true)
    (htold : ∀ h, (devices h).any DeviceInfo.isCallback = true ↔ s.told h = true ∨ h = handle)
    (hloaded : ∀ h, (devices h).any DeviceInfo.isGetLoaderMode = s.loaded h) {i : ℕ}
    (hindex : s.mapIndex handle = some i) :
    ∃ l, Tells s handle l
      ((({ s with devices := devices }.setConfig handle i).ask handle .workMode).ask handle
        .imuData) := by
  refine ⟨(s.configured i).map (fun b => (handle, LidarRequest.setting b)) ++
    [((s.lidars i).livoxConfig.handle, LidarRequest.installAttitude)] ++
    [(handle, LidarRequest.workMode)] ++ [(handle, LidarRequest.imuData)], ?_⟩
  have hself := setConfig_lidars_self { s with devices := devices } handle i
  have hother : ∀ j, j ≠ i → _ := fun j hj =>
    setConfig_lidars_of_ne { s with devices := devices } handle hj
  refine ⟨rfl, rfl, hsome, htold, hloaded, ?_, fun h => ?_, fun h r hr => ?_,
    fun j hj b hb => ?_, fun _ _ => rfl, fun _ hj => hj, fun j hj => ?_, fun j hj => ?_,
    fun j => ?_, fun j => ?_, fun j b => ?_⟩
  · show s.pending ++ _ ++ _ ++ _ ++ _ = _
    simp only [List.append_assoc]
    rfl
  · rw [count_imuData]
    have hmine : (s.mapIndex handle).isSome = true := by
      rw [hindex]
      rfl
    exact (if_congr (and_iff_left hmine) rfl rfl).symm
  · simp only [List.mem_append, List.mem_map, List.mem_singleton, Prod.mk.injEq] at hr
    rcases hr with ((⟨b, hb, rfl, rfl⟩ | ⟨rfl, rfl⟩) | ⟨rfl, rfl⟩) | ⟨rfl, rfl⟩
    · exact .inr ⟨rfl, .inr (.inr ⟨i, b, hindex, rfl, hb⟩)⟩
    · exact .inl ⟨i, hindex, rfl, rfl⟩
    · exact .inr ⟨rfl, .inl rfl⟩
    · exact .inr ⟨rfl, .inr (.inl rfl)⟩
  · obtain rfl := Option.some.inj (hindex.symm.trans hj)
    simp only [List.mem_append, List.mem_map]
    exact .inl (.inl (.inl ⟨b, hb, rfl⟩))
  · cases hindex.symm.trans hj
  · rcases hj with hj | ⟨-, hj⟩
    · exact hj
    · cases hindex.symm.trans hj
  · by_cases hji : j = i
    · rw [hji]
      exact (congrArg ConfiguredLidar.livoxConfig hself).trans rfl
    · exact congrArg ConfiguredLidar.livoxConfig (hother j hji)
  · by_cases hji : j = i
    · rw [hji]
      exact (congrArg ConfiguredLidar.sampling hself).trans rfl
    · exact congrArg ConfiguredLidar.sampling (hother j hji)
  · by_cases hji : j = i
    · have hbits := congrArg ConfiguredLidar.setBits hself
      rw [hji, and_iff_right hindex]
      show b ∈ (({ s with devices := devices }.setConfig handle i).lidars i).setBits ↔ _
      rw [hbits, Finset.mem_union, List.mem_toFinset]
      rfl
    · have hbits := congrArg ConfiguredLidar.setBits (hother j hji)
      rw [or_iff_left fun hmem => hji (Option.some.inj (hmem.1.symm.trans hindex))]
      show b ∈ (({ s with devices := devices }.setConfig handle i).lidars j).setBits ↔ _
      rw [hbits]

/-- And for one that it has not, which gets an index if there is one left. -/
lemma tells_of_none (devices : UInt32 → Option DeviceInfo)
    (hsome : ∀ h, (devices h).isSome = true → (s.devices h).isSome = true)
    (htold : ∀ h, (devices h).any DeviceInfo.isCallback = true ↔ s.told h = true ∨ h = handle)
    (hloaded : ∀ h, (devices h).any DeviceInfo.isGetLoaderMode = s.loaded h)
    (hindex : s.mapIndex handle = none) :
    ∃ l, Tells s handle l ({ s with devices := devices }.lidarInfoChangeCallback handle) := by
  have hmine : ∀ {i : ℕ}, s.mapIndex handle ≠ some i := fun hi => by cases hindex.symm.trans hi
  unfold lidarInfoChangeCallback getLidarDevice getFreeIndex
  simp only [hindex]
  cases hfree : (List.range kMaxSourceLidar).find? fun i => !s.indexCache i with
  | none =>
      refine ⟨[], rfl, rfl, hsome, htold, hloaded, (List.append_nil _).symm, fun h => ?_, nofun,
        fun i hi => absurd hi hmine, fun _ _ => rfl, fun i hi => absurd hi hmine,
        fun i _ hi => absurd hi hmine, fun i hi => ?_, fun _ => rfl, fun _ => rfl, fun i b => ?_⟩
      · show 0 = if h = handle ∧ (s.mapIndex handle).isSome = true then 1 else 0
        rw [hindex, if_neg (by simp)]
      · exact hi.resolve_right fun hi => hmine hi.1
      · exact (or_iff_left fun hmem => hmine hmem.1).symm
  | some k =>
      have hself : Function.update s.mapIndex handle (some k) handle = some k :=
        Function.update_self ..
      have hfirst : s.indexCache k = false := by
        have hsome := List.find?_some hfree
        simpa using hsome
      refine ⟨[(handle, LidarRequest.workMode)] ++ [(handle, LidarRequest.imuData)], rfl, rfl,
        hsome, htold, hloaded, List.append_assoc .., fun h => ?_, fun h r hr => ?_,
        fun i hi => absurd hi hmine, fun h hh => Function.update_of_ne hh _ _,
        fun i hi => absurd hi hmine, fun i _ hi => ?_, fun i hi => ?_, fun _ => rfl, fun _ => rfl,
        fun i b => ?_⟩
      · have hisSome : (Function.update s.mapIndex handle (some k) handle).isSome = true := by
          rw [hself]
          rfl
        refine Eq.trans ?_ (if_congr (and_iff_left hisSome) rfl rfl).symm
        by_cases hh : h = handle
        · rw [if_pos hh, hh]
          simp
        · rw [if_neg hh]
          simp [Ne.symm hh]
      · simp only [List.mem_append, List.mem_singleton, Prod.mk.injEq] at hr
        rcases hr with ⟨rfl, rfl⟩ | ⟨rfl, rfl⟩
        · exact .inr ⟨rfl, .inl rfl⟩
        · exact .inr ⟨rfl, .inr (.inl rfl)⟩
      · obtain rfl := Option.some.inj (hself.symm.trans hi)
        exact hfirst
      · show Function.update s.indexCache k true i = true
        by_cases hik : i = k
        · rw [hik, Function.update_self]
        · rw [Function.update_of_ne hik]
          refine hi.resolve_right fun hi => hik ?_
          exact (Option.some.inj (hself.symm.trans hi.1)).symm
      · exact (or_iff_left fun hmem => hmine hmem.1).symm

/-- **The driver is told** of a lidar once. -/
lemma tells_livoxLidarInfoChange (hloaded : s.loaded handle = true)
    (htold : s.told handle = false) :
    ∃ l, Tells s handle l (s.livoxLidarInfoChange handle) := by
  obtain ⟨device, hdevice, -⟩ : ∃ d, s.devices handle = some d ∧ d.isGetLoaderMode = true :=
    (Option.any_eq_true ..).mp hloaded
  have hcallback : device.isCallback = false := by
    unfold LivoxLidars.told at htold
    rwa [hdevice, Option.any_some] at htold
  have hsome : ∀ h, ((Function.update s.devices handle
      (some { device with isUpdateCfg := true, isCallback := true })) h).isSome = true →
      (s.devices h).isSome = true := fun h hh => (isSome_update hdevice h).symm.trans hh
  have htells : ∀ h, ((Function.update s.devices handle
      (some { device with isUpdateCfg := true, isCallback := true })) h).any DeviceInfo.isCallback =
      true ↔ s.told h = true ∨ h = handle := by
    intro h
    by_cases heq : h = handle
    · rw [heq, Function.update_self]
      exact ⟨fun _ => .inr rfl, fun _ => rfl⟩
    · rw [Function.update_of_ne heq, or_iff_left heq]
      exact Iff.rfl
  have hloads : ∀ h, ((Function.update s.devices handle
      (some { device with isUpdateCfg := true, isCallback := true })) h).any
      DeviceInfo.isGetLoaderMode = s.loaded h := any_update (by rw [hdevice, Option.any_some])
  unfold livoxLidarInfoChange
  simp only [hdevice, Option.getD_some, hcallback, Bool.false_eq_true, if_false]
  cases hindex : s.mapIndex handle with
  | some i =>
      unfold lidarInfoChangeCallback getLidarDevice
      simp only [hindex]
      exact tells_of_some _ hsome htells hloads hindex
  | none => exact tells_of_none _ hsome htells hloads hindex

lemma Outstanding.of_tells {h : UInt32} {r : LidarRequest} {l : List (UInt32 × LidarRequest)}
    (ho : s.Outstanding rest h r) (ht : Tells s handle l s') : s'.Outstanding rest h r := by
  refine ho.imp (fun hpending => ?_) fun hheld => ?_
  · rw [ht.pending]
    exact List.mem_append_left _ hpending
  · rw [ht.commandHandler]
    exact hheld

/-- A setting is answered for only after the driver has been told of the lidar. -/
lemma Sound.told_of_answered (hs : Sound s₀ ns rest s) {bit : LivoxLidarConfigCodeBit}
    (h : Answered ns handle bit) : s.told handle = true := by
  obtain ⟨c, who, answer, hmem, rfl, hcb⟩ := h
  have hfits := (hs.issued c (hs.commands _ (List.mem_append_left _ hmem))).1
  rw [hcb] at hfits
  exact hfits.1

lemma Sound.configured_eq (hs : Sound s₀ ns rest s) (i : ℕ) :
    s.configured i = s₀.configured i := by
  unfold configured
  rw [hs.config i]

section Tells

variable {l : List (UInt32 × LidarRequest)}

lemma Tells.served_eq (ht : Tells s handle l s') (h : UInt32) : s'.served h = s.served h := by
  unfold served
  rw [ht.deviceDevType]

lemma Tells.told_self (ht : Tells s handle l s') : s'.told handle = true :=
  (ht.told handle).mpr (.inr rfl)

lemma Tells.told_of_ne (ht : Tells s handle l s') {h : UInt32} (hh : h ≠ handle) :
    s'.told h = true ↔ s.told h = true := (ht.told h).trans (or_iff_left hh)

lemma Tells.fits (ht : Tells s handle l s') {h : UInt32} {r : LidarRequest}
    (hr : Fits s₀ s h r) : Fits s₀ s' h r :=
  hr.mono (fun htold => (ht.told h).mpr (.inl htold)) (ht.loaded h).trans

/-- The lidars of the configuration have their indices from the start, and the others none until
the driver is told of them. -/
lemma Sound.mapIndex_first (hs : Sound s₀ ns rest s) (hnew : s.told handle = false) {i : ℕ}
    (hi : s.mapIndex handle = some i) : s₀.mapIndex handle = some i :=
  (hs.late _ _ hi).resolve_right (by simp [hnew])

/-- A new index is not one of another lidar. -/
lemma Sound.eq_of_tells (hs : Sound s₀ ns rest s) (ht : Tells s handle l s') {h : UInt32} {i : ℕ}
    (hi : s'.mapIndex handle = some i) (hh : s.mapIndex h = some i) : h = handle := by
  cases hindex : s.mapIndex handle with
  | none =>
      have hfree := ht.fresh i hindex hi
      rw [hs.cached h i hh] at hfree
      cases hfree
  | some j =>
      obtain rfl := Option.some.inj ((ht.mine j hindex).symm.trans hi)
      exact hs.injective h handle j hh hindex

lemma Sound.injective_tells (hs : Sound s₀ ns rest s) (ht : Tells s handle l s') {h h' : UInt32}
    {i : ℕ} (hi : s'.mapIndex h = some i) (hi' : s'.mapIndex h' = some i) : h = h' := by
  by_cases hh : h = handle
  · by_cases hh' : h' = handle
    · rw [hh, hh']
    · rw [hh] at hi
      rw [ht.others h' hh'] at hi'
      exact absurd (hs.eq_of_tells ht hi hi') hh'
  · by_cases hh' : h' = handle
    · rw [hh'] at hi'
      rw [ht.others h hh] at hi
      exact absurd (hs.eq_of_tells ht hi' hi) hh
    · rw [ht.others h hh] at hi
      rw [ht.others h' hh'] at hi'
      exact hs.injective h h' i hi hi'

lemma Sound.cached_tells (hs : Sound s₀ ns rest s) (ht : Tells s handle l s') {h : UInt32} {i : ℕ}
    (hi : s'.mapIndex h = some i) : s'.indexCache i = true := by
  refine ht.cached i ?_
  by_cases hh : h = handle
  · rw [hh] at hi
    cases hindex : s.mapIndex handle with
    | none => exact .inr ⟨hi, rfl⟩
    | some j =>
        obtain rfl := Option.some.inj ((ht.mine j hindex).symm.trans hi)
        exact .inl (hs.cached handle j hindex)
  · rw [ht.others h hh] at hi
    exact .inl (hs.cached h i hi)

/-- What the driver asks for fits the lidar. -/
lemma Sound.pending_tells (hready : Ready s₀) (hs : Sound s₀ ns rest s)
    (hnew : s.told handle = false) (ht : Tells s handle l s') {h : UInt32} {r : LidarRequest}
    (hr : (h, r) ∈ s'.pending) : Fits s₀ s' h r := by
  rw [ht.pending] at hr
  rcases List.mem_append.mp hr with hr | hr
  · exact ht.fits (hs.pending h r hr)
  rcases ht.asks h r hr with ⟨i, hindex, rfl, rfl⟩ | ⟨rfl, rfl | rfl | ⟨i, b, hindex, rfl, hb⟩⟩
  · have hfirst := hs.mapIndex_first hnew hindex
    rw [hs.config i, hready.handle handle i hfirst]
    exact ⟨ht.told_self, i, hfirst⟩
  · exact ht.told_self
  · exact ht.told_self
  · exact ⟨ht.told_self, i, hs.mapIndex_first hnew hindex, hs.configured_eq i ▸ hb⟩

lemma Sound.bits_tells (hs : Sound s₀ ns rest s) (hnew : s.told handle = false)
    (ht : Tells s handle l s') {h : UInt32} {i : ℕ} (hi : s₀.mapIndex h = some i)
    (b : LivoxLidarConfigCodeBit) : b ∈ (s'.lidars i).setBits ↔
      s'.told h = true ∧ b ∈ s₀.configured i ∧ ¬Answered ns h b := by
  rw [ht.setBits, hs.bits h i hi b]
  by_cases hh : h = handle
  · rw [hh] at hi ⊢
    rw [hnew, hs.configured_eq i, ht.told_self]
    have hindex := hs.index handle i hi
    have hopen : ¬Answered ns handle b := fun hanswered =>
      absurd (hnew.symm.trans (hs.told_of_answered hanswered)) (by simp)
    tauto
  · rw [ht.told_of_ne hh, or_iff_left fun hmem => hh (hs.eq_of_index hi hmem.1)]

/-- A lidar with a setting has one to answer for, so that it does not sample yet. -/
lemma Sound.sampling_tells (hs : Sound s₀ ns rest s) (hnew : s.told handle = false)
    (ht : Tells s handle l s') {h : UInt32} {i : ℕ} (hi : s₀.mapIndex h = some i) :
    (s'.lidars i).sampling = true ↔
      s'.told h = true ∧ s₀.configured i ≠ [] ∧ (s'.lidars i).setBits = ∅ := by
  rw [ht.sampling, hs.sampling h i hi]
  by_cases hh : h = handle
  · rw [hh] at hi ⊢
    refine ⟨fun hbefore => absurd (hnew.symm.trans hbefore.1) (by simp), ?_⟩
    rintro ⟨-, hnonempty, hempty⟩
    obtain ⟨b, hb⟩ := List.exists_mem_of_ne_nil _ hnonempty
    have hmem : b ∈ (s'.lidars i).setBits :=
      (ht.setBits i b).mpr (.inr ⟨hs.index handle i hi, hs.configured_eq i ▸ hb⟩)
    rw [hempty] at hmem
    cases hmem
  · have hsame : (s'.lidars i).setBits = (s.lidars i).setBits := Finset.ext fun b =>
      (ht.setBits i b).trans (or_iff_left fun hmem => hh (hs.eq_of_index hi hmem.1))
    rw [ht.told_of_ne hh, hsame]

lemma Sound.imuData_tells (hs : Sound s₀ ns rest s) (hnew : s.told handle = false)
    (ht : Tells s handle l s') (h : UInt32) : s'.asked (ns ++ rest) h .imuData =
      if s'.told h = true ∧ (s'.mapIndex h).isSome = true then 1 else 0 := by
  have hbefore := hs.imuData h
  unfold asked at hbefore ⊢
  rw [ht.pending, List.count_append, ht.imuData, add_right_comm, hbefore]
  by_cases hh : h = handle
  · rw [hh, hnew, ht.told_self]
    simp
  · have hnot : ¬(h = handle ∧ (s'.mapIndex handle).isSome = true) := fun hsame => hh hsame.1
    rw [if_neg hnot, Nat.add_zero, ht.others h hh]
    exact if_congr (and_congr_left' (ht.told_of_ne hh).symm) rfl rfl

/-- **Telling the driver** keeps what holds. -/
lemma Sound.tells (hready : Ready s₀) (hs : Sound s₀ ns rest s) (hloaded : s.loaded handle = true)
    (hnew : s.told handle = false) (ht : Tells s handle l s') : Sound s₀ ns rest s' := by
  refine
    { hs with
      known := ht.commandHandler ▸ hs.known
      index := fun h i hi => ?_
      injective := fun h h' i => hs.injective_tells ht
      cached := fun h i => hs.cached_tells ht
      late := fun h i hi => ?_
      config := fun i => (ht.config i).trans (hs.config i)
      blank := fun i hi => ?_
      loaded_of_told := fun h hh => ?_
      served_of_loaded := fun h hh => ?_
      pending := fun h r => hs.pending_tells hready hnew ht
      issued := fun c hc => ⟨ht.fits (hs.issued c hc).1, fun hq => ?_⟩
      bits := fun h i hi b => hs.bits_tells hnew ht hi b
      sampling := fun h i hi => hs.sampling_tells hnew ht hi
      waits := fun h i hi b hb => ?_
      queried := fun h hd hh hl => ?_
      imuData := hs.imuData_tells hnew ht }
  · by_cases hh : h = handle
    · rw [hh] at hi ⊢
      exact ht.mine i (hs.index _ i hi)
    · rw [ht.others h hh]
      exact hs.index h i hi
  · by_cases hh : h = handle
    · exact .inr ((ht.told h).mpr (.inr hh))
    · rw [ht.others h hh] at hi
      exact (hs.late h i hi).imp_right fun hbefore => (ht.told h).mpr (.inl hbefore)
  · obtain ⟨hbits, hsampling⟩ := hs.blank i hi
    refine ⟨Finset.eq_empty_of_forall_notMem fun b hb => ?_, (ht.sampling i).trans hsampling⟩
    rcases (ht.setBits i b).mp hb with hbefore | ⟨hindex, -⟩
    · rw [hbits] at hbefore
      cases hbefore
    · exact hi handle (hs.mapIndex_first hnew hindex)
  · rw [ht.loaded]
    rcases (ht.told h).mp hh with hbefore | rfl
    · exact hs.loaded_of_told h hbefore
    · exact hloaded
  · rw [ht.served_eq]
    exact hs.served_of_loaded h ((ht.loaded h).symm.trans hh)
  · rw [ht.served_eq]
    exact (hs.issued c hc).2 hq
  · rcases (ht.setBits i b).mp hb with hbefore | ⟨hindex, hb⟩
    · exact (hs.waits h i hi b hbefore).imp_left fun ho => ho.of_tells ht
    · refine .inl (.inl ?_)
      rw [ht.pending, hs.eq_of_index hi hindex]
      exact List.mem_append_right _ (ht.settings i hindex b hb)
  · exact (hs.queried h (ht.devices h hd) ((ht.served_eq h).symm.trans hh)
      ((ht.loaded h).symm.trans hl)).imp_left fun ho => ho.of_tells ht

end Tells

/-- Whether or not the driver has been told already. -/
lemma Sound.livoxLidarInfoChange (hready : Ready s₀) (hs : Sound s₀ ns rest s)
    (hloaded : s.loaded handle = true) :
    Sound s₀ ns rest (s.livoxLidarInfoChange handle) := by
  cases htold : s.told handle with
  | false =>
      obtain ⟨l, htells⟩ := tells_livoxLidarInfoChange hloaded htold
      exact hs.tells hready hloaded htold htells
  | true =>
      obtain ⟨device, hdevice, hcallback⟩ :
          ∃ d, s.devices handle = some d ∧ d.isCallback = true := (Option.any_eq_true ..).mp htold
      unfold LivoxLidars.livoxLidarInfoChange
      simp only [hdevice, Option.getD_some, hcallback, if_true]
      have hsame : ∀ h, (Function.update s.devices handle
          (some { device with isUpdateCfg := true, isCallback := true }) h).any
            DeviceInfo.isGetLoaderMode = s.loaded h := any_update (by rw [hdevice, Option.any_some])
      have htells : ∀ h, (Function.update s.devices handle
          (some { device with isUpdateCfg := true, isCallback := true }) h).any
            DeviceInfo.isCallback = s.told h :=
        any_update (by rw [hdevice, Option.any_some, hcallback])
      exact hs.of_devices _ htells (fun h hl => (hsame h).trans hl)
        (fun h hl => hs.served_of_loaded h ((hsame h).symm.trans hl))
        fun h hh => (isSome_update hdevice h).symm.trans hh

/-! ## Every callback -/

lemma Sound.queryAgain (hs : Sound s₀ ns rest s) : Sound s₀ ns rest (s.queryAgain handle) :=
  (hs.of_count _).ask trivial nofun

/-- The type of the firmware is known, or asked for again. -/
lemma Sound.queryFwTypeCallback (hs : Sound s₀ ns rest s) (hserved : s.served handle = true)
    (status : LivoxStatus) (response : Option Answer) :
    Sound s₀ ns rest (s.queryFwTypeCallback status handle response) ∧
      (((s.queryFwTypeCallback status handle response).devices handle).isSome = true →
        (s.queryFwTypeCallback status handle response).loaded handle = false →
        (handle, .queryFwType) ∈ (s.queryFwTypeCallback status handle response).pending) := by
  have hknown : ∀ (s : LivoxLidars) (fwType : UInt8),
      ((s.updateFwType handle fwType).devices handle).isSome = true →
      (s.updateFwType handle fwType).loaded handle = false →
      (handle, .queryFwType) ∈ (s.updateFwType handle fwType).pending := by
    intro s fwType hsome hnot
    rw [isSome_devices_updateFwType] at hsome
    rw [loaded_updateFwType, hsome] at hnot
    simp at hnot
  have hasked : (handle, .queryFwType) ∈ (s.queryAgain handle).pending :=
    List.mem_append_right _ (List.mem_singleton_self _)
  unfold LivoxLidars.queryFwTypeCallback
  split_ifs with hcount
  · exact ⟨(hs.updateFwType hserved 1).of_count 0, hknown s 1⟩
  · split
    · split_ifs with hret
      · exact ⟨hs.queryAgain, fun _ _ => hasked⟩
      · split
        · exact ⟨hs.queryAgain, fun _ _ => hasked⟩
        · exact ⟨(hs.of_count 0).updateFwType hserved _, hknown _ _⟩
    · exact ⟨hs.queryAgain, fun _ _ => hasked⟩

lemma Sound.updateLidarCallback (hready : Ready s₀) (hs : Sound s₀ ns rest s)
    (hloaded : s.loaded handle = true) (devType : UInt8) (status : LivoxStatus)
    (response : Option Answer) :
    Sound s₀ ns rest (LivoxLidars.updateLidarCallback devType s status handle response) := by
  unfold LivoxLidars.updateLidarCallback
  split
  · split_ifs with hret
    · exact (hs.of_updated _).livoxLidarInfoChange hready hloaded
    · exact hs
  · exact hs

/-- A callback of a setting that was not answered. -/
lemma Sound.settingCallback (hs : Sound s₀ ns rest s) {b : LivoxLidarConfigCodeBit}
    (hfits : Fits s₀ s handle (.setting b)) {status : LivoxStatus} {response : Option Answer}
    (hstatus : status ≠ .success)
    (h : LivoxLidars.settingCallback b s status handle response = .ok s') :
    Sound s₀ ns rest s' ∧ (status = .timeout → (handle, .setting b) ∈ s'.pending) := by
  obtain ⟨-, i, hi, -⟩ := id hfits
  unfold LivoxLidars.settingCallback getLidarDevice at h
  rw [hs.index handle i hi] at h
  cases status with
  | success => exact absurd rfl hstatus
  | timeout =>
      obtain rfl := Except.ok.inj h
      exact ⟨hs.ask hfits nofun, fun _ => List.mem_append_right _ (List.mem_singleton_self _)⟩
  | sendFailed =>
      cases response with
      | none => cases h
      | some answer =>
          obtain rfl := Except.ok.inj h
          exact ⟨hs, nofun⟩

lemma settingCallback_of_callback {b : LivoxLidarConfigCodeBit} {status : LivoxStatus}
    {response : Option Answer} : s.callback (.setting b) status handle response =
      settingCallback b s status handle response := by
  cases b <;> rfl

/-- **A callback** keeps what holds.  What has not been answered is asked for again, but for the
IMU. -/
lemma Sound.callback (hready : Ready s₀) (hs : Sound s₀ ns rest s) {status : LivoxStatus}
    {response : Option Answer} (h : s.callback request status handle response = .ok s')
    (hfits : Fits s₀ s handle request) (hquery : request = .queryFwType → s.served handle = true)
    (hresponse : status = .timeout → response = none)
    (hset : ∀ b, request = .setting b → status ≠ .success) :
    Sound s₀ ns rest s' ∧
      (∀ b, request = .setting b → status = .timeout → (handle, request) ∈ s'.pending) ∧
      (request = .queryFwType → (s'.devices handle).isSome = true → s'.loaded handle = false →
        (handle, request) ∈ s'.pending) := by
  cases request with
  | queryFwType =>
      obtain rfl := Except.ok.inj h
      obtain ⟨hsound, hagain⟩ := hs.queryFwTypeCallback (hquery rfl) status response
      exact ⟨hsound, nofun, fun _ => hagain⟩
  | updateLidar devType =>
      obtain rfl := Except.ok.inj h
      exact ⟨hs.updateLidarCallback hready hfits devType status response, nofun, nofun⟩
  | setting b =>
      rw [settingCallback_of_callback] at h
      obtain ⟨hsound, hagain⟩ := hs.settingCallback hfits (hset b rfl) h
      exact ⟨hsound, fun _ _ => hagain, nofun⟩
  | installAttitude =>
      obtain rfl := Except.ok.inj h
      obtain ⟨htold, i, hi⟩ := id hfits
      refine ⟨?_, nofun, nofun⟩
      unfold setAttitudeCallback getLidarDevice
      rw [hs.index handle i hi]
      cases status with
      | timeout =>
          refine hs.ask ?_ nofun
          rw [hs.config i, hready.handle handle i hi]
          exact hfits
      | _ => exact hs
  | workMode =>
      obtain rfl := Except.ok.inj h
      refine ⟨?_, nofun, nofun⟩
      cases status with
      | success => exact hs
      | _ => exact hs.ask hfits nofun
  | imuData =>
      obtain rfl := Except.ok.inj h
      refine ⟨?_, nofun, nofun⟩
      unfold enableLivoxLidarImuDataCallback
      cases s.getLidarDevice handle with
      | none => exact hs
      | some i =>
          cases status with
          | timeout =>
              rw [hresponse rfl]
              exact hs
          | _ => cases response <;> exact hs
  | other =>
      obtain rfl := Except.ok.inj h
      exact ⟨hs, nofun, nofun⟩

/-- The answer comes from the lidar that was asked. -/
def Truthful : Notice LidarRequest Answer → Prop
  | .answered c who _ => who = c.handle
  | _ => True

instance : DecidablePred Truthful
  | .answered c who _ => inferInstanceAs (Decidable (who = c.handle))
  | .issued _ | .sent _ | .sendFailed _ | .displaced _ _ | .timedOut _ => .isTrue trivial

lemma not_answered_singleton {n : Notice LidarRequest Answer}
    (hn : ∀ c who answer, n ≠ .answered c who answer) (h : UInt32)
    (b : LivoxLidarConfigCodeBit) : ¬Answered [n] h b := by
  rintro ⟨c, who, answer, hmem, -⟩
  exact hn c who answer (List.mem_singleton.mp hmem).symm

/-- **A notice** is done with. -/
lemma Sound.notified (hready : Ready s₀) {n : Notice LidarRequest Answer}
    (hs : Sound s₀ ns (n :: rest) s) (htrue : Truthful n) (h : s.notified n = .ok s') :
    Sound s₀ (ns ++ [n]) rest s' := by
  obtain ⟨hfits, hserved⟩ :=
    hs.issued n.command (hs.commands n (List.mem_append_right _ List.mem_cons_self))
  cases n with
  | issued c =>
      obtain rfl := Except.ok.inj h
      exact hs.pop (not_answered_singleton nofun) nofun nofun
  | sent c =>
      obtain rfl := Except.ok.inj h
      exact hs.pop (not_answered_singleton nofun) nofun nofun
  | displaced c other =>
      obtain rfl := Except.ok.inj h
      refine hs.pop (not_answered_singleton nofun) (fun c' hc' b _ => ?_)
        fun c' hc' _ _ _ => ?_
      all_goals
        rw [List.mem_singleton.mp hc']
        exact .inr ⟨c, other, List.mem_singleton_self _, rfl, rfl⟩
  | sendFailed c =>
      have hcall : s.callback c.cb .sendFailed c.handle none = .ok s' := h
      obtain ⟨hsound, -, -⟩ := hs.callback hready hcall hfits hserved nofun fun _ _ => nofun
      exact hsound.pop (not_answered_singleton nofun) nofun nofun
  | timedOut c =>
      have hcall : s.callback c.cb .timeout c.handle none = .ok s' := h
      obtain ⟨hsound, hagain, hquery⟩ :=
        hs.callback hready hcall hfits hserved (fun _ => rfl) fun _ _ => nofun
      refine hsound.pop (not_answered_singleton nofun) (fun c' hc' b hb => ?_)
        fun c' hc' hq hsome hnot => ?_
      · rw [List.mem_singleton.mp hc'] at hb ⊢
        exact .inl (hagain b hb rfl)
      · rw [List.mem_singleton.mp hc'] at hq hsome hnot ⊢
        exact .inl (hquery hq hsome hnot)
  | answered c who answer =>
      obtain rfl : who = c.handle := htrue
      by_cases hset : ∃ b, c.cb = .setting b
      · obtain ⟨b, hb⟩ := hset
        have hfits' := hfits
        rw [show (Notice.answered c c.handle answer).command.cb = .setting b from hb] at hfits'
        obtain ⟨-, i, hi, -⟩ := hfits'
        unfold LivoxLidars.notified at h
        dsimp only at h
        rw [hb, settingCallback_of_callback, LivoxLidars.settingCallback, getLidarDevice,
          hs.index c.handle i hi] at h
        obtain rfl := Except.ok.inj h
        exact hs.clearBit hb hi
      · have hno : ∀ b, c.cb ≠ .setting b := fun b hb => hset ⟨b, hb⟩
        have hcall : s.callback c.cb .success c.handle (some answer) = .ok s' := h
        obtain ⟨hsound, -, hquery⟩ :=
          hs.callback hready hcall hfits hserved nofun fun b hb => absurd hb (hno b)
        refine hsound.pop ?_ (fun c' hc' b hb => ?_) fun c' hc' hq hsome hnot => ?_
        · rintro h b ⟨c', who, answer', hmem, -, hb⟩
          obtain ⟨rfl, -, -⟩ := Notice.answered.inj (List.mem_singleton.mp hmem)
          exact hno b hb
        · rw [List.mem_singleton.mp hc'] at hb
          exact absurd hb (hno b)
        · rw [List.mem_singleton.mp hc'] at hq hsome hnot ⊢
          exact .inl (hquery hq hsome hnot)

end LivoxLidars

end FastLivo2
