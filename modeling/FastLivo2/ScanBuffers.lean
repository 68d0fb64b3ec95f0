import FastLivo2.Run

/-!
# The scan deque and the header-time deque

A scan and its header time live in two deques that are pushed and popped side by side.  The
`k`-th header time belongs to the `k`-th scan as long as every site touches both.  One does not:
the loop-back branch of the lidar callbacks clears the scans and leaves the header times, so
every later scan is read with the time of an earlier one.  And the two callbacks disagree on
the time itself, since only `standard_pcl_cbk` adds `lidar_time_offset`.
-/

namespace FastLivo2

namespace LIVMapper

/-- Each header time is the `time` of the scan at its place, and there is one for each scan. -/
def Paired (time : CloudPtr → ℚ) (s : LIVMapper) : Prop :=
  s.lidHeaderTimeBuffer = s.lidRawDataBuffer.map time

/-- The header time the callback computed for the message behind a scan. -/
def fileTime (cfg : Config) (ptr : CloudPtr) : ℚ := headTime cfg ptr.driver ptr.msg

/-- The header time of the message behind a scan, with the configured offset. -/
def correctedTime (cfg : Config) (ptr : CloudPtr) : ℚ :=
  stamp2Sec ptr.msg.stamp + cfg.lidarTimeOffset

section Paired

variable {cfg : Config} {s t : LIVMapper} {time : CloudPtr → ℚ}

lemma Paired.length_eq (h : s.Paired time) :
    s.lidHeaderTimeBuffer.length = s.lidRawDataBuffer.length := by
  rw [h, List.length_map]

lemma Paired.sameBuffers (h : s.Paired time) (hsame : SameBuffers s t) : t.Paired time := by
  rw [Paired, hsame.raw, hsame.header]
  exact h

lemma Paired.pops (h : s.Paired time) (hpops : PopsPairs s t) : t.Paired time := by
  obtain ⟨taken, hraw, hheader⟩ := hpops
  rw [Paired, hraw, hheader, List.map_append] at h
  exact (List.append_inj h (by simp)).2

lemma Paired.sync {b : Bool} (h : s.Paired time) (hsync : s.syncPackages cfg = .ok (b, t)) :
    t.Paired time :=
  h.pops (syncPackages_frame hsync).pops

/-- Filing a scan keeps the deques paired exactly when it is filed under its own time. -/
lemma Paired.pushScan_iff (h : s.Paired time) (ptr : CloudPtr) (curHeadTime : ℚ) :
    (s.pushScan ptr curHeadTime).Paired time ↔ time ptr = curHeadTime := by
  have hdrop : s.lidRawDataBuffer.length + 1 - maxLidarBuffer ≤ s.lidRawDataBuffer.length := by
    unfold maxLidarBuffer
    omega
  have hlen := h.length_eq
  rw [Paired, pushScan_lidRawDataBuffer, pushScan_lidHeaderTimeBuffer,
    List.drop_append_of_le_length hdrop, List.drop_append_of_le_length (hlen ▸ hdrop),
    List.map_append, List.map_drop, ← h]
  constructor
  · intro heq
    have hlast := (List.append_inj heq rfl).2
    exact (List.cons.inj hlast).1.symm
  · rintro rfl
    rfl

/-- **What keeps the deques paired through a lidar callback**: no loop back over buffered scans,
and a scan filed under its own time. -/
theorem Paired.lidarCbk_iff (h : s.Paired time) (driver : LidarDriver) (msg : LidarMsg) :
    (lidarCbk cfg driver s msg).Paired time ↔
      (cfg.lidarEn = true → s.NoLoopBack (headTime cfg driver msg)) ∧
      (FilesScan cfg driver msg →
        time (s.newCloud driver msg (headTime cfg driver msg)) = headTime cfg driver msg) := by
  by_cases hloop : cfg.lidarEn = true → s.NoLoopBack (headTime cfg driver msg)
  · rcases lidarCbk_noLoopBack hloop with ⟨hskip, heq⟩ | ⟨hfiles, heq⟩
    · rw [heq]
      exact iff_of_true h ⟨hloop, fun hfiles => absurd hfiles hskip⟩
    · rw [heq, h.pushScan_iff]
      exact ⟨fun htime => ⟨hloop, fun _ => htime⟩, fun hboth => hboth.2 hfiles⟩
  · -- the scans are cleared and at least one header time is left over
    refine iff_of_false (fun hpaired => ?_) fun hboth => hloop hboth.1
    obtain ⟨hen, hback⟩ := Classical.not_imp.mp hloop
    obtain ⟨hlt, hraw⟩ := not_or.mp hback
    have hclear : (s.clearLoopBack (headTime cfg driver msg)).lidRawDataBuffer = [] := by
      rw [clearLoopBack_eq]
      exact if_pos (not_le.mp hlt)
    have hheader : (s.clearLoopBack (headTime cfg driver msg)).lidHeaderTimeBuffer =
        s.lidHeaderTimeBuffer := by
      rw [clearLoopBack_eq]
    have hpos : 0 < s.lidHeaderTimeBuffer.length := by
      rw [h.length_eq]
      exact List.length_pos_of_ne_nil hraw
    have hlength := hpaired.length_eq
    rcases lidarCbk_cases cfg driver s msg with ⟨hoff, -⟩ | ⟨-, -, heq⟩ | ⟨-, heq⟩
    · rw [hoff] at hen
      cases hen
    · rw [heq, hclear, hheader, List.length_nil] at hlength
      omega
    · rw [heq, pushScan_lidRawDataBuffer, pushScan_lidHeaderTimeBuffer, hclear, hheader] at hlength
      simp only [maxLidarBuffer, List.nil_append, List.length_drop, List.length_append,
        List.length_singleton, List.length_nil] at hlength
      omega

/-- Nothing but a lidar callback can undo the pairing. -/
lemma Paired.steps {ev : Event} {obs : Option LIVMapper} (h : s.Paired time)
    (hsteps : Steps cfg s ev obs t)
    (hlidar : ∀ driver msg, ev = .pclCbk driver msg →
      (lidarCbk cfg driver s msg).Paired time) : t.Paired time := by
  cases hsteps with
  | pclCbk driver msg => exact hlidar driver msg rfl
  | imuCbk cbk =>
      have hframe := imuCbk_frame cbk
      rw [Paired, hframe.raw, hframe.header]
      exact h
  | imgCbk msg =>
      have hframe := imgCbk_frame cfg s msg
      rw [Paired, hframe.raw, hframe.header]
      exact h
  | imuPropCallback => exact h.sameBuffers (imuPropCallback_frame cfg s).1
  | idle sync => exact h.sync sync
  | group sync handled => exact (h.sync sync).sameBuffers handled.buffers

end Paired

end LIVMapper

/-! ## Runs -/

/-- The turn's lidar message, if it is one, does not loop back over buffered scans. -/
def NoLoopBackIn (cfg : Config) (x : NodeTurn) : Prop :=
  ∀ driver msg, x.event = .pclCbk driver msg → cfg.lidarEn = true →
    x.pre.NoLoopBack (LIVMapper.headTime cfg driver msg)

instance (cfg : Config) : DecidablePred (NoLoopBackIn cfg) := fun x =>
  decidable_of_iff (∀ a ∈ x.event.lidarMsg, cfg.lidarEn = true →
    x.pre.NoLoopBack (LIVMapper.headTime cfg a.1 a.2))
    ⟨fun h driver msg hev => h (driver, msg) (Event.lidarMsg_eq_some.mpr hev),
      fun h a ha => h a.1 a.2 (Event.lidarMsg_eq_some.mp ha)⟩

/-- The header times of the lidar messages of a run. -/
def lidarHeaders (cfg : Config) (tr : List NodeTurn) : List ℚ :=
  tr.filterMap fun x => x.event.lidarMsg.map fun a => LIVMapper.headTime cfg a.1 a.2

lemma lidarHeaders_snoc (cfg : Config) (tr : List NodeTurn) (x : NodeTurn) :
    lidarHeaders cfg (tr ++ [x]) = lidarHeaders cfg tr ++
      (x.event.lidarMsg.map fun a => LIVMapper.headTime cfg a.1 a.2).toList := by
  rw [lidarHeaders, List.filterMap_append]
  cases h : x.event.lidarMsg <;> simp [h, lidarHeaders]

/-- A buffered scan was filed by a message whose time is remembered. -/
def RemembersHeader (cfg : Config) (tr : List NodeTurn) (s : LIVMapper) : Prop :=
  s.lidRawDataBuffer = [] ∨ s.lastTimestampLidar ∈ lidarHeaders cfg tr

lemma RemembersHeader.snoc {cfg : Config} {tr : List NodeTurn} {s u : LIVMapper} {x : NodeTurn}
    (h : RemembersHeader cfg tr s) (hraw : u.lidRawDataBuffer <:+ s.lidRawDataBuffer)
    (hlast : u.lastTimestampLidar = s.lastTimestampLidar) :
    RemembersHeader cfg (tr ++ [x]) u := by
  rcases h with hnil | hmem
  · rw [hnil] at hraw
    exact .inl (List.suffix_nil.mp hraw)
  · rw [← hlast] at hmem
    refine .inr ?_
    rw [lidarHeaders_snoc]
    exact List.mem_append_left _ hmem

/-- With header times in order no message loops back. -/
lemma noLoopBackIn_of_ordered {cfg : Config} {tr : List NodeTurn} {t : LIVMapper}
    (h : NodeRun cfg tr t) (hheaders : (lidarHeaders cfg tr).Pairwise (· ≤ ·)) :
    ∀ x ∈ tr, NoLoopBackIn cfg x := by
  have hrun : (lidarHeaders cfg tr).Pairwise (· ≤ ·) →
      (∀ x ∈ tr, NoLoopBackIn cfg x) ∧ RemembersHeader cfg tr t := by
    refine h.history (P := fun tr t => (lidarHeaders cfg tr).Pairwise (· ≤ ·) →
        (∀ x ∈ tr, NoLoopBackIn cfg x) ∧ RemembersHeader cfg tr t)
      (C := fun _ => True) (fun _ _ => trivial) (fun _ => ⟨by simp, .inl rfl⟩) ?_
    intro tr s ev obs u hsteps _ ih hheaders
    rw [lidarHeaders_snoc] at hheaders
    obtain ⟨hbefore, -, hafter⟩ := List.pairwise_append.mp hheaders
    obtain ⟨hloops, hremembers⟩ := ih hbefore
    have hloop : NoLoopBackIn cfg ⟨s, ev, obs, u⟩ := by
      rintro driver msg hev -
      rcases hremembers with hnil | hmem
      · exact .inr hnil
      · obtain rfl : ev = .pclCbk driver msg := hev
        exact .inl (hafter _ hmem _ (by simp [Event.lidarMsg]))
    refine ⟨?_, ?_⟩
    · intro y hy
      rcases List.mem_append.mp hy with hy | hy
      · exact hloops y hy
      · rwa [List.mem_singleton.mp hy]
    · cases hev : ev.lidarMsg with
      | none =>
          obtain ⟨hraw, hlast⟩ := hsteps.lidar hev
          exact hremembers.snoc hraw hlast
      | some a =>
          obtain rfl : ev = .pclCbk a.1 a.2 := Event.lidarMsg_eq_some.mp hev
          have hu := hsteps.of_pclCbk
          rcases LIVMapper.lidarCbk_noLoopBack (hloop a.1 a.2 rfl) with ⟨-, heq⟩ | ⟨-, heq⟩
          · obtain rfl : u = s := hu.trans heq
            exact hremembers.snoc List.suffix_rfl rfl
          · -- the scan filed is remembered by its own header time
            right
            rw [hu, heq, lidarHeaders_snoc]
            exact List.mem_append_right _ (by simp [LIVMapper.pushScan, Event.lidarMsg])
  exact (hrun hheaders).1

/-- The turn files no scan under another time than `time`. -/
def FilesUnder (cfg : Config) (time : CloudPtr → ℚ) (x : NodeTurn) : Prop :=
  ∀ driver msg, x.event = .pclCbk driver msg → LIVMapper.FilesScan cfg driver msg →
    time (x.pre.newCloud driver msg (LIVMapper.headTime cfg driver msg)) =
      LIVMapper.headTime cfg driver msg

/-- The deques are paired at the end of the run and at both ends of each of its turns. -/
def PairedThroughout (time : CloudPtr → ℚ) (tr : List NodeTurn) (t : LIVMapper) : Prop :=
  t.Paired time ∧ ∀ x ∈ tr, x.pre.Paired time ∧ x.post.Paired time

section Runs

variable {cfg : Config} {tr : List NodeTurn} {t : LIVMapper}

/-- The deques stay paired in a run if and only if no message loops back over buffered scans and
each scan is filed under its own time. -/
lemma pairedThroughout_iff (time : CloudPtr → ℚ) (h : NodeRun cfg tr t) :
    PairedThroughout time tr t ↔ ∀ x ∈ tr, NoLoopBackIn cfg x ∧ FilesUnder cfg time x := by
  constructor
  · rintro ⟨-, hall⟩ x hx
    obtain ⟨hpre, hpost⟩ := hall x hx
    have hsteps := (h.taken x hx).steps
    have hcbk : ∀ driver msg, x.event = .pclCbk driver msg →
        (LIVMapper.lidarCbk cfg driver x.pre msg).Paired time := by
      intro driver msg hev
      rw [hev] at hsteps
      rwa [← hsteps.of_pclCbk]
    exact ⟨fun driver msg hev => ((hpre.lidarCbk_iff driver msg).mp (hcbk driver msg hev)).1,
      fun driver msg hev => ((hpre.lidarCbk_iff driver msg).mp (hcbk driver msg hev)).2⟩
  · intro hall
    refine h.invariant (I := fun s => s.Paired time) hall rfl ?_
    rintro s ev obs u hsteps ⟨hloop, hfiles⟩ hpre
    exact hpre.steps hsteps fun driver msg hev =>
      (hpre.lidarCbk_iff driver msg).mpr ⟨hloop driver msg hev, hfiles driver msg hev⟩

/-- Every scan is filed under the time its own callback computes. -/
lemma filesUnder_fileTime (x : NodeTurn) :
    FilesUnder cfg (LIVMapper.fileTime cfg) x :=
  fun _ _ _ _ => rfl

/-- `standard_pcl_cbk` corrects the header time, `livox_pcl_cbk` does not. -/
lemma filesUnder_correctedTime_iff (x : NodeTurn) :
    FilesUnder cfg (LIVMapper.correctedTime cfg) x ↔
      ∀ msg, x.event = .pclCbk .livox msg → LIVMapper.FilesScan cfg .livox msg →
        cfg.lidarTimeOffset = 0 := by
  constructor
  · intro hfiles msg hev hfile
    have htime := hfiles .livox msg hev hfile
    simpa [LIVMapper.correctedTime, LIVMapper.headTime, LIVMapper.newCloud] using htime
  · intro hoffset driver msg hev hfile
    cases driver with
    | standard => rfl
    | livox =>
        have hzero := hoffset msg hev hfile
        simp [LIVMapper.correctedTime, LIVMapper.headTime, LIVMapper.newCloud, hzero]

/-- **When the two lidar deques correspond.**  In any mode and for any run: there is one header
time for each scan, the one its callback computed, in every state reached, if and only if no
message loops back while scans are buffered; and it is the offset-corrected one if and only if,
besides, the offset is zero whenever `livox_pcl_cbk` files a scan. -/
theorem scans_paired_iff (h : NodeRun cfg tr t) :
    (PairedThroughout (LIVMapper.fileTime cfg) tr t ↔ ∀ x ∈ tr, NoLoopBackIn cfg x) ∧
      (PairedThroughout (LIVMapper.correctedTime cfg) tr t ↔ ∀ x ∈ tr, NoLoopBackIn cfg x ∧
        ∀ msg, x.event = .pclCbk .livox msg → LIVMapper.FilesScan cfg .livox msg →
          cfg.lidarTimeOffset = 0) := by
  rw [pairedThroughout_iff _ h, pairedThroughout_iff _ h]
  refine ⟨forall₂_congr fun x _ => ?_, forall₂_congr fun x _ => ?_⟩
  · exact and_iff_left (filesUnder_fileTime x)
  · rw [filesUnder_correctedTime_iff]

end Runs

/-- A scan from before the last one leaves a header time too many, and `livox_pcl_cbk` ignores the
configured offset. -/
theorem scans_not_paired :
    ¬(nodeTrace {} [.scanAt .livox 2000 [{}], .scanAt .livox 1000 [{}]]).2.Paired
        (LIVMapper.fileTime {}) ∧
      ¬(nodeTrace { lidarTimeOffset := 1 / 10 } [.scanAt .livox 1000 [{}]]).2.Paired
        (LIVMapper.correctedTime { lidarTimeOffset := 1 / 10 }) := by
  unfold LIVMapper.Paired
  decide +kernel

/-- Two scans in order. -/
theorem scans_paired :
    PairedThroughout (LIVMapper.fileTime {})
      (nodeTrace {} [.scanAt .livox 1000 [{}], .scanAt .standard 1100 [{}]]).1
      (nodeTrace {} [.scanAt .livox 1000 [{}], .scanAt .standard 1100 [{}]]).2 :=
  (scans_paired_iff (nodeRun_nodeTrace {} _)).1.mpr (by decide +kernel)

/-! ## Scans entering and overflowing -/

/-- The scan a turn files. -/
def entered (cfg : Config) (x : NodeTurn) : List CloudPtr :=
  match x.event with
  | .pclCbk driver msg =>
      if LIVMapper.FilesScan cfg driver msg then
        [x.pre.newCloud driver msg (LIVMapper.headTime cfg driver msg)]
      else []
  | _ => []

/-- The scans the overflow rule of a lidar callback drops. -/
def overflowed (cfg : Config) (x : NodeTurn) : List CloudPtr :=
  match x.event with
  | .pclCbk driver msg =>
      if LIVMapper.FilesScan cfg driver msg then
        (x.pre.lidRawDataBuffer ++
            [x.pre.newCloud driver msg (LIVMapper.headTime cfg driver msg)]).take
          (x.pre.lidRawDataBuffer.length + 1 - LIVMapper.maxLidarBuffer)
      else []
  | _ => []

lemma entered_pclCbk (cfg : Config) (s t : LIVMapper) (driver : LidarDriver) (msg : LidarMsg)
    (obs : Option LIVMapper) : entered cfg ⟨s, .pclCbk driver msg, obs, t⟩ =
      if LIVMapper.FilesScan cfg driver msg then
        [s.newCloud driver msg (LIVMapper.headTime cfg driver msg)]
      else [] := rfl

/-- Without a loop back a lidar callback appends the scan it files and drops the oldest. -/
lemma lidarCbk_balance {cfg : Config} {s : LIVMapper} {driver : LidarDriver} {msg : LidarMsg}
    {obs : Option LIVMapper}
    (h : cfg.lidarEn = true → s.NoLoopBack (LIVMapper.headTime cfg driver msg)) :
    let x : NodeTurn := ⟨s, .pclCbk driver msg, obs, LIVMapper.lidarCbk cfg driver s msg⟩
    s.lidRawDataBuffer ++ entered cfg x =
      overflowed cfg x ++ (LIVMapper.lidarCbk cfg driver s msg).lidRawDataBuffer := by
  dsimp only [entered, overflowed]
  rcases LIVMapper.lidarCbk_noLoopBack h with ⟨hskip, heq⟩ | ⟨hfiles, heq⟩
  · rw [heq, if_neg hskip, if_neg hskip, List.append_nil, List.nil_append]
  · rw [heq, if_pos hfiles, if_pos hfiles, LIVMapper.pushScan_lidRawDataBuffer,
      List.take_append_drop]

/-- **The account of the scans.**  If each pass pops the scans `taken`, the scans filed in a run
without loop backs are, in order, those taken or dropped by the overflow rule, followed by
those still buffered. -/
theorem entered_eq {cfg : Config} {tr : List NodeTurn} {t : LIVMapper}
    (taken : NodeTurn → List CloudPtr) {C : NodeTurn → Prop} (h : NodeRun cfg tr t)
    (hC : ∀ x ∈ tr, NoLoopBackIn cfg x ∧ C x)
    (hcbk : ∀ x : NodeTurn, x.event.isPass = false → x.obs = none → taken x = [])
    (hpass : ∀ (s : LIVMapper) (est : Estimate) (obs : Option LIVMapper) (u : LIVMapper),
      LIVMapper.Steps cfg s (.pass est) obs u → C ⟨s, .pass est, obs, u⟩ →
      s.lidRawDataBuffer = taken ⟨s, .pass est, obs, u⟩ ++ u.lidRawDataBuffer) :
    tr.flatMap (entered cfg) =
      tr.flatMap (fun x => taken x ++ overflowed cfg x) ++ t.lidRawDataBuffer := by
  refine NodeRun.conservation LIVMapper.lidRawDataBuffer (entered cfg)
    (fun x => taken x ++ overflowed cfg x) h hC ?_
  rintro s ev obs u hsteps ⟨hloop, hc⟩
  cases hsteps with
  | pclCbk driver msg =>
      rw [hcbk _ rfl rfl, List.nil_append]
      exact lidarCbk_balance (hloop driver msg rfl)
  | imuCbk cbk =>
      rw [hcbk _ rfl rfl, (LIVMapper.imuCbk_frame cbk).raw]
      exact List.append_nil _
  | imgCbk msg =>
      rw [hcbk _ rfl rfl, (LIVMapper.imgCbk_frame cfg s msg).raw]
      exact List.append_nil _
  | imuPropCallback =>
      rw [hcbk _ rfl rfl, (LIVMapper.imuPropCallback_frame cfg s).1.raw]
      exact List.append_nil _
  | idle sync =>
      have hraw := hpass s _ _ u (.idle sync) hc
      simpa [entered, overflowed] using hraw
  | group sync handled =>
      have hraw := hpass s _ _ u (.group sync handled) hc
      simpa [entered, overflowed] using hraw

/-- The clouds filed in a run are the ones allocated, in order. -/
lemma addr_entered {cfg : Config} {tr : List NodeTurn} {t : LIVMapper} (h : NodeRun cfg tr t) :
    (tr.flatMap (entered cfg)).map CloudPtr.addr = List.range t.allocated := by
  refine h.history (P := fun tr t =>
      (tr.flatMap (entered cfg)).map CloudPtr.addr = List.range t.allocated)
    (C := fun _ => True) (fun _ _ => trivial) rfl ?_
  intro tr s ev obs t hsteps _ ih
  rw [List.flatMap_append, List.flatMap_singleton, List.map_append, ih]
  cases hsteps with
  | pclCbk driver msg =>
      rcases LIVMapper.lidarCbk_cases cfg driver s msg with ⟨hoff, heq⟩ | ⟨hskip, -, heq⟩ |
        ⟨hfiles, heq⟩
      · have hskip : ¬LIVMapper.FilesScan cfg driver msg := fun hf => absurd hf.1 (by simp [hoff])
        rw [entered_pclCbk, heq, if_neg hskip, List.map_nil, List.append_nil]
      · rw [entered_pclCbk, heq, LIVMapper.clearLoopBack_eq, if_neg hskip, List.map_nil,
          List.append_nil]
      · have hallocated : (LIVMapper.lidarCbk cfg driver s msg).allocated = s.allocated + 1 := by
          rw [heq, LIVMapper.clearLoopBack_eq]
          rfl
        rw [entered_pclCbk, hallocated, List.range_succ, if_pos hfiles]
        rfl
  | imuCbk cbk =>
      rw [(LIVMapper.imuCbk_frame cbk).allocated]
      exact List.append_nil _
  | imgCbk msg =>
      rw [(LIVMapper.imgCbk_frame cfg s msg).allocated]
      exact List.append_nil _
  | imuPropCallback =>
      rw [(LIVMapper.imuPropCallback_frame cfg s).1.allocated]
      exact List.append_nil _
  | idle sync =>
      rw [(LIVMapper.syncPackages_frame sync).allocated]
      exact List.append_nil _
  | group sync handled =>
      rw [handled.buffers.allocated, (LIVMapper.syncPackages_frame sync).allocated]
      exact List.append_nil _

/-- No cloud is filed twice. -/
lemma nodup_entered {cfg : Config} {tr : List NodeTurn} {t : LIVMapper} (h : NodeRun cfg tr t) :
    ((tr.flatMap (entered cfg)).map CloudPtr.addr).Nodup := by
  rw [addr_entered h]
  exact List.nodup_range

end FastLivo2
