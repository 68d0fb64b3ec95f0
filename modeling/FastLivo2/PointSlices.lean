import FastLivo2.LivoCycle
import FastLivo2.ScanBuffers
import FastLivo2.Lib.Cutter

/-!
# The points a `LIVO` run slices

A cut at the capture time `T` of an image takes the buffered scans that have begun by `T` and
splits each at `T`: the points before go to `pcl_proc_cur` behind what the cut before left in
`pcl_proc_next`, the others replace it.  This is the device of `Lib.Cutter`, with the provenances of
the points for items: what the groups of a run hold is what its cuts emit, and `pcl_proc_next` is
what they carry.

The offset of a point is rewritten on the way.  A point that goes to `pcl_proc_cur` counts from
the update time, one that stays from `T`, and when it is emitted by the next cut the update time
is `T`, provided the VIO group in between ended there.
-/

namespace FastLivo2

open ImuProcess (propEndTime)

/-- Where the points of a cloud come from. -/
def provs (pcl : PointCloudXYZI) : List Provenance := pcl.map PointType.prov

lemma provs_append (pcl pcl' : PointCloudXYZI) : provs (pcl ++ pcl') = provs pcl ++ provs pcl' :=
  List.map_append

lemma provs_flatMap {α : Type} (l : List α) (f : α → PointCloudXYZI) :
    provs (l.flatMap f) = l.flatMap fun a => provs (f a) :=
  List.map_flatMap

/-- The offsets of the cloud count from `base`. -/
def Based (base : ℚ) (pcl : PointCloudXYZI) : Prop :=
  ∀ p ∈ pcl, base + p.curvature / 1000 = p.prov.time

lemma based_append {base : ℚ} {pcl pcl' : PointCloudXYZI} :
    Based base (pcl ++ pcl') ↔ Based base pcl ∧ Based base pcl' :=
  List.forall_mem_append

lemma based_flatMap {α : Type} {base : ℚ} {l : List α} {f : α → PointCloudXYZI} :
    Based base (l.flatMap f) ↔ ∀ a ∈ l, Based base (f a) := by
  simp only [Based, List.mem_flatMap]
  exact ⟨fun h a ha p hp => h p ⟨a, ha, hp⟩, fun h p ⟨a, ha, hp⟩ => h a ha p hp⟩

namespace LIVMapper

/-- The points of the cloud count from its header time and are its own, each once. -/
structure Stamped (cfg : Config) (ptr : CloudPtr) : Prop where
  based : Based (fileTime cfg ptr) ptr.points
  scan : ∀ p ∈ ptr.points, p.prov.scan = ptr.addr
  nodup : (provs ptr.points).Nodup

lemma stamped_newCloud (cfg : Config) (s : LIVMapper) (driver : LidarDriver) (msg : LidarMsg) :
    Stamped cfg (s.newCloud driver msg (headTime cfg driver msg)) where
  based := by
    intro p hp
    obtain ⟨i, hi, rfl⟩ := List.mem_mapIdx.mp hp
    rfl
  scan := by
    intro p hp
    obtain ⟨i, hi, rfl⟩ := List.mem_mapIdx.mp hp
    rfl
  nodup := by
    -- the points carry their places, which are all different
    refine List.Nodup.of_map Provenance.index ?_
    have hindex : (provs (s.newCloud driver msg (headTime cfg driver msg)).points).map
        Provenance.index = List.range msg.points.length := by
      refine List.ext_getElem (by simp [provs, newCloud]) fun i h₁ h₂ => ?_
      simp [provs, newCloud]
    rw [hindex]
    exact List.nodup_range

/-! ## Splitting one scan -/

section Split

variable {lastLioUpdateTime lioTime frameHeaderTime : ℚ}

/-- The test of the point loop compares the time of the point with the cut. -/
lemma curvature_lt_iff (lioTime : ℚ) {pt : PointType}
    (h : frameHeaderTime + pt.curvature / 1000 = pt.prov.time) :
    pt.curvature < (lioTime - frameHeaderTime) * 1000 ↔ pt.prov.time < lioTime := by
  rw [← h]
  constructor <;> intro hlt <;> linarith

lemma splitScan_based {pcl : PointCloudXYZI} (h : Based frameHeaderTime pcl) :
    Based lastLioUpdateTime (splitScan lastLioUpdateTime lioTime frameHeaderTime pcl).1 ∧
      Based lioTime (splitScan lastLioUpdateTime lioTime frameHeaderTime pcl).2 := by
  induction pcl with
  | nil => exact ⟨List.forall_mem_nil _, List.forall_mem_nil _⟩
  | cons pt pcl ih =>
      obtain ⟨hpt, hpcl⟩ := List.forall_mem_cons.mp h
      obtain ⟨hcur, hnext⟩ := ih hpcl
      rw [splitScan_cons]
      split_ifs
      · refine ⟨List.forall_mem_cons.mpr ⟨?_, hcur⟩, hnext⟩
        rw [← hpt]
        ring
      · refine ⟨hcur, List.forall_mem_cons.mpr ⟨?_, hnext⟩⟩
        rw [← hpt]
        ring

lemma splitScan_provs {pcl : PointCloudXYZI} (h : Based frameHeaderTime pcl) :
    provs (splitScan lastLioUpdateTime lioTime frameHeaderTime pcl).1 =
        (provs pcl).filter (fun a => a.time < lioTime) ∧
      provs (splitScan lastLioUpdateTime lioTime frameHeaderTime pcl).2 =
        (provs pcl).filter (fun a => lioTime ≤ a.time) := by
  induction pcl with
  | nil => exact ⟨rfl, rfl⟩
  | cons pt pcl ih =>
      obtain ⟨hpt, hpcl⟩ := List.forall_mem_cons.mp h
      obtain ⟨hcur, hnext⟩ := ih hpcl
      have htest := curvature_lt_iff lioTime hpt
      unfold provs at hcur hnext
      rw [splitScan_cons]
      by_cases hlt : pt.prov.time < lioTime
      · rw [if_pos (htest.mpr hlt)]
        simp [provs, hcur, hnext, hlt]
      · rw [if_neg (mt htest.mp hlt)]
        simp [provs, hcur, hnext, hlt, not_lt.mp hlt]

end Split

/-! ## One cut -/

/-- The capture time of the image in front. -/
def captureTime (cfg : Config) (s : LIVMapper) : ℚ :=
  s.imgTimeBuffer.head?.getD 0 + cfg.exposureTimeInit

/-- The scans in front that have begun by `time`, with their header times. -/
def dueScans (s : LIVMapper) (time : ℚ) : List (CloudPtr × ℚ) :=
  (s.lidRawDataBuffer.zip s.lidHeaderTimeBuffer).takeWhile fun x => x.2 ≤ time

/-- The cut a LIO group makes: at the capture time, with the points of the scans begun by then. -/
def cutOf (cfg : Config) (s : LIVMapper) : Cut ℚ Provenance where
  time := s.captureTime cfg
  batch := (s.dueScans (s.captureTime cfg)).flatMap fun x => provs x.1.points

section Cut

variable {cfg : Config} {s : LIVMapper} {updateTime lioTime imgTime : ℚ}
  {cur next : PointCloudXYZI} {taken : List (CloudPtr × ℚ)} {split : Split}

/-- The scans the loop takes can be told before it runs. -/
lemma Splits.taken_eq (h : Splits updateTime lioTime s.lidRawDataBuffer s.lidHeaderTimeBuffer
    cur next taken split) : taken = s.dueScans lioTime := by
  have hrest : (split.raw.zip split.header).takeWhile (fun x => x.2 ≤ lioTime) = [] := by
    rcases h.rest with hraw | hhead
    · rw [hraw]
      rfl
    · cases hheader : split.header with
      | nil => simp
      | cons time header =>
          have hlate : lioTime < time := hhead time (by simp [hheader])
          cases split.raw with
          | nil => rfl
          | cons ptr raw => simp [not_le.mpr hlate]
  have htaken : (taken.map Prod.fst).zip (taken.map Prod.snd) = taken :=
    (List.zip_of_prod rfl rfl).symm
  rw [dueScans, h.raw, h.header, List.zip_append (by simp), htaken,
    List.takeWhile_append_of_pos (by simpa using fun a b => h.due (a, b)), hrest,
    List.append_nil]

/-- The header times of the scans taken are their own. -/
lemma Splits.based (h : Splits updateTime lioTime s.lidRawDataBuffer s.lidHeaderTimeBuffer
    cur next taken split) (hpaired : s.Paired (fileTime cfg)) (hscans : s.AllScans (Stamped cfg)) :
    ∀ x ∈ taken, Based x.2 x.1.points := by
  have htimes : taken.map Prod.snd = taken.map fun x => fileTime cfg x.1 := by
    rw [Paired, h.raw, h.header, List.map_append, List.map_map] at hpaired
    exact (List.append_inj hpaired (by simp)).1
  intro x hx
  have htime : x.2 = fileTime cfg x.1 := List.map_inj_left.mp htimes x hx
  have hmem : x.1 ∈ s.lidRawDataBuffer := by
    rw [h.raw]
    exact List.mem_append_left _ (List.mem_map_of_mem hx)
  rw [htime]
  exact (hscans x.1 hmem).based

lemma LioCut.captureTime_eq (h : LioCut cfg s updateTime imgTime taken split) :
    s.captureTime cfg = imgTime + cfg.exposureTimeInit := by
  rw [captureTime, h.image]
  rfl

/-- What a LIO group holds and what it leaves over are the early and the late part of its cut. -/
lemma LioCut.provs_eq (h : LioCut cfg s updateTime imgTime taken split)
    (hpaired : s.Paired (fileTime cfg)) (hscans : s.AllScans (Stamped cfg)) :
    provs split.cur =
        provs s.lidarMeasures.pclProcNext ++ (s.cutOf cfg).early Provenance.time ∧
      provs split.next = (s.cutOf cfg).late Provenance.time := by
  have hbased := h.splits.based hpaired hscans
  have htaken : s.dueScans (imgTime + cfg.exposureTimeInit) = taken := h.splits.taken_eq.symm
  rw [h.splits.cur, h.splits.next, Cut.early, Cut.late, cutOf, h.captureTime_eq, htaken,
    List.filter_flatMap, List.filter_flatMap, provs_append, List.nil_append, provs_flatMap,
    provs_flatMap]
  refine ⟨congrArg _ (List.flatMap_congr fun x hx => ?_), List.flatMap_congr fun x hx => ?_⟩
  · exact (splitScan_provs (hbased x hx)).1
  · exact (splitScan_provs (hbased x hx)).2

/-- A cut leaves points that count from it, and the points it hands out count from the update
time if those left over by the cut before do. -/
lemma LioCut.based (h : LioCut cfg s updateTime imgTime taken split)
    (hpaired : s.Paired (fileTime cfg)) (hscans : s.AllScans (Stamped cfg)) :
    (Based updateTime s.lidarMeasures.pclProcNext → Based updateTime split.cur) ∧
      Based (imgTime + cfg.exposureTimeInit) split.next := by
  have hbased := h.splits.based hpaired hscans
  rw [h.splits.cur, h.splits.next, based_append, List.nil_append, based_flatMap, based_flatMap]
  exact ⟨fun hnext => ⟨hnext, fun x hx => (splitScan_based (hbased x hx)).1⟩,
    fun x hx => (splitScan_based (hbased x hx)).2⟩

end Cut

end LIVMapper

/-! ## The cuts of a run -/

/-- The cuts of the LIO groups of a run. -/
def cuts (cfg : Config) (tr : List NodeTurn) : List (Cut ℚ Provenance) :=
  tr.filterMap fun x => x.obs.bind fun g =>
    if g.lidarMeasures.lioVioFlg = .lio then some (x.pre.cutOf cfg) else none

lemma cuts_snoc_lio {cfg : Config} {tr : List NodeTurn} {x : NodeTurn} {g : LIVMapper}
    (hx : x.obs = some g) (hflg : g.lidarMeasures.lioVioFlg = .lio) :
    cuts cfg (tr ++ [x]) = cuts cfg tr ++ [x.pre.cutOf cfg] := by
  simp [cuts, hx, hflg]

lemma cuts_snoc_vio {cfg : Config} {tr : List NodeTurn} {x : NodeTurn} {g : LIVMapper}
    (hx : x.obs = some g) (hflg : g.lidarMeasures.lioVioFlg = .vio) :
    cuts cfg (tr ++ [x]) = cuts cfg tr := by
  simp [cuts, hx, hflg]

lemma cuts_snoc_none {cfg : Config} {tr : List NodeTurn} {x : NodeTurn} (hx : x.obs = none) :
    cuts cfg (tr ++ [x]) = cuts cfg tr := by
  simp [cuts, hx]

/-- The scans a pass takes off the deque. -/
def popped (x : NodeTurn) : List CloudPtr :=
  match x.event with
  | .pass _ => x.pre.lidRawDataBuffer.take
      (x.pre.lidRawDataBuffer.length - x.post.lidRawDataBuffer.length)
  | _ => []

section Popped

variable {cfg : Config} {s g u : LIVMapper} {ev : Event}

lemma popped_eq_nil {x : NodeTurn} (h : x.post.lidRawDataBuffer = x.pre.lidRawDataBuffer) :
    popped x = [] := by
  unfold popped
  split
  · rw [h, Nat.sub_self, List.take_zero]
  · rfl

lemma popped_of_not_pass {x : NodeTurn} (h : x.event.isPass = false) : popped x = [] := by
  unfold popped
  cases hev : x.event <;> simp_all [Event.isPass]

lemma popped_none (hmode : cfg.slamMode = .livo) (h : LIVMapper.Steps cfg s ev none u) :
    popped ⟨s, ev, none, u⟩ = [] := by
  cases h with
  | pclCbk driver msg => rfl
  | imuCbk cbk => rfl
  | imgCbk msg => rfl
  | imuPropCallback => rfl
  | idle sync => exact popped_eq_nil (LIVMapper.syncPackages_livo_idle hmode sync).2

/-- A LIO group pops the scans it takes. -/
lemma popped_lio {updateTime imgTime : ℚ} {taken : List (CloudPtr × ℚ)}
    {split : LIVMapper.Split} {est : Estimate} {obs : Option LIVMapper}
    (cut : LIVMapper.LioCut cfg s updateTime imgTime taken split)
    (hraw : u.lidRawDataBuffer = split.raw) :
    popped ⟨s, .pass est, obs, u⟩ = taken.map Prod.fst := by
  dsimp only [popped]
  rw [hraw, cut.splits.raw, List.length_append, Nat.add_sub_cancel, List.take_left]

end Popped

/-- The groups `gs`, made by the cuts `ks` from the scans `scans`, hold what the cuts emit, and the
node carries the rest. -/
structure PointsSliced (ks : List (Cut ℚ Provenance)) (gs : List LIVMapper)
    (scans : List CloudPtr) (s : LIVMapper) : Prop where
  times : List.Forall₂ (fun k g => k.time = cutTime g) ks gs
  emitted : gs.map (fun g => provs g.lidarMeasures.pclProcCur) =
    Cut.emitted Provenance.time [] ks
  carried : provs s.lidarMeasures.pclProcNext = Cut.carry Provenance.time [] ks
  late : ∀ g ∈ gs, ∀ p ∈ g.lidarMeasures.pclProcNext, cutTime g ≤ p.prov.time
  batches : scans.flatMap (fun ptr => provs ptr.points) = ks.flatMap Cut.batch

section PointsSliced

variable {cfg : Config} {s u : LIVMapper} {ks : List (Cut ℚ Provenance)} {gs : List LIVMapper}
  {scans : List CloudPtr}

lemma PointsSliced.of_next (h : PointsSliced ks gs scans s)
    (hnext : u.lidarMeasures.pclProcNext = s.lidarMeasures.pclProcNext) :
    PointsSliced ks gs scans u where
  times := h.times
  emitted := h.emitted
  carried := by rw [hnext, h.carried]
  late := h.late
  batches := h.batches

lemma PointsSliced.lio {updateTime imgTime : ℚ} {taken : List (CloudPtr × ℚ)}
    {split : LIVMapper.Split} (h : PointsSliced ks gs scans s)
    (hpaired : s.Paired (LIVMapper.fileTime cfg)) (hscans : s.AllScans (LIVMapper.Stamped cfg))
    (cut : LIVMapper.LioCut cfg s updateTime imgTime taken split)
    (hnext : u.lidarMeasures.pclProcNext = split.next) :
    PointsSliced (ks ++ [s.cutOf cfg])
      (gs ++ [(s.setUpdateTime updateTime).emitLio (imgTime + cfg.exposureTimeInit) split])
      (scans ++ taken.map Prod.fst) u := by
  obtain ⟨hcur, hlate⟩ := cut.provs_eq hpaired hscans
  have htime : (s.cutOf cfg).time = imgTime + cfg.exposureTimeInit := cut.captureTime_eq
  have hcut : cutTime ((s.setUpdateTime updateTime).emitLio
      (imgTime + cfg.exposureTimeInit) split) = imgTime + cfg.exposureTimeInit := by
    rw [cutTime, LIVMapper.emitLio_lastMeasure]
  refine ⟨?_, ?_, ?_, ?_, ?_⟩
  · exact List.rel_append h.times (.cons (htime.trans hcut.symm) .nil)
  · rw [List.map_append, h.emitted, Cut.emitted_snoc, ← h.carried, ← hcur]
    rfl
  · rw [hnext, hlate, Cut.carry_snoc]
  · intro g hg
    rcases List.mem_append.mp hg with hg | hg
    · exact h.late g hg
    · rw [List.mem_singleton.mp hg, hcut, ← htime]
      intro p hp
      refine Cut.le_of_mem_late Provenance.time ?_
      rw [← hlate]
      exact List.mem_map_of_mem hp
  · rw [List.flatMap_append, h.batches, List.flatMap_append, List.flatMap_singleton,
      LIVMapper.cutOf, cut.captureTime_eq, ← cut.splits.taken_eq, List.flatMap_map]

end PointsSliced

section Runs

variable {cfg : Config} {tr : List NodeTurn} {t : LIVMapper}

/-- Without loop backs the scans are read under their own times. -/
lemma paired_of_run (h : NodeRun cfg tr t) (hC : ∀ x ∈ tr, NoLoopBackIn cfg x) :
    ∀ x ∈ tr, x.pre.Paired (LIVMapper.fileTime cfg) := by
  have hpaired := (pairedThroughout_iff (LIVMapper.fileTime cfg) h).mpr fun x hx =>
    ⟨hC x hx, filesUnder_fileTime x⟩
  exact fun x hx => (hpaired.2 x hx).1

lemma stamped_of_run (h : NodeRun cfg tr t) :
    ∀ x ∈ tr, x.pre.AllScans (LIVMapper.Stamped cfg) := by
  have hscans := h.allScans (P := LIVMapper.Stamped cfg) (C := fun _ => True)
    (fun _ _ => trivial) fun s driver msg _ _ _ _ => LIVMapper.stamped_newCloud cfg s driver msg
  exact fun x hx => (hscans.2 x hx).1

/-- **The points of a run are cut as the device cuts.** -/
theorem pointsSliced_of_run (hmode : cfg.slamMode = .livo) (h : NodeRun cfg tr t)
    (hC : ∀ x ∈ tr, NoLoopBackIn cfg x) :
    PointsSliced (cuts cfg tr) (lioGroups tr) (tr.flatMap popped) t := by
  have hpaired := paired_of_run h hC
  have hscans := stamped_of_run h
  refine h.history (P := fun tr s => PointsSliced (cuts cfg tr) (lioGroups tr)
      (tr.flatMap popped) s)
    (C := fun x => x.pre.Paired (LIVMapper.fileTime cfg) ∧
      x.pre.AllScans (LIVMapper.Stamped cfg))
    (fun x hx => ⟨hpaired x hx, hscans x hx⟩) ?_ ?_
  · exact ⟨.nil, rfl, rfl, by simp [lioGroups, groups], rfl⟩
  · rintro tr s ev obs u hsteps ⟨hpaired, hscans⟩ ih
    rw [List.flatMap_append, List.flatMap_singleton]
    cases obs with
    | none =>
        rw [cuts_snoc_none rfl, lioGroups_snoc_none rfl, popped_none hmode hsteps,
          List.append_nil]
        exact ih.of_next (hsteps.quietBundle hmode).group.next
    | some g =>
        obtain ⟨hgroup, hhandled⟩ := hsteps.livoGroup hmode
        obtain ⟨est, rfl, -, -⟩ := hsteps.of_group
        have hnext := hhandled.group.next
        have hraw := hhandled.buffers.raw
        cases hgroup with
        | lio cut =>
            rw [cuts_snoc_lio rfl rfl, lioGroups_snoc_lio rfl rfl, popped_lio cut hraw]
            exact ih.lio hpaired hscans cut hnext
        | vio =>
            rw [cuts_snoc_vio rfl rfl, lioGroups_snoc_vio rfl rfl, popped_eq_nil hraw,
              List.append_nil]
            exact ih.of_next hnext

/-! ## The points lie before the cut -/

/-- The points of a LIO group were taken before its cut, and those it leaves over were not. -/
def CutClean (g : LIVMapper) : Prop :=
  (∀ p ∈ g.lidarMeasures.pclProcCur, p.prov.time < cutTime g) ∧
    ∀ p ∈ g.lidarMeasures.pclProcNext, cutTime g ≤ p.prov.time

instance : DecidablePred CutClean := fun g =>
  inferInstanceAs (Decidable ((∀ p ∈ g.lidarMeasures.pclProcCur, p.prov.time < cutTime g) ∧
    ∀ p ∈ g.lidarMeasures.pclProcNext, cutTime g ≤ p.prov.time))

/-- What the groups hold lies before the cuts exactly when what the cuts emit does. -/
lemma PointsSliced.cutClean_iff {ks : List (Cut ℚ Provenance)} {gs : List LIVMapper}
    {scans : List CloudPtr} {s : LIVMapper} (h : PointsSliced ks gs scans s) :
    (∀ g ∈ gs, CutClean g) ↔
      List.Forall₂ (Cut.Before Provenance.time) ks (Cut.emitted Provenance.time [] ks) := by
  have hclean : ∀ g ∈ gs,
      (CutClean g ↔ ∀ a ∈ provs g.lidarMeasures.pclProcCur, a.time < cutTime g) := by
    intro g hg
    rw [CutClean, and_iff_left (h.late g hg), provs, List.forall_mem_map]
  rw [← h.emitted, List.forall₂_map_right_iff, forall₂_congr hclean]
  have htimes := h.times
  clear h hclean
  induction htimes with
  | nil => simp
  | cons htime _ ih =>
      rw [List.forall_mem_cons, List.forall₂_cons, Cut.Before, htime]
      exact and_congr_right fun _ => ih

lemma cuts_ordered (hmode : cfg.slamMode = .livo) (h : NodeRun cfg tr t)
    (hC : ∀ x ∈ tr, NoLoopBackIn cfg x) :
    (cuts cfg tr).IsChain fun j k => j.time ≤ k.time := by
  have htimes : (cuts cfg tr).map Cut.time = (lioGroups tr).map cutTime := by
    rw [← List.forall₂_eq_eq_eq, List.forall₂_map_left_iff, List.forall₂_map_right_iff]
    exact (pointsSliced_of_run hmode h hC).times
  have horder := List.pairwise_map.mpr (cutsOrdered_of_run hmode h).order
  rw [← htimes] at horder
  exact (List.pairwise_map.mp horder).isChain

/-- **When the points of every LIO group lie before its cut.**  In a run of `LIVO` mode without
loop backs over buffered scans: every point a group holds was taken before the cut, and every
point it leaves over from the cut on, if and only if no scan taken at one cut reaches the next
cut. -/
theorem points_before_cut_iff (hmode : cfg.slamMode = .livo) (h : NodeRun cfg tr t)
    (hC : ∀ x ∈ tr, NoLoopBackIn cfg x) :
    (∀ g ∈ lioGroups tr, CutClean g) ↔ (cuts cfg tr).IsChain (Cut.EndsBefore Provenance.time) := by
  rw [(pointsSliced_of_run hmode h hC).cutClean_iff,
    Cut.emitted_before_iff Provenance.time _ (cuts_ordered hmode h hC)]

end Runs

/-- Two scans end to end, and an image in each: the cut at 1.04 s is the first. -/
def twoImages (second : ℕ) : List Event :=
  [.scanAt .livox 1000 hundredMs, .scanAt .livox 1100 hundredMs, .imuAt 1020, .imuAt 1080,
    .imuAt 1160, .imgAt 1040, .pass {}, .pass {}, .imgAt second, .pass {}]

/-- The second image is taken before the first scan ends: the point left over at the first cut, of
1.10 s, is handed out with the cut at 1.09 s. -/
theorem point_after_cut :
    ¬∀ g ∈ lioGroups (nodeTrace oneSampleConfig (twoImages 1090)).1, CutClean g := by
  decide +kernel

/-- The second image is taken after the first scan has ended. -/
theorem points_before_cut :
    let r := nodeTrace oneSampleConfig (twoImages 1160)
    (cuts oneSampleConfig r.1).length = 2 ∧ ∀ g ∈ lioGroups r.1, CutClean g :=
  ⟨by decide +kernel, (points_before_cut_iff (by decide) (nodeRun_nodeTrace oneSampleConfig _)
    (by decide +kernel)).mpr (by unfold Cut.EndsBefore; decide +kernel)⟩

/-! ## The time base of the points -/

/-- The points left over count from the end of the last group, and once the IMU is initialised so
does the next slice. -/
structure TimeBased (cfg : Config) (s : LIVMapper) : Prop where
  wait : s.lidarMeasures.lioVioFlg = .wait → s.pImu.imuNeedInit = cfg.imuEn
  next : s.lidarMeasures.lioVioFlg ≠ .wait →
    Based (propEndTime s.lidarMeasures) s.lidarMeasures.pclProcNext
  nonneg : s.lidarMeasures.lioVioFlg ≠ .wait → s.pImu.imuNeedInit = false →
    0 ≤ propEndTime s.lidarMeasures
  update : s.lidarMeasures.lioVioFlg = .vio → s.pImu.imuNeedInit = false →
    s.lidarMeasures.lastLioUpdateTime = propEndTime s.lidarMeasures

section TimeBased

variable {cfg : Config} {s g u : LIVMapper} {ev : Event}

lemma timeBased_initial (cfg : Config) : TimeBased cfg cfg.initial where
  wait := fun _ => rfl
  next := fun hne => absurd rfl hne
  nonneg := fun hne => absurd rfl hne
  update := fun h => absurd h (by simp [Config.initial])

lemma TimeBased.quiet (h : TimeBased cfg s) (hmode : cfg.slamMode = .livo)
    (hsteps : LIVMapper.Steps cfg s ev none u) : TimeBased cfg u := by
  have hbundle := hsteps.quietBundle hmode
  have hflg := hbundle.group.flg
  have hend := hbundle.group.propEndTime
  have hinit := congrArg ImuProcess.imuNeedInit hsteps.pImu
  refine ⟨?_, ?_, ?_, ?_⟩
  · rw [hflg, hinit]
    exact h.wait
  · rw [hflg, hend, hbundle.group.next]
    exact h.next
  · rw [hflg, hend, hinit]
    exact h.nonneg
  · rw [hflg, hend, hinit]
    intro hvio hdone
    have hne : s.lidarMeasures.lioVioFlg ≠ .wait := by simp [hvio]
    have hupdate := h.update hvio hdone
    have hnonneg : 0 ≤ s.lidarMeasures.lastLioUpdateTime := hupdate ▸ h.nonneg hne hdone
    -- the update time is not negative, so no call takes it for unset
    rcases hbundle.update with hsame | ⟨-, -, ⟨-, hsame⟩ | ⟨hneg, -⟩⟩
    · rw [hsame, hupdate]
    · rw [hsame, hupdate]
    · exact absurd hneg (not_lt.mpr hnonneg)

/-- Once the IMU is initialised, a slice begins where the last group ended. -/
lemma TimeBased.updateTime_eq {updateTime : ℚ} (h : TimeBased cfg s)
    (hflg : s.lidarMeasures.lioVioFlg = .wait ∨ s.lidarMeasures.lioVioFlg = .vio)
    (hupdate : s.UpdateTime updateTime) (hen : cfg.imuEn = true)
    (hdone : s.pImu.imuNeedInit = false) :
    s.lidarMeasures.lioVioFlg = .vio ∧ updateTime = propEndTime s.lidarMeasures := by
  rcases hflg with hwait | hvio
  · have hneeds := h.wait hwait
    rw [hdone, hen] at hneeds
    cases hneeds
  · have hne : s.lidarMeasures.lioVioFlg ≠ .wait := by simp [hvio]
    have heq := h.update hvio hdone
    refine ⟨hvio, ?_⟩
    rcases hupdate with ⟨-, hsame⟩ | ⟨hneg, -⟩
    · rw [hsame, heq]
    · rw [heq] at hneg
      exact absurd hneg (not_lt.mpr (h.nonneg hne hdone))

lemma TimeBased.lio {updateTime imgTime : ℚ} {taken : List (CloudPtr × ℚ)}
    {split : LIVMapper.Split} (h : TimeBased cfg s) (himg : ImgOrdered cfg s)
    (hpaired : s.Paired (LIVMapper.fileTime cfg)) (hscans : s.AllScans (LIVMapper.Stamped cfg))
    (hen : cfg.imuEn = true) (hsen : s.pImu.imuEn = true)
    (cut : LIVMapper.LioCut cfg s updateTime imgTime taken split)
    (hhandled : LIVMapper.Handled
      ((s.setUpdateTime updateTime).emitLio (imgTime + cfg.exposureTimeInit) split) u) :
    TimeBased cfg u := by
  have hflg : u.lidarMeasures.lioVioFlg = .lio := hhandled.group.flg
  have hend := hhandled.group.propEndTime
  rw [LIVMapper.emitLio_propEndTime] at hend
  refine ⟨?_, ?_, ?_, ?_⟩
  · intro hwait
    rw [hflg] at hwait
    cases hwait
  · intro _
    rw [hend, hhandled.group.next]
    exact (cut.based hpaired hscans).2
  · intro _ hdone
    rw [hend]
    cases hhandled.imu with
    | noImu en => exact absurd hsen (by rw [show s.pImu.imuEn = false from en]; exact nofun)
    | init _ _ _ _ _ done =>
        -- the initialisation used a sample up to the cut
        have hsamples := done hdone
        rw [LIVMapper.emitLio_lastMeasure] at hsamples
        obtain ⟨m, hm⟩ := List.exists_mem_of_ne_nil _ hsamples
        exact (stamp2Sec_nonneg m.stamp).trans
          (key_le_of_mem_popUpTo Imu.time (List.mem_of_mem_filter hm))
    | undistort _ _ needs =>
        obtain ⟨hvio, -⟩ := h.updateTime_eq cut.flg cut.update hen needs
        have hne : s.lidarMeasures.lioVioFlg ≠ .wait := by simp [hvio]
        exact (h.nonneg hne needs).trans
          (himg.ahead hne imgTime (List.mem_of_head? cut.image))
  · intro hvio
    rw [hflg] at hvio
    cases hvio

lemma TimeBased.vio {imgTime : ℚ} {img : Mat} {imgs : List Mat} {times : List ℚ}
    (h : TimeBased cfg s) (hcut : AtCut cfg s) (hsen : s.pImu.imuEn = true)
    (flg : s.lidarMeasures.lioVioFlg = .lio) (image : s.imgTimeBuffer.head? = some imgTime)
    (hhandled : LIVMapper.Handled
      (s.emitVio (imgTime + cfg.exposureTimeInit) img imgs times) u) : TimeBased cfg u := by
  have hflg : u.lidarMeasures.lioVioFlg = .vio := hhandled.group.flg
  have hend := hhandled.group.propEndTime
  have hne : s.lidarMeasures.lioVioFlg ≠ .wait := by simp [flg]
  have hdone' : u.pImu.imuNeedInit = false → s.pImu.imuNeedInit = false ∧
      u.lidarMeasures.lastLioUpdateTime = imgTime + cfg.exposureTimeInit := by
    intro hdone
    cases hhandled.imu with
    | noImu en => exact absurd hsen (by rw [show s.pImu.imuEn = false from en]; exact nofun)
    | init _ _ _ _ _ done =>
        -- a VIO group has no sample to finish the initialisation with
        exact absurd (by rw [LIVMapper.emitVio_lastMeasure]) (done hdone)
    | undistort _ _ needs _ _ update =>
        have htime := update (.inr rfl)
        rw [LIVMapper.emitVio_propEndTime] at htime
        exact ⟨needs, htime⟩
  rw [LIVMapper.emitVio_propEndTime] at hend
  refine ⟨?_, ?_, ?_, ?_⟩
  · intro hwait
    rw [hflg] at hwait
    cases hwait
  · intro _
    rw [hend, hcut flg imgTime image, hhandled.group.next]
    exact h.next hne
  · intro _ hdone
    rw [hend, hcut flg imgTime image]
    exact h.nonneg hne (hdone' hdone).1
  · intro _ hdone
    rw [hend]
    exact (hdone' hdone).2

end TimeBased

section Account

variable {cfg : Config} {tr : List NodeTurn} {t : LIVMapper}

lemma timeBased_of_run (hmode : cfg.slamMode = .livo) (h : NodeRun cfg tr t)
    (hloop : ∀ x ∈ tr, NoLoopBackIn cfg x) (hC : ∀ x ∈ tr, NoImageBetween cfg x) :
    ∀ x ∈ tr, TimeBased cfg x.pre := by
  have hpaired := paired_of_run h hloop
  have hscans := stamped_of_run h
  have himages := (imgOrdered_of_run hmode h).2
  have hcuts := (atCut_of_run hmode h hC).2
  have hen := imuEn_of_buffered h
  have hrun := h.invariant (I := TimeBased cfg)
    (C := fun x => (x.pre.Paired (LIVMapper.fileTime cfg) ∧
        x.pre.AllScans (LIVMapper.Stamped cfg)) ∧ ImgOrdered cfg x.pre ∧ AtCut cfg x.pre ∧
      (x.pre.imuBuffer ≠ [] → cfg.imuEn = true ∧ x.pre.pImu.imuEn = true))
    (fun x hx => ⟨⟨hpaired x hx, hscans x hx⟩, (himages x hx).1, (hcuts x hx).1, hen x hx⟩)
    (timeBased_initial cfg) ?_
  · exact fun x hx => (hrun.2 x hx).1
  · rintro s ev obs u hsteps ⟨⟨hpaired, hscans⟩, himg, hcut, himuEn⟩ hpre
    cases obs with
    | none => exact hpre.quiet hmode hsteps
    | some g =>
        obtain ⟨hgroup, hhandled⟩ := hsteps.livoGroup hmode
        obtain ⟨hen, hsen⟩ := himuEn hgroup.imuBuffer_ne_nil
        cases hgroup with
        | lio cut => exact hpre.lio himg hpaired hscans hen hsen cut hhandled
        | vio flg image => exact hpre.vio hcut hsen flg image hhandled

/-- The points of a LIO group count from the update time it was cut with. -/
lemma based_of_livoGroup {s g : LIVMapper} (h : TimeBased cfg s)
    (hpaired : s.Paired (LIVMapper.fileTime cfg)) (hscans : s.AllScans (LIVMapper.Stamped cfg))
    (hen : cfg.imuEn = true) (hgroup : LIVMapper.LivoGroup cfg s g)
    (hflg : g.lidarMeasures.lioVioFlg = .lio) (hdone : g.pImu.imuNeedInit = false) :
    Based g.lidarMeasures.lastLioUpdateTime g.lidarMeasures.pclProcCur := by
  cases hgroup with
  | lio cut =>
      obtain ⟨hvio, hupdate⟩ := h.updateTime_eq cut.flg cut.update hen hdone
      refine (cut.based hpaired hscans).1 ?_
      rw [hupdate]
      exact h.next (by simp [hvio])
  | vio => cases hflg

/-- Every scan popped was filed, and none twice. -/
lemma popped_sublist (h : NodeRun cfg tr t) (hloop : ∀ x ∈ tr, NoLoopBackIn cfg x) :
    (tr.flatMap popped).Sublist (tr.flatMap (entered cfg)) := by
  have hentered : tr.flatMap (entered cfg) =
      tr.flatMap (fun x => popped x ++ overflowed cfg x) ++ t.lidRawDataBuffer := by
    refine entered_eq popped (C := fun _ => True) h (fun x hx => ⟨hloop x hx, trivial⟩)
      (fun x hx _ => popped_of_not_pass hx) ?_
    intro s est obs u hsteps _
    obtain ⟨taken, hraw⟩ := (hsteps.lidar rfl).1
    simp [popped, ← hraw]
  rw [hentered]
  have hpopped : (tr.flatMap popped).Sublist
      (tr.flatMap fun x => popped x ++ overflowed cfg x) :=
    List.Sublist.flatMap_right tr fun x _ => List.sublist_append_left _ _
  exact hpopped.trans (List.sublist_append_left _ _)

/-- The points of different scans are different. -/
lemma nodup_provs (cfg : Config) {scans : List CloudPtr}
    (hscans : ∀ ptr ∈ scans, LIVMapper.Stamped cfg ptr)
    (haddr : (scans.map CloudPtr.addr).Nodup) :
    (scans.flatMap fun ptr => provs ptr.points).Nodup := by
  rw [List.nodup_flatMap]
  refine ⟨fun ptr hptr => (hscans ptr hptr).nodup, ?_⟩
  refine (List.pairwise_map.mp haddr).imp_of_mem ?_
  intro a b ha hb hne c hca hcb
  obtain ⟨p, hp, rfl⟩ := List.mem_map.mp hca
  obtain ⟨q, hq, hpq⟩ := List.mem_map.mp hcb
  refine hne ?_
  rw [← (hscans a ha).scan p hp, ← (hscans b hb).scan q hq, hpq]

lemma nodup_popped (h : NodeRun cfg tr t) (hloop : ∀ x ∈ tr, NoLoopBackIn cfg x) :
    ((tr.flatMap popped).flatMap fun ptr => provs ptr.points).Nodup := by
  refine nodup_provs cfg ?_ ?_
  · intro ptr hptr
    obtain ⟨x, hx, hmem⟩ := List.mem_flatMap.mp hptr
    have hraw : ptr ∈ x.pre.lidRawDataBuffer := by
      unfold popped at hmem
      split at hmem
      · exact List.mem_of_mem_take hmem
      · cases hmem
    exact stamped_of_run h x hx ptr hraw
  · exact ((popped_sublist h hloop).map CloudPtr.addr).nodup (nodup_entered h)

/-- **Every point is handed out once, on the right time base.**  In a run of `LIVO` mode with
header times in order that accepts no image between a LIO group and its VIO group: the points of
the LIO groups, with those still left over, are the points of the scans popped, in some order and
none twice; and once the IMU is initialised, each point of a LIO group is as far from the update
time as its offset says. -/
theorem points_handed_once (hmode : cfg.slamMode = .livo) (h : NodeRun cfg tr t)
    (hheaders : (lidarHeaders cfg tr).Pairwise (· ≤ ·)) (hC : ∀ x ∈ tr, NoImageBetween cfg x) :
    ((lioGroups tr).flatMap (fun g => provs g.lidarMeasures.pclProcCur) ++
        provs t.lidarMeasures.pclProcNext).Perm
        ((tr.flatMap popped).flatMap fun ptr => provs ptr.points) ∧
      ((tr.flatMap popped).flatMap fun ptr => provs ptr.points).Nodup ∧
      ∀ g ∈ lioGroups tr, g.pImu.imuNeedInit = false →
        ∀ p ∈ g.lidarMeasures.pclProcCur,
          g.lidarMeasures.lastLioUpdateTime + p.curvature / 1000 = p.prov.time := by
  have hloop := noLoopBackIn_of_ordered h hheaders
  have hsliced := pointsSliced_of_run hmode h hloop
  refine ⟨?_, nodup_popped h hloop, ?_⟩
  · have hperm := Cut.cut_perm Provenance.time [] (cuts cfg tr)
    rw [← hsliced.emitted, ← hsliced.carried, List.nil_append, ← hsliced.batches] at hperm
    rwa [List.flatMap_def]
  · intro g hg hdone
    obtain ⟨hgroup, hlio⟩ := List.mem_filter.mp hg
    obtain ⟨x, hx, hobs⟩ := List.mem_filterMap.mp hgroup
    have hsteps := (h.taken x hx).steps
    rw [hobs] at hsteps
    have hlivo := (hsteps.livoGroup hmode).1
    exact based_of_livoGroup (timeBased_of_run hmode h hloop hC x hx) (paired_of_run h hloop x hx)
      (stamped_of_run h x hx) (imuEn_of_buffered h x hx hlivo.imuBuffer_ne_nil).1 hlivo
      (by simpa using hlio) hdone

end Account

/-- In the run of `twoImages` the second LIO group is one of an initialised IMU and holds a point
left over by the first. -/
theorem points_of_twoImages :
    let r := nodeTrace oneSampleConfig (twoImages 1160)
    ((lioGroups r.1).flatMap (fun g => provs g.lidarMeasures.pclProcCur) ++
        provs r.2.lidarMeasures.pclProcNext).Perm
        ((r.1.flatMap popped).flatMap fun ptr => provs ptr.points) ∧
      ((r.1.flatMap popped).flatMap fun ptr => provs ptr.points).Nodup ∧
      ∀ g ∈ lioGroups r.1, g.pImu.imuNeedInit = false →
        ∀ p ∈ g.lidarMeasures.pclProcCur,
          g.lidarMeasures.lastLioUpdateTime + p.curvature / 1000 = p.prov.time :=
  points_handed_once (by decide) (nodeRun_nodeTrace oneSampleConfig _) (by decide +kernel)
    (by decide +kernel)

end FastLivo2
