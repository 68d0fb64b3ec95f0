import FastLivo2.VisualMap

/-!
# What the node publishes and saves

`publish_frame_world` ends both kinds of update of `LIVMapper.cpp`.  In a visual update it colours
the points that wait, every few calls, from the image of the frame; it publishes the coloured cloud
or, without a camera, the registered one; and it hands what it publishes on to the file of the map,
which is written every few scans.  `savePCD` writes what is left when the node shuts down.

Messages, files, images and pose lines are recorded in the order they are written.  The heading of
the COLMAP list, the number format of the pose lines and the log messages are left out.

What is published is what is saved: the points of the files and the points still waiting are the
points of the messages, in order (`Balanced`).  A call writes at most one file, under the time of
its group, so the second of the two `writeBinary` calls never replaces what the first has written
(`publishFrameWorld_files`).
-/

namespace FastLivo2

/-- `PointTypeRGB`. -/
structure PointTypeRGB where
  x : ℚ
  y : ℚ
  z : ℚ
  r : UInt8
  g : UInt8
  b : UInt8
  deriving DecidableEq

/-- A cloud as it is published or written. -/
inductive Cloud
  | empty
  | rgb (points : List PointTypeRGB)
  | intensity (points : PointCloudXYZI)

/-- The points of the cloud with a colour. -/
def Cloud.rgbPoints : Cloud → List PointTypeRGB
  | .rgb points => points
  | _ => []

/-- The points of the cloud with an intensity. -/
def Cloud.intensityPoints : Cloud → PointCloudXYZI
  | .intensity points => points
  | _ => []

/-- The files of the map: one named by a time, to the microsecond, or one of the two of the
shutdown. -/
inductive PcdName
  | time (micros : ℤ)
  | allRawPoints
  | allDownsampledPoints
  deriving DecidableEq

/-- `std::setprecision(6)` on `std::fixed`: the nearest microsecond, halves to the even one. -/
def fixed6 (t : ℚ) : ℤ :=
  let x := t * 1000000
  if x - ⌊x⌋ < 1 / 2 then ⌊x⌋
  else if 1 / 2 < x - ⌊x⌋ then ⌊x⌋ + 1
  else if ⌊x⌋ % 2 = 0 then ⌊x⌋ else ⌊x⌋ + 1

/-- The settings of the two sections `publish` and `pcd_save`, and those of the saved images. -/
structure OutputConfig where
  pubScanNum : ℤ := 1
  blindRgbPoints : ℚ := 1 / 100
  pcdSaveEn : Bool := false
  pcdSaveType : ℤ := 0
  pcdSaveInterval : ℤ := -1
  colmapOutputEn : Bool := false
  imgSaveEn : Bool := false
  imgSaveInterval : ℤ := 1
  /-- `pcl::VoxelGrid` with the leaf `filter_size_pcd`. -/
  voxelFilter : List PointTypeRGB → List PointTypeRGB := id

/-- A line of `lidar_poses.txt` or `image_poses.txt`. -/
structure PoseLine where
  time : ℚ
  posEnd : V3D
  rotEnd : M3D

/-- What `publish_frame_world` keeps from call to call, its static counters among it, and what it
has written. -/
structure MapOutput where
  pubNum : ℤ := 1
  scanWaitNum : ℤ := 0
  imgWaitNum : ℤ := 0
  pcdSaveInterval : ℤ := -1
  pclWaitPub : PointCloudXYZI := []
  pclWaitSave : List PointTypeRGB := []
  pclWaitSaveIntensity : PointCloudXYZI := []
  pcdSaved : Bool := false
  published : List Cloud := []
  files : List (PcdName × Cloud) := []
  images : List (ℤ × Mat) := []
  lidarPos : List PoseLine := []
  visualPos : List PoseLine := []
  points3D : List PointTypeRGB := []

/-- The output of a node as constructed. -/
def OutputConfig.initial (o : OutputConfig) : MapOutput where
  pcdSaveInterval := o.pcdSaveInterval

/-- What a call of `publish_frame_world` reads: the kind of the update and its group's times, the
registered cloud, the scan in the frame of the IMU, the image and the frame that colours a point,
and the pose. -/
structure PublishInput where
  flg : EkfState
  measure : MeasureGroup
  world : PointCloudXYZI
  body : PointCloudXYZI
  imgRgb : Mat
  frame : Frame
  state : StatesGroup

/-- An update by a scan. -/
def PublishInput.isScan (inp : PublishInput) : Prop := inp.flg = .lio ∨ inp.flg = .lo

instance (inp : PublishInput) : Decidable inp.isScan :=
  inferInstanceAs (Decidable (inp.flg = .lio ∨ inp.flg = .lo))

/-- `update_time`. -/
def PublishInput.updateTime (inp : PublishInput) : ℚ :=
  if inp.flg = .vio then inp.measure.vioTime else inp.measure.lioTime

/-! ## Colours -/

section Colours

variable (L : VioLibs)

/-- The byte of an image under a pointer `offset` bytes behind its start. -/
def imgByte (img : Mat) (offset : ℤ) : ℚ := (img.data.getD offset.toNat 0).toNat

/-- `VIOManager::getInterpolatedPixel`: blue, green and red, from the four pixels around. -/
def getInterpolatedPixel (img : Mat) (pc : V2D) : V3D :=
  let width : ℤ := L.cam.width
  let subpixU := pc 0 - ⌊pc 0⌋
  let subpixV := pc 1 - ⌊pc 1⌋
  let wRefTl := (1 - subpixU) * (1 - subpixV)
  let wRefTr := subpixU * (1 - subpixV)
  let wRefBl := (1 - subpixU) * subpixV
  let wRefBr := subpixU * subpixV
  let imgPtr := (⌊pc 1⌋ * width + ⌊pc 0⌋) * 3
  fun c =>
    wRefTl * imgByte img (imgPtr + c.val) + wRefTr * imgByte img (imgPtr + c.val + 3) +
      wRefBl * imgByte img (imgPtr + width * 3 + c.val) +
      wRefBr * imgByte img (imgPtr + width * 3 + c.val + 3)

/-- A colour, from the interpolated value. -/
def toByte (x : ℚ) : UInt8 := UInt8.ofNat (truncInt x).toNat

/-- The loop of `publish_frame_world`, on one point: nothing behind the camera, outside its image or
in the blind zone. -/
def colour (o : OutputConfig) (inp : PublishInput) (p : PointType) : Option PointTypeRGB :=
  let pf := inp.frame.w2f p.position
  if pf 2 < 0 then none
  else
    let pc := inp.frame.w2c L p.position
    if L.cam.isInFrame (castInt pc) 3 ∧ o.blindRgbPoints < V3D.norm L.toLibm pf then
      let pixel := getInterpolatedPixel L inp.imgRgb pc
      some ⟨p.x, p.y, p.z, toByte (pixel 2), toByte (pixel 1), toByte (pixel 0)⟩
    else none

end Colours

namespace MapOutput

/-! ## One call -/

/-- The three cases of `pcd_save_type`: a cloud in the world frame, one in the body frame, and
nothing. -/
def collect (mode : SlamMode) (o : OutputConfig) (inp : PublishInput) (rgb : List PointTypeRGB)
    (m : MapOutput) : MapOutput :=
  if o.pcdSaveType = 0 then
    { m with
      pclWaitSave := if mode = .livo then m.pclWaitSave ++ rgb else m.pclWaitSave
      pclWaitSaveIntensity :=
        if mode = .livo then m.pclWaitSaveIntensity else m.pclWaitSaveIntensity ++ inp.world
      scanWaitNum := if inp.isScan then m.scanWaitNum + 1 else m.scanWaitNum }
  else if o.pcdSaveType = 1 then
    { m with
      pclWaitSaveIntensity :=
        if inp.isScan then m.pclWaitSaveIntensity ++ inp.body else m.pclWaitSaveIntensity
      scanWaitNum := if inp.isScan then m.scanWaitNum + 1 else m.scanWaitNum
      pcdSaveInterval := 1 }
  else { m with scanWaitNum := m.scanWaitNum + 1, pcdSaveInterval := 1 }

/-- A cloud is due: one waits, and as many scans have come as the interval asks for. -/
def Due (m : MapOutput) : Prop :=
  (m.pclWaitSave ≠ [] ∨ m.pclWaitSaveIntensity ≠ []) ∧ 0 < m.pcdSaveInterval ∧
    m.pcdSaveInterval ≤ m.scanWaitNum

instance (m : MapOutput) : Decidable m.Due :=
  inferInstanceAs (Decidable ((m.pclWaitSave ≠ [] ∨ m.pclWaitSaveIntensity ≠ []) ∧
    0 < m.pcdSaveInterval ∧ m.pcdSaveInterval ≤ m.scanWaitNum))

/-- The files of the clouds that wait. -/
def due (name : PcdName) (m : MapOutput) : List (PcdName × Cloud) :=
  (if m.pclWaitSave = [] then [] else [(name, .rgb m.pclWaitSave)]) ++
    if m.pclWaitSaveIntensity = [] then [] else [(name, .intensity m.pclWaitSaveIntensity)]

/-- Write the clouds that wait, when they are due. -/
def write (name : PcdName) (m : MapOutput) : MapOutput :=
  if m.Due then
    { m with
      files := m.files ++ m.due name
      pclWaitSave := []
      pclWaitSaveIntensity := []
      scanWaitNum := 0 }
  else m

/-- The map file of a call, and the line of poses beside it. -/
def saveMap (mode : SlamMode) (o : OutputConfig) (inp : PublishInput) (rgb : List PointTypeRGB)
    (m : MapOutput) : MapOutput :=
  if o.pcdSaveEn then
    let m := (m.collect mode o inp rgb).write (.time (fixed6 inp.updateTime))
    if inp.isScan then
      { m with lidarPos := m.lidarPos ++
          [⟨inp.measure.lioTime, inp.state.posEnd, inp.state.rotEnd⟩] }
    else m
  else m

/-- The image of a call, and the line of poses beside it. -/
def saveImg (o : OutputConfig) (inp : PublishInput) (m : MapOutput) : MapOutput :=
  if o.imgSaveEn ∧ inp.flg = .vio then
    if 0 < o.imgSaveInterval ∧ o.imgSaveInterval ≤ m.imgWaitNum + 1 then
      { m with
        images := m.images ++ [(fixed6 inp.updateTime, inp.imgRgb)]
        visualPos := m.visualPos ++
          [⟨inp.measure.vioTime, inp.state.posEnd, inp.state.rotEnd⟩]
        imgWaitNum := 0 }
    else { m with imgWaitNum := m.imgWaitNum + 1 }
  else m

/-- The message of a call.  A scan in `LIVO` mode publishes an empty one. -/
def message (mode : SlamMode) (inp : PublishInput) (rgb : List PointTypeRGB) : Cloud :=
  if mode = .livo then if inp.flg = .vio then .rgb rgb else .empty else .intensity inp.world

/-- The points that wait for a colour, with those of a visual update. -/
def waiting (inp : PublishInput) (m : MapOutput) : PointCloudXYZI :=
  if inp.flg = .vio then m.pclWaitPub ++ inp.world else m.pclWaitPub

/-- The call colours. -/
def Colours (o : OutputConfig) (inp : PublishInput) (m : MapOutput) : Prop :=
  inp.flg = .vio ∧ o.pubScanNum ≤ m.pubNum + 1

instance (o : OutputConfig) (inp : PublishInput) (m : MapOutput) : Decidable (m.Colours o inp) :=
  inferInstanceAs (Decidable (inp.flg = .vio ∧ o.pubScanNum ≤ m.pubNum + 1))

/-- `laserCloudWorldRGB`. -/
def laserCloudWorldRGB (L : VioLibs) (o : OutputConfig) (inp : PublishInput) (m : MapOutput) :
    List PointTypeRGB :=
  if m.Colours o inp then (m.waiting inp).filterMap (colour L o inp) else []

/-- The call as far as its message. -/
def publish (mode : SlamMode) (o : OutputConfig) (inp : PublishInput) (rgb : List PointTypeRGB)
    (m : MapOutput) : MapOutput :=
  { m with
    pubNum := if m.Colours o inp then 1 else m.pubNum + 1
    pclWaitPub := m.waiting inp
    published := m.published ++ [message mode inp rgb] }

/-- `LIVMapper::publish_frame_world`. -/
def publishFrameWorld (L : VioLibs) (mode : SlamMode) (o : OutputConfig) (inp : PublishInput)
    (m : MapOutput) : MapOutput :=
  if inp.world = [] then m
  else
    let rgb := m.laserCloudWorldRGB L o inp
    let m := ((m.publish mode o inp rgb).saveMap mode o inp rgb).saveImg o inp
    if rgb = [] then m else { m with pclWaitPub := [] }

/-- `LIVMapper::savePCD`. -/
def savePCD (imgEn : Bool) (o : OutputConfig) (m : MapOutput) : MapOutput :=
  if m.pcdSaved then m
  else if o.pcdSaveEn ∧ (m.pclWaitSave ≠ [] ∨ m.pclWaitSaveIntensity ≠ []) ∧
      m.pcdSaveInterval < 0 then
    if imgEn then
      let downsampled := o.voxelFilter m.pclWaitSave
      { m with
        pcdSaved := true
        files := m.files ++
          [(.allRawPoints, .rgb m.pclWaitSave), (.allDownsampledPoints, .rgb downsampled)]
        points3D := if o.colmapOutputEn then m.points3D ++ downsampled else m.points3D }
    else { m with
      pcdSaved := true
      files := m.files ++ [(.allRawPoints, .intensity m.pclWaitSaveIntensity)] }
  else { m with pcdSaved := true }

variable {L : VioLibs} {mode : SlamMode} {o : OutputConfig} {inp : PublishInput} {m : MapOutput}
  {rgb : List PointTypeRGB}

/-! ## What is published is what is saved -/

/-- The points of the files, those with a colour and those with an intensity. -/
def rgbSaved (m : MapOutput) : List PointTypeRGB := m.files.flatMap fun f => f.2.rgbPoints

def intensitySaved (m : MapOutput) : PointCloudXYZI := m.files.flatMap fun f => f.2.intensityPoints

/-- The points of the messages. -/
def rgbPublished (m : MapOutput) : List PointTypeRGB := m.published.flatMap Cloud.rgbPoints

def intensityPublished (m : MapOutput) : PointCloudXYZI := m.published.flatMap Cloud.intensityPoints

lemma due_points (name : PcdName) (m : MapOutput) :
    (m.due name).flatMap (fun f => f.2.rgbPoints) = m.pclWaitSave ∧
      (m.due name).flatMap (fun f => f.2.intensityPoints) = m.pclWaitSaveIntensity := by
  unfold due
  constructor <;> split_ifs with hrgb hintensity <;>
    simp_all [Cloud.rgbPoints, Cloud.intensityPoints]

/-- Writing moves the points that wait into the files. -/
lemma write_points (name : PcdName) (m : MapOutput) :
    (m.write name).rgbSaved ++ (m.write name).pclWaitSave = m.rgbSaved ++ m.pclWaitSave ∧
      (m.write name).intensitySaved ++ (m.write name).pclWaitSaveIntensity =
        m.intensitySaved ++ m.pclWaitSaveIntensity := by
  obtain ⟨hrgb, hintensity⟩ := m.due_points name
  unfold write
  split_ifs
  · simp only [rgbSaved, intensitySaved, List.flatMap_append, hrgb, hintensity, List.append_nil,
      and_self]
  · exact ⟨rfl, rfl⟩

/-- A waiting cloud of only one kind is written into one file, which is not empty. -/
lemma write_files (name : PcdName) (h : m.pclWaitSave = [] ∨ m.pclWaitSaveIntensity = []) :
    (m.write name).files = m.files ∨ m.Due ∧ (m.write name).scanWaitNum = 0 ∧
      ∃ cloud, (m.write name).files = m.files ++ [(name, cloud)] ∧
        (cloud.rgbPoints ≠ [] ∨ cloud.intensityPoints ≠ []) := by
  unfold write
  split_ifs with hdue
  · have hwaits := hdue.1
    refine .inr ⟨hdue, rfl, ?_⟩
    rcases h with hempty | hempty
    · have hne := hwaits.resolve_left (not_not.mpr hempty)
      exact ⟨.intensity m.pclWaitSaveIntensity, by simp [due, hempty, hne], .inr hne⟩
    · have hne := hwaits.resolve_right (not_not.mpr hempty)
      exact ⟨.rgb m.pclWaitSave, by simp [due, hempty, hne], .inl hne⟩
  · exact .inl rfl

/-- What the saving of the map keeps and writes. -/
structure SaveState where
  files : List (PcdName × Cloud)
  rgb : List PointTypeRGB
  intensity : PointCloudXYZI
  published : List Cloud
  interval : ℤ
  scans : ℤ

def saveState (m : MapOutput) : SaveState :=
  ⟨m.files, m.pclWaitSave, m.pclWaitSaveIntensity, m.published, m.pcdSaveInterval, m.scanWaitNum⟩

lemma saveImg_saveState (m : MapOutput) : (m.saveImg o inp).saveState = m.saveState := by
  unfold saveImg
  split_ifs <;> rfl

/-- After the message the map is saved and nothing else touches it. -/
lemma publishFrameWorld_saveState (h : inp.world ≠ []) :
    (m.publishFrameWorld L mode o inp).saveState =
      ((m.publish mode o inp (m.laserCloudWorldRGB L o inp)).saveMap mode o inp
        (m.laserCloudWorldRGB L o inp)).saveState := by
  unfold publishFrameWorld
  rw [if_neg h]
  dsimp only
  split_ifs
  · exact saveImg_saveState _
  · exact saveImg_saveState _

/-- With the saving on, the clouds are collected and, when due, written. -/
lemma saveMap_saveState (hen : o.pcdSaveEn = true) (rgb : List PointTypeRGB) (m : MapOutput) :
    (m.saveMap mode o inp rgb).saveState =
      ((m.collect mode o inp rgb).write (.time (fixed6 inp.updateTime))).saveState := by
  unfold saveMap
  rw [if_pos hen]
  dsimp only
  split_ifs <;> rfl

lemma saveMap_of_disabled (hen : o.pcdSaveEn = false) (rgb : List PointTypeRGB) (m : MapOutput) :
    m.saveMap mode o inp rgb = m := by
  unfold saveMap
  rw [if_neg (by simp [hen])]

/-- Only one kind of cloud waits: a coloured one in `LIVO` mode, unless the settings ask for clouds
in the body frame, and none for a kind of cloud that does not exist. -/
structure OneKind (mode : SlamMode) (o : OutputConfig) (m : MapOutput) : Prop where
  rgb : ¬(mode = .livo ∧ o.pcdSaveType = 0) → m.pclWaitSave = []
  intensity : (mode = .livo ∧ o.pcdSaveType = 0) ∨ (o.pcdSaveType ≠ 0 ∧ o.pcdSaveType ≠ 1) →
    m.pclWaitSaveIntensity = []

lemma OneKind.or (h : m.OneKind mode o) : m.pclWaitSave = [] ∨ m.pclWaitSaveIntensity = [] := by
  by_cases hkind : mode = .livo ∧ o.pcdSaveType = 0
  · exact .inr (h.intensity (.inl hkind))
  · exact .inl (h.rgb hkind)

/-- The coloured points are kept for a file in `LIVO` mode. -/
lemma collect_pclWaitSave (inp : PublishInput) (rgb : List PointTypeRGB) (m : MapOutput) :
    (m.collect mode o inp rgb).pclWaitSave =
      if mode = .livo ∧ o.pcdSaveType = 0 then m.pclWaitSave ++ rgb else m.pclWaitSave := by
  unfold collect
  by_cases htype : o.pcdSaveType = 0
  · rw [if_pos htype]
    show (if mode = .livo then m.pclWaitSave ++ rgb else m.pclWaitSave) = _
    simp only [htype, and_true]
  · have hkind : ¬(mode = .livo ∧ o.pcdSaveType = 0) := fun hkind => htype hkind.2
    rw [if_neg htype, if_neg hkind]
    by_cases hbody : o.pcdSaveType = 1
    · rw [if_pos hbody]
    · rw [if_neg hbody]

/-- No other points are kept there, and none of a kind that does not exist. -/
lemma collect_pclWaitSaveIntensity (inp : PublishInput) (rgb : List PointTypeRGB)
    (hkind : (mode = .livo ∧ o.pcdSaveType = 0) ∨ (o.pcdSaveType ≠ 0 ∧ o.pcdSaveType ≠ 1))
    (m : MapOutput) : (m.collect mode o inp rgb).pclWaitSaveIntensity = m.pclWaitSaveIntensity := by
  unfold collect
  rcases hkind with ⟨hmode, htype⟩ | ⟨htype, hbody⟩
  · rw [if_pos htype]
    exact if_pos hmode
  · rw [if_neg htype, if_neg hbody]

lemma OneKind.collect (h : m.OneKind mode o) (inp : PublishInput) (rgb : List PointTypeRGB) :
    (m.collect mode o inp rgb).OneKind mode o := by
  refine ⟨fun hkind => ?_, fun hkind => ?_⟩
  · rw [collect_pclWaitSave, if_neg hkind, h.rgb hkind]
  · rw [collect_pclWaitSaveIntensity inp rgb hkind, h.intensity hkind]

lemma OneKind.write (h : m.OneKind mode o) (name : PcdName) : (m.write name).OneKind mode o := by
  unfold MapOutput.write
  split_ifs
  · exact ⟨fun _ => rfl, fun _ => rfl⟩
  · exact h

lemma OneKind.congr {m' : MapOutput} (h : m.OneKind mode o) (heq : m'.saveState = m.saveState) :
    m'.OneKind mode o := by
  have hrgb : m'.pclWaitSave = m.pclWaitSave := congrArg SaveState.rgb heq
  have hintensity : m'.pclWaitSaveIntensity = m.pclWaitSaveIntensity :=
    congrArg SaveState.intensity heq
  exact ⟨fun hkind => hrgb.trans (h.rgb hkind), fun hkind => hintensity.trans (h.intensity hkind)⟩

lemma oneKind_initial (mode : SlamMode) (o : OutputConfig) : o.initial.OneKind mode o :=
  ⟨fun _ => rfl, fun _ => rfl⟩

/-- A visual update counts no scan, where there is anything to save. -/
lemma collect_scanWaitNum (h : m.OneKind mode o) (hscan : ¬inp.isScan)
    (hwaits : (m.collect mode o inp rgb).pclWaitSave ≠ [] ∨
      (m.collect mode o inp rgb).pclWaitSaveIntensity ≠ []) :
    (m.collect mode o inp rgb).scanWaitNum = m.scanWaitNum := by
  have hcollect := h.collect inp rgb
  by_cases htype : o.pcdSaveType = 0
  · unfold collect
    rw [if_pos htype]
    exact if_neg hscan
  · by_cases hbody : o.pcdSaveType = 1
    · unfold collect
      rw [if_neg htype, if_pos hbody]
      exact if_neg hscan
    · have hrgb := hcollect.rgb fun hkind => htype hkind.2
      have hintensity := hcollect.intensity (.inr ⟨htype, hbody⟩)
      rcases hwaits with hwaits | hwaits
      · exact absurd hrgb hwaits
      · exact absurd hintensity hwaits

/-- The published clouds are the saved ones and those that wait, in order; without a positive
interval nothing is written. -/
structure Balanced (mode : SlamMode) (o : OutputConfig) (m : MapOutput) : Prop where
  oneKind : m.OneKind mode o
  rgb : m.rgbSaved ++ m.pclWaitSave = m.rgbPublished
  intensity : m.intensitySaved ++ m.pclWaitSaveIntensity = m.intensityPublished
  interval : m.pcdSaveInterval = o.pcdSaveInterval
  unsaved : o.pcdSaveInterval ≤ 0 → m.files = []
  named : ∀ f ∈ m.files, ∃ micros, f.1 = .time micros

lemma Balanced.congr {m' : MapOutput} (h : m.Balanced mode o) (heq : m'.saveState = m.saveState) :
    m'.Balanced mode o := by
  have hfiles : m'.files = m.files := congrArg SaveState.files heq
  have hrgb : m'.pclWaitSave = m.pclWaitSave := congrArg SaveState.rgb heq
  have hintensity : m'.pclWaitSaveIntensity = m.pclWaitSaveIntensity :=
    congrArg SaveState.intensity heq
  have hpublished : m'.published = m.published := congrArg SaveState.published heq
  have hinterval : m'.pcdSaveInterval = m.pcdSaveInterval := congrArg SaveState.interval heq
  refine ⟨h.oneKind.congr heq, ?_, ?_, hinterval.trans h.interval, ?_, ?_⟩
  · rw [rgbSaved, rgbPublished, hfiles, hrgb, hpublished]
    exact h.rgb
  · rw [intensitySaved, intensityPublished, hfiles, hintensity, hpublished]
    exact h.intensity
  · rw [hfiles]
    exact h.unsaved
  · rw [hfiles]
    exact h.named

lemma balanced_initial (mode : SlamMode) (o : OutputConfig) : o.initial.Balanced mode o := by
  exact ⟨oneKind_initial mode o, rfl, rfl, rfl, fun _ => rfl,
    fun _ hf => absurd hf List.not_mem_nil⟩

/-- In `LIVO` mode a message has the coloured points, else the registered ones. -/
lemma message_points (mode : SlamMode) (hscan : inp.flg ≠ .vio → rgb = []) :
    (message mode inp rgb).rgbPoints = (if mode = .livo then rgb else []) ∧
      (message mode inp rgb).intensityPoints = (if mode = .livo then [] else inp.world) := by
  unfold message
  split_ifs with hmode hvio
  · exact ⟨rfl, rfl⟩
  · exact ⟨(hscan hvio).symm, rfl⟩
  · exact ⟨rfl, rfl⟩

/-- What a message holds is collected with it. -/
lemma Balanced.collect (h : m.Balanced mode o) (htype : o.pcdSaveType = 0)
    (hscan : inp.flg ≠ .vio → rgb = []) :
    ((m.publish mode o inp rgb).collect mode o inp rgb).Balanced mode o := by
  have hone : (m.publish mode o inp rgb).OneKind mode o := ⟨h.oneKind.rgb, h.oneKind.intensity⟩
  obtain ⟨hmessage, hmessage'⟩ := message_points mode hscan
  have hpublished : (m.publish mode o inp rgb).rgbPublished =
      m.rgbPublished ++ if mode = .livo then rgb else [] := by
    unfold rgbPublished publish
    rw [List.flatMap_append, List.flatMap_singleton, hmessage]
  have hpublished' : (m.publish mode o inp rgb).intensityPublished =
      m.intensityPublished ++ if mode = .livo then [] else inp.world := by
    unfold intensityPublished publish
    rw [List.flatMap_append, List.flatMap_singleton, hmessage']
  have hcollect : (m.publish mode o inp rgb).collect mode o inp rgb =
      { m.publish mode o inp rgb with
        pclWaitSave := if mode = .livo then m.pclWaitSave ++ rgb else m.pclWaitSave
        pclWaitSaveIntensity := if mode = .livo then m.pclWaitSaveIntensity
          else m.pclWaitSaveIntensity ++ inp.world
        scanWaitNum := if inp.isScan then m.scanWaitNum + 1 else m.scanWaitNum } := if_pos htype
  refine ⟨hone.collect inp rgb, ?_, ?_, ?_, ?_, ?_⟩
  · rw [hcollect]
    show m.rgbSaved ++ (if mode = .livo then m.pclWaitSave ++ rgb else m.pclWaitSave) =
      (m.publish mode o inp rgb).rgbPublished
    rw [hpublished, ← h.rgb, List.append_assoc]
    split_ifs
    · rfl
    · rw [List.append_nil]
  · rw [hcollect]
    show m.intensitySaved ++ (if mode = .livo then m.pclWaitSaveIntensity
      else m.pclWaitSaveIntensity ++ inp.world) = (m.publish mode o inp rgb).intensityPublished
    rw [hpublished', ← h.intensity, List.append_assoc]
    split_ifs
    · rw [List.append_nil]
    · rfl
  · rw [hcollect]
    exact h.interval
  · rw [hcollect]
    exact h.unsaved
  · rw [hcollect]
    exact h.named

lemma Balanced.write (h : m.Balanced mode o) (micros : ℤ) :
    (m.write (.time micros)).Balanced mode o := by
  let name := PcdName.time micros
  obtain ⟨hrgb, hintensity⟩ := m.write_points name
  have hpublished : (m.write name).published = m.published := by
    unfold MapOutput.write
    split_ifs <;> rfl
  have hinterval : (m.write name).pcdSaveInterval = m.pcdSaveInterval := by
    unfold MapOutput.write
    split_ifs <;> rfl
  refine ⟨h.oneKind.write name, ?_, ?_, hinterval.trans h.interval, fun hle => ?_, ?_⟩
  · rw [hrgb, rgbPublished, hpublished]
    exact h.rgb
  · rw [hintensity, intensityPublished, hpublished]
    exact h.intensity
  · unfold MapOutput.write
    rw [if_neg fun hdue => absurd hdue.2.1 (by rw [h.interval]; omega)]
    exact h.unsaved hle
  · rcases write_files name h.oneKind.or with hnone | ⟨-, -, cloud, hone, -⟩
    · rw [hnone]
      exact h.named
    · rw [hone]
      intro f hf
      rcases List.mem_append.mp hf with hf | hf
      · exact h.named f hf
      · rw [List.mem_singleton.mp hf]
        exact ⟨micros, rfl⟩

/-- No call colours in an update by a scan. -/
lemma laserCloudWorldRGB_of_ne (h : inp.flg ≠ .vio) : m.laserCloudWorldRGB L o inp = [] :=
  if_neg fun hcolours => h hcolours.1

/-- **A call** keeps the balance. -/
lemma Balanced.publishFrameWorld (h : m.Balanced mode o) (hen : o.pcdSaveEn = true)
    (htype : o.pcdSaveType = 0) (inp : PublishInput) :
    (m.publishFrameWorld L mode o inp).Balanced mode o := by
  let rgb := m.laserCloudWorldRGB L o inp
  have hcollect : ((m.publish mode o inp rgb).collect mode o inp rgb).Balanced mode o :=
    h.collect htype laserCloudWorldRGB_of_ne
  by_cases hworld : inp.world = []
  · unfold MapOutput.publishFrameWorld
    rwa [if_pos hworld]
  · refine (hcollect.write (fixed6 inp.updateTime)).congr ?_
    rw [publishFrameWorld_saveState hworld, saveMap_saveState hen]

/-- Only one kind of cloud waits after any call. -/
lemma OneKind.publishFrameWorld (h : m.OneKind mode o) (inp : PublishInput) :
    (m.publishFrameWorld L mode o inp).OneKind mode o := by
  let rgb := m.laserCloudWorldRGB L o inp
  have hpublish : (m.publish mode o inp rgb).OneKind mode o := ⟨h.rgb, h.intensity⟩
  by_cases hworld : inp.world = []
  · unfold MapOutput.publishFrameWorld
    rwa [if_pos hworld]
  · cases hen : o.pcdSaveEn with
    | false =>
        refine hpublish.congr ?_
        rw [publishFrameWorld_saveState hworld, saveMap_of_disabled hen]
    | true =>
        refine ((hpublish.collect inp rgb).write (.time (fixed6 inp.updateTime))).congr ?_
        rw [publishFrameWorld_saveState hworld, saveMap_saveState hen]

/-- **The file of a call.**  A call writes no file, or one, not empty and named by the time of its
group.  In a visual update it writes only with scans counted before, and the count starts anew. -/
lemma publishFrameWorld_files (h : m.OneKind mode o) (inp : PublishInput) :
    (m.publishFrameWorld L mode o inp).files = m.files ∨
      (inp.isScan ∨ 0 < m.scanWaitNum) ∧ (m.publishFrameWorld L mode o inp).scanWaitNum = 0 ∧
        ∃ cloud, (m.publishFrameWorld L mode o inp).files =
            m.files ++ [(.time (fixed6 inp.updateTime), cloud)] ∧
          (cloud.rgbPoints ≠ [] ∨ cloud.intensityPoints ≠ []) := by
  let rgb := m.laserCloudWorldRGB L o inp
  have hpublish : (m.publish mode o inp rgb).OneKind mode o := ⟨h.rgb, h.intensity⟩
  by_cases hworld : inp.world = []
  · unfold publishFrameWorld
    exact .inl (by rw [if_pos hworld])
  · have hstate : (m.publishFrameWorld L mode o inp).saveState =
        ((m.publish mode o inp rgb).saveMap mode o inp rgb).saveState :=
      publishFrameWorld_saveState hworld
    cases hen : o.pcdSaveEn with
    | false =>
        rw [saveMap_of_disabled hen] at hstate
        exact .inl (congrArg SaveState.files hstate)
    | true =>
        rw [saveMap_saveState hen] at hstate
        have hfiles := congrArg SaveState.files hstate
        have hcollect : ((m.publish mode o inp rgb).collect mode o inp rgb).files = m.files := by
          unfold collect
          split_ifs <;> rfl
        rcases write_files (.time (fixed6 inp.updateTime)) (hpublish.collect inp rgb).or with
          hnone | ⟨⟨hwaits, hpos, hle⟩, hzero, cloud, hone, hne⟩
        · exact .inl (hfiles.trans (hnone.trans hcollect))
        · refine .inr ⟨?_, (congrArg SaveState.scans hstate).trans hzero, cloud, ?_, hne⟩
          · by_cases hscan : inp.isScan
            · exact .inl hscan
            · rw [collect_scanWaitNum hpublish hscan hwaits] at hle
              exact .inr (lt_of_lt_of_le hpos hle)
          · exact hfiles.trans (hone.trans (by rw [hcollect]))

/-- Saving the map leaves the images alone, and does not shut down. -/
lemma saveMap_rest (rgb : List PointTypeRGB) (m : MapOutput) :
    (m.saveMap mode o inp rgb).images = m.images ∧
      (m.saveMap mode o inp rgb).pcdSaved = m.pcdSaved := by
  have hcollect : (m.collect mode o inp rgb).images = m.images ∧
      (m.collect mode o inp rgb).pcdSaved = m.pcdSaved := by
    unfold collect
    split_ifs <;> exact ⟨rfl, rfl⟩
  have hwrite : ∀ (name : PcdName) (m' : MapOutput), (m'.write name).images = m'.images ∧
      (m'.write name).pcdSaved = m'.pcdSaved := by
    intro name m'
    unfold write
    split_ifs <;> exact ⟨rfl, rfl⟩
  have hboth := hwrite (.time (fixed6 inp.updateTime)) (m.collect mode o inp rgb)
  rw [hcollect.1, hcollect.2] at hboth
  unfold saveMap
  dsimp only
  split_ifs
  · exact hboth
  · exact hboth
  · exact ⟨rfl, rfl⟩

/-- The image of a call: a visual update saves none, or one named by the time of its group. -/
lemma publishFrameWorld_images (inp : PublishInput) :
    (m.publishFrameWorld L mode o inp).images = m.images ∨
      inp.flg = .vio ∧ (m.publishFrameWorld L mode o inp).images =
        m.images ++ [(fixed6 inp.updateTime, inp.imgRgb)] := by
  let rgb := m.laserCloudWorldRGB L o inp
  have himg : ∀ m' : MapOutput, (m'.saveImg o inp).images = m'.images ∨
      inp.flg = .vio ∧ (m'.saveImg o inp).images =
        m'.images ++ [(fixed6 inp.updateTime, inp.imgRgb)] := by
    intro m'
    unfold saveImg
    split_ifs with hen hdue
    · exact .inr ⟨hen.2, rfl⟩
    · exact .inl rfl
    · exact .inl rfl
  have hcall := himg ((m.publish mode o inp rgb).saveMap mode o inp rgb)
  rw [(saveMap_rest rgb (m.publish mode o inp rgb)).1] at hcall
  unfold publishFrameWorld
  dsimp only
  split_ifs
  · exact .inl rfl
  · exact hcall
  · exact hcall

lemma publishFrameWorld_pcdSaved (inp : PublishInput) :
    (m.publishFrameWorld L mode o inp).pcdSaved = m.pcdSaved := by
  let rgb := m.laserCloudWorldRGB L o inp
  have himg : ∀ m' : MapOutput, (m'.saveImg o inp).pcdSaved = m'.pcdSaved := by
    intro m'
    unfold saveImg
    split_ifs <;> rfl
  have hcall := himg ((m.publish mode o inp rgb).saveMap mode o inp rgb)
  rw [(saveMap_rest rgb (m.publish mode o inp rgb)).2] at hcall
  unfold publishFrameWorld
  dsimp only
  split_ifs
  · rfl
  · exact hcall
  · exact hcall

/-! ## The shutdown -/

/-- The clouds of the files as they were collected: all but the down-sampled one. -/
def rawFiles (m : MapOutput) : List (PcdName × Cloud) :=
  m.files.filter fun f => f.1 ≠ .allDownsampledPoints

lemma Balanced.rawFiles (h : m.Balanced mode o) : m.rawFiles = m.files := by
  refine List.filter_eq_self.mpr fun f hf => ?_
  obtain ⟨micros, hname⟩ := h.named f hf
  simp [hname]

/-- Where the shutdown writes nothing, it leaves the files. -/
lemma savePCD_files_of_not (h : ¬((m.pclWaitSave ≠ [] ∨ m.pclWaitSaveIntensity ≠ []) ∧
    m.pcdSaveInterval < 0)) (imgEn : Bool) : (m.savePCD imgEn o).files = m.files := by
  unfold savePCD
  rw [if_neg fun hwrites : o.pcdSaveEn = true ∧ _ ∧ _ => h hwrites.2]
  split_ifs <;> rfl

/-- What waits is written when the interval is negative, as the cloud the camera flag asks for. -/
lemma savePCD_files (hen : o.pcdSaveEn = true) (hsaved : m.pcdSaved = false)
    (hwaits : m.pclWaitSave ≠ [] ∨ m.pclWaitSaveIntensity ≠ []) (hneg : m.pcdSaveInterval < 0)
    (imgEn : Bool) : (m.savePCD imgEn o).files = m.files ++
      if imgEn then [(.allRawPoints, .rgb m.pclWaitSave),
        (.allDownsampledPoints, .rgb (o.voxelFilter m.pclWaitSave))]
      else [(.allRawPoints, .intensity m.pclWaitSaveIntensity)] := by
  unfold savePCD
  rw [if_neg (by simp [hsaved]), if_pos ⟨hen, hwaits, hneg⟩]
  split_ifs <;> rfl

/-- With a negative interval all that was published is written at once. -/
lemma Balanced.savePCD_written (h : m.Balanced mode o) (hen : o.pcdSaveEn = true)
    (htype : o.pcdSaveType = 0) (hsaved : m.pcdSaved = false) {imgEn : Bool}
    (hlivo : mode = .livo → imgEn = true)
    (hother : mode ≠ .livo → imgEn = true → m.pclWaitSaveIntensity = [])
    (hwaits : m.pclWaitSave ≠ [] ∨ m.pclWaitSaveIntensity ≠ []) (hneg : o.pcdSaveInterval < 0) :
    (m.savePCD imgEn o).rawFiles.flatMap (fun f => f.2.rgbPoints) = m.rgbPublished ∧
      (m.savePCD imgEn o).rawFiles.flatMap (fun f => f.2.intensityPoints) =
        m.intensityPublished := by
  have hrgb := h.rgb
  have hintensity := h.intensity
  have hfiles := savePCD_files hen hsaved hwaits (h.interval.trans_lt hneg) imgEn
  rw [h.unsaved hneg.le, List.nil_append] at hfiles
  simp only [rgbSaved, intensitySaved, h.unsaved hneg.le, List.flatMap_nil,
    List.nil_append] at hrgb hintensity
  unfold MapOutput.rawFiles
  by_cases hmode : mode = .livo
  · rw [if_pos (hlivo hmode)] at hfiles
    rw [hfiles, ← hrgb, ← hintensity, h.oneKind.intensity (.inl ⟨hmode, htype⟩)]
    exact ⟨List.append_nil _, rfl⟩
  · have hsave := h.oneKind.rgb fun hkind => hmode hkind.1
    have himg : imgEn ≠ true := fun himg =>
      hwaits.elim (fun hne => hne hsave) fun hne => hne (hother hmode himg)
    rw [if_neg himg] at hfiles
    rw [hfiles, ← hrgb, ← hintensity, hsave]
    exact ⟨rfl, List.append_nil _⟩

/-- **The shutdown.**  With the camera flag and the mode in accord, the points of the raw files are
those of the messages exactly when the interval is negative or nothing waits. -/
lemma Balanced.savePCD_complete (h : m.Balanced mode o) (hen : o.pcdSaveEn = true)
    (htype : o.pcdSaveType = 0) (hsaved : m.pcdSaved = false) {imgEn : Bool}
    (hlivo : mode = .livo → imgEn = true)
    (hother : mode ≠ .livo → imgEn = true → m.pclWaitSaveIntensity = []) :
    ((m.savePCD imgEn o).rawFiles.flatMap (fun f => f.2.rgbPoints) = m.rgbPublished ∧
      (m.savePCD imgEn o).rawFiles.flatMap (fun f => f.2.intensityPoints) =
        m.intensityPublished) ↔
      o.pcdSaveInterval < 0 ∨ (m.pclWaitSave = [] ∧ m.pclWaitSaveIntensity = []) := by
  by_cases hwrites : (m.pclWaitSave ≠ [] ∨ m.pclWaitSaveIntensity ≠ []) ∧ o.pcdSaveInterval < 0
  · exact iff_of_true (h.savePCD_written hen htype hsaved hlivo hother hwrites.1 hwrites.2)
      (.inl hwrites.2)
  · -- nothing more is written, so the raw files lack what waits
    have hraw : (m.savePCD imgEn o).rawFiles = m.files := by
      have hfiles : (m.savePCD imgEn o).files = m.files :=
        savePCD_files_of_not (by rwa [h.interval]) imgEn
      unfold MapOutput.rawFiles
      rw [hfiles]
      exact h.rawFiles
    rw [hraw, ← h.rgb, ← h.intensity]
    constructor
    · rintro ⟨hrgb, hintensity⟩
      exact .inr ⟨List.self_eq_append_right.mp hrgb, List.self_eq_append_right.mp hintensity⟩
    · intro hdone
      obtain ⟨hsave, hsave'⟩ : m.pclWaitSave = [] ∧ m.pclWaitSaveIntensity = [] := by
        rcases hdone with hneg | hempty
        · simpa using fun hwaits => hwrites ⟨hwaits, hneg⟩
        · exact hempty
      rw [hsave, hsave']
      exact ⟨(List.append_nil _).symm, (List.append_nil _).symm⟩

end MapOutput

end FastLivo2
