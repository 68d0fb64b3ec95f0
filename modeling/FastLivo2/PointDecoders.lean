import FastLivo2.PacketIntake

/-!
# The three decoders

Each decoder rotates the points of its format and adds the translation of the lidar, and each has
its own place for the units.  The translation is in millimetres: the decoder of millimetres divides
the sum by 1000, the decoder of angles the translation by itself, and the decoder of centimetres
divides the sum by 100.  For a lidar that is configured to send centimetres the configuration
divides the translation by ten beforehand, whichever decoder is to use it.
-/

namespace FastLivo2

variable {K : Type} [Field K]

namespace UserLivoxLidarConfig

/-- The extrinsic that `LdsLidar` gives to the `PubHandler` for a configuration. -/
def lidarParam (config : UserLivoxLidarConfig K) : ExtParameter K :=
  if config.pclDataType = 2 then
    { config.extrinsicParam with
      x := config.extrinsicParam.x / 10
      y := config.extrinsicParam.y / 10
      z := config.extrinsicParam.z / 10 }
  else config.extrinsicParam

/-- The handler of a lidar, with its extrinsic. -/
def handler (T : Trigonometry K) (config : UserLivoxLidarConfig K) : LidarPubHandler K :=
  LidarPubHandler.new.setLidarsExtParam T config.lidarParam

end UserLivoxLidarConfig

/-! ## The points that a packet stands for -/

/-- The points of a packet, in metres. -/
def RawPacket.sources (T : Trigonometry K) (pkt : RawPacket) : List (Fin 3 → K) :=
  let source (size : ℕ) (metres : List UInt8 → Fin 3 → K) : List (Fin 3 → K) :=
    (List.range pkt.pointNum.toNat).map fun i => metres (pkt.rawData.drop (size * i))
  if pkt.dataType = 1 then
    source 14 fun bytes => (LivoxLidarCartesianHighRawPoint.read bytes).metres
  else if pkt.dataType = 2 then
    source 8 fun bytes => (LivoxLidarCartesianLowRawPoint.read bytes).metres
  else if pkt.dataType = 3 then
    source 10 fun bytes => LidarPubHandler.spherSource T (LivoxLidarSpherPoint.read bytes)
  else []

def PointXyzlt.position (p : PointXyzlt K) : Fin 3 → K := ![p.x, p.y, p.z]

/-- Whatever the format of a packet, its points come out where they are. -/
def UserLivoxLidarConfig.DecodesRight (T : Trigonometry K) (config : UserLivoxLidarConfig K) :
    Prop :=
  ∀ handle devType data now pkt h',
    onLivoxLidarPointCloudCallback handle devType data now = .ok (some pkt) →
    (config.handler T).livoxLidarPointCloudProcess T pkt = .ok h' →
      h'.pointsClouds.map PointXyzlt.position = (pkt.sources T).map (config.place T)

/-! ## One point -/

namespace LidarPubHandler

variable {h : LidarPubHandler K} {T : Trigonometry K}

omit [Field K] in
lemma position_decodePoint {R : Type} {size : ℕ} {read : List UInt8 → R} {coord : R → Fin 3 → K}
    {reflectivity tag : R → UInt8} {pkt : RawPacket} {i : ℕ} :
    (decodePoint size read coord reflectivity tag pkt i).position =
      coord (read (pkt.rawData.drop (size * i))) := by
  funext k
  fin_cases k <;> rfl

lemma highCoord_eq (raw : LivoxLidarCartesianHighRawPoint) (k : Fin 3) :
    h.highCoord false raw k =
      h.extrinsic.rotation.mulVec raw.metres k + h.extrinsic.trans k / 1000 := by
  have hscale : (raw.metres : Fin 3 → K) =
      (1000 : K)⁻¹ • ![(raw.x.toInt : K), (raw.y.toInt : K), (raw.z.toInt : K)] := by
    funext j
    rw [Pi.smul_apply, smul_eq_mul, mul_comm, ← div_eq_mul_inv]
    rfl
  rw [hscale, Matrix.mulVec_smul, Pi.smul_apply, smul_eq_mul, mul_comm, ← div_eq_mul_inv,
    ← add_div]
  rfl

lemma lowCoord_eq (raw : LivoxLidarCartesianLowRawPoint) (k : Fin 3) :
    h.lowCoord false raw k =
      h.extrinsic.rotation.mulVec raw.metres k + h.extrinsic.trans k / 100 := by
  have hscale : (raw.metres : Fin 3 → K) =
      (100 : K)⁻¹ • ![(raw.x.toInt : K), (raw.y.toInt : K), (raw.z.toInt : K)] := by
    funext j
    rw [Pi.smul_apply, smul_eq_mul, mul_comm, ← div_eq_mul_inv]
    rfl
  rw [hscale, Matrix.mulVec_smul, Pi.smul_apply, smul_eq_mul, mul_comm, ← div_eq_mul_inv,
    ← add_div]
  rfl

omit [Field K] in
/-- The points of a packet, one after the other. -/
lemma positions_of_processPoints {R : Type} {size : ℕ} {read : List UInt8 → R}
    {coord : R → Fin 3 → K} {reflectivity tag : R → UInt8} {pkt : RawPacket}
    {h' : LidarPubHandler K} (hline : pkt.lineNum ≠ 0) (hnew : h.pointsClouds = [])
    (hok : h.processPoints size read coord reflectivity tag pkt = .ok h') :
    h'.pointsClouds.map PointXyzlt.position =
      (List.range pkt.pointNum.toNat).map fun i => coord (read (pkt.rawData.drop (size * i))) := by
  have hfits := (h.processPoints_returns_iff hline).mp ⟨h', hok⟩
  rw [h.processPoints_eq hline hfits] at hok
  cases hok
  rw [hnew, List.nil_append, List.map_map]
  exact List.map_congr_left fun i _ => position_decodePoint

/-- What becomes of the points of a packet. -/
lemma positions_of_process {pkt : RawPacket} {h' : LidarPubHandler K} (hline : pkt.lineNum ≠ 0)
    (henable : pkt.extrinsicEnable = false) (hnew : h.pointsClouds = [])
    (hok : h.livoxLidarPointCloudProcess T pkt = .ok h') :
    h'.pointsClouds.map PointXyzlt.position = (pkt.sources T).map fun p k =>
      h.extrinsic.rotation.mulVec p k + h.extrinsic.trans k / unit pkt.dataType := by
  unfold livoxLidarPointCloudProcess at hok
  unfold RawPacket.sources unit
  by_cases hhigh : pkt.dataType = 1
  · have hnot : pkt.dataType ≠ 2 := by rw [hhigh]; decide
    rw [if_pos hhigh] at hok
    rw [if_pos hhigh, if_neg hnot, positions_of_processPoints hline hnew hok, List.map_map,
      henable]
    exact List.map_congr_left fun i _ => funext fun k => highCoord_eq _ k
  · rw [if_neg hhigh] at hok ⊢
    by_cases hlow : pkt.dataType = 2
    · rw [if_pos hlow] at hok
      rw [if_pos hlow, if_pos hlow, positions_of_processPoints hline hnew hok, List.map_map,
        henable]
      exact List.map_congr_left fun i _ => funext fun k => lowCoord_eq _ k
    · rw [if_neg hlow] at hok ⊢
      rw [if_neg hlow]
      by_cases hspher : pkt.dataType = 3
      · rw [if_pos hspher] at hok ⊢
        rw [positions_of_processPoints hline hnew hok, List.map_map, henable]
        rfl
      · rw [if_neg hspher] at hok ⊢
        cases hok
        rw [hnew]
        rfl

end LidarPubHandler

lemma raw_of_callback {handle : UInt32} {devType : UInt8} {data : LivoxLidarEthernetPacket}
    {now : UInt64} {pkt : RawPacket}
    (hpkt : onLivoxLidarPointCloudCallback handle devType data now = .ok (some pkt)) :
    pkt.lineNum ≠ 0 ∧ pkt.extrinsicEnable = false := by
  unfold onLivoxLidarPointCloudCallback at hpkt
  split_ifs at hpkt
  · cases hpkt
  · obtain rfl := Option.some.inj (Except.ok.inj hpkt)
    exact ⟨LivoxLidarEthernetPacket.lineNumber_ne_zero devType, rfl⟩

namespace UserLivoxLidarConfig

variable {T : Trigonometry K} {config : UserLivoxLidarConfig K}

lemma rotation_lidarParam :
    config.lidarParam.rotation T = config.extrinsicParam.rotation T := by
  unfold lidarParam
  split_ifs <;> rfl

/-- The translation as a decoder uses it, against the one that is meant. -/
lemma decodesRight_iff_shift : config.DecodesRight T ↔
    ∀ handle devType data now pkt h',
      onLivoxLidarPointCloudCallback handle devType data now = .ok (some pkt) →
      (config.handler T).livoxLidarPointCloudProcess T pkt = .ok h' → pkt.sources T ≠ [] →
        ∀ k, config.lidarParam.translation k / LidarPubHandler.unit pkt.dataType =
          config.extrinsicParam.translation k / 1000 := by
  refine forall₄_congr fun handle devType data now => forall₄_congr fun pkt h' hpkt hok => ?_
  obtain ⟨hline, henable⟩ := raw_of_callback hpkt
  rw [LidarPubHandler.positions_of_process hline henable rfl hok]
  have hrotation : (config.handler T).extrinsic.rotation = config.extrinsicParam.rotation T :=
    rotation_lidarParam
  rw [hrotation, List.map_inj_left]
  constructor
  · intro hall hne k
    obtain ⟨p, hp⟩ := List.exists_mem_of_ne_nil _ hne
    exact add_left_cancel (congrFun (hall p hp) k)
  · intro hshift p hp
    funext k
    exact congrArg _ (hshift (List.ne_nil_of_mem hp) k)

/-- A packet with one point. -/
def onePoint (dataType : UInt8) : LivoxLidarEthernetPacket := ⟨50, 0, 1, dataType, 0, 0, fun _ => 0⟩

/-- One packet shows what a decoder does with the translation. -/
lemma shift_of_decodesRight (hright : config.DecodesRight T) {dataType : UInt8}
    (htype : dataType = 1 ∨ dataType = 2) (k : Fin 3) :
    config.lidarParam.translation k / LidarPubHandler.unit dataType =
      config.extrinsicParam.translation k / 1000 := by
  obtain rfl | rfl := htype
  · obtain ⟨h', hok⟩ := ((config.handler T).livoxLidarPointCloudProcess_returns_iff (T := T)
      ⟨.kLivoxLidarType, 0, false, 1, 1, 1, 0, 0, (List.range 14).map fun _ => 0⟩
      (by decide)).mpr (by decide)
    exact decodesRight_iff_shift.mp hright 0 0 (onePoint 1) 0 _ h' rfl hok (List.cons_ne_nil _ _) k
  · obtain ⟨h', hok⟩ := ((config.handler T).livoxLidarPointCloudProcess_returns_iff (T := T)
      ⟨.kLivoxLidarType, 0, false, 1, 2, 1, 0, 0, (List.range 14).map fun _ => 0⟩
      (by decide)).mpr (by decide)
    exact decodesRight_iff_shift.mp hright 0 0 (onePoint 2) 0 _ h' rfl hok (List.cons_ne_nil _ _) k

/-- Without its last digit a number is itself only if it is zero. -/
lemma eq_zero_of_div_ten {x : Int32} (h : (x / 10).toInt = x.toInt) : x = 0 := by
  rw [Int32.toInt_div_of_ne_right x 10 (by decide)] at h
  refine Int32.toInt_inj.mp ?_
  have hten : (10 : Int32).toInt = 10 := rfl
  rw [hten] at h
  obtain hpos | hneg := le_total 0 x.toInt
  · rw [Int.tdiv_eq_ediv_of_nonneg hpos] at h
    have : x.toInt = 0 := by omega
    exact this
  · have hneg' : (-x.toInt).tdiv 10 = -x.toInt := by rw [Int.neg_tdiv, h]
    rw [Int.tdiv_eq_ediv_of_nonneg (by omega)] at hneg'
    have : x.toInt = 0 := by omega
    exact this

variable [CharZero K]

/-- No translation but zero is right for all the decoders. -/
lemma translation_eq_zero (hright : config.DecodesRight T) :
    config.extrinsicParam.x = 0 ∧ config.extrinsicParam.y = 0 ∧ config.extrinsicParam.z = 0 := by
  by_cases hlow : config.pclDataType = 2
  · have hshift := shift_of_decodesRight hright (.inl rfl)
    have hdigit : ∀ {a b : Int32}, ((a.toInt : ℤ) : K) / (1000 : K) = (b.toInt : K) / 1000 →
        a.toInt = b.toInt := fun h => by
      exact_mod_cast (div_left_inj' (by norm_num)).mp h
    unfold lidarParam at hshift
    rw [if_pos hlow] at hshift
    exact ⟨eq_zero_of_div_ten (hdigit (hshift 0)), eq_zero_of_div_ten (hdigit (hshift 1)),
      eq_zero_of_div_ten (hdigit (hshift 2))⟩
  · have hshift := shift_of_decodesRight hright (.inr rfl)
    have hdigit : ∀ {a : Int32}, ((a.toInt : ℤ) : K) / (100 : K) = (a.toInt : K) / 1000 →
        a = 0 := fun {a} h => by
      have hzero : ((a.toInt : ℤ) : K) = 0 := by
        field_simp at h
        linear_combination h / 900
      exact Int32.toInt_inj.mp (by exact_mod_cast hzero)
    unfold lidarParam at hshift
    rw [if_neg hlow] at hshift
    exact ⟨hdigit (hshift 0), hdigit (hshift 1), hdigit (hshift 2)⟩

omit [CharZero K] in
lemma decodesRight_of_zero (hx : config.extrinsicParam.x = 0) (hy : config.extrinsicParam.y = 0)
    (hz : config.extrinsicParam.z = 0) : config.DecodesRight T := by
  have hzero : ∀ k, config.extrinsicParam.translation k = 0 := fun k => by
    unfold ExtParameter.translation
    rw [hx, hy, hz]
    fin_cases k <;> exact Int.cast_zero
  have hparam : ∀ k, config.lidarParam.translation k = 0 := fun k => by
    unfold lidarParam
    split_ifs
    · unfold ExtParameter.translation
      rw [hx, hy, hz]
      fin_cases k <;> exact Int.cast_zero
    · exact hzero k
  refine decodesRight_iff_shift.mpr fun _ _ _ _ pkt _ _ _ _ k => ?_
  rw [hzero, hparam, zero_div, zero_div]

/-- **The decoders agree** on where the points are exactly when there is nothing to add. -/
theorem decodesRight_iff (T : Trigonometry K) (config : UserLivoxLidarConfig K) :
    config.DecodesRight T ↔ config.extrinsicParam.x = 0 ∧ config.extrinsicParam.y = 0 ∧
      config.extrinsicParam.z = 0 :=
  ⟨translation_eq_zero, fun h => decodesRight_of_zero h.1 h.2.1 h.2.2⟩

/-- The trigonometry of the real numbers. -/
noncomputable def realTrigonometry : Trigonometry ℝ := ⟨Real.sin, Real.cos, Real.pi⟩

/-- A lidar that is turned and not moved. -/
def turned : UserLivoxLidarConfig ℝ := ⟨1, ⟨30, 0, 90, 0, 0, 0⟩⟩

/-- Its points are turned as they should be. -/
theorem turned_decodesRight : turned.DecodesRight realTrigonometry :=
  (decodesRight_iff realTrigonometry turned).mpr ⟨rfl, rfl, rfl⟩

/-- A lidar one metre in front, which sends millimetres. -/
def inFront : UserLivoxLidarConfig ℝ := ⟨1, ⟨0, 0, 0, 1000, 0, 0⟩⟩

/-- The metre is lost: the translation decoded is zero. -/
theorem inFront_not_decodesRight : ¬inFront.DecodesRight realTrigonometry :=
  fun h => absurd (translation_eq_zero h).1 (by decide)

end UserLivoxLidarConfig

end FastLivo2
