import FastLivo2.VisualUpdate

/-!
# The pixels an update reads

`updateState` interpolates the image at every pixel of a patch and at its four neighbours, all on
the grid of every `scale`-th pixel.  `updateReads` lists the pixels it reads for one projection, by
row and column; they are the ones a row of the update depends on (`photoRow_congr`).

The border that `isInFrame` keeps is that of the scale `2 ^ patch_pyrimid_level`, while the scale of
a read is `2 ^ (level + search_level)`, up to twice as much.  Besides, `isInFrame` is asked about
the double coordinate, and the pixels are chosen by the coordinate narrowed to `float`, which can
be rounded up to the border.
-/

namespace FastLivo2

/-! ## Reads -/

/-- A pixel: its row and its column. -/
abbrev Pixel := ℤ × ℤ

/-- The place of a pixel in the buffer. -/
def Pixel.offset (width : ℕ) (p : Pixel) : ℤ := p.1 * width + p.2

/-- The pixel lies in the image. -/
def Camera.HasPixel (cam : Camera) (p : Pixel) : Prop :=
  (0 ≤ p.1 ∧ p.1 < cam.height) ∧ 0 ≤ p.2 ∧ p.2 < cam.width

instance (cam : Camera) (p : Pixel) : Decidable (cam.HasPixel p) :=
  inferInstanceAs (Decidable ((_ ∧ _) ∧ _ ∧ _))

/-- The four pixels of an interpolation. -/
def quad (scale : ℤ) (p : Pixel) : List Pixel :=
  [p, (p.1, p.2 + scale), (p.1 + scale, p.2), (p.1 + scale, p.2 + scale)]

namespace Bilinear

/-- The pixel `img_ptr` points to. -/
def patchPixel (b : Bilinear) (half scale x y : ℕ) : Pixel :=
  (b.v + x * scale - half * scale, b.u - half * scale + y * scale)

/-- The pixels of `cur_value`, `du` and `dv` at one pixel of the patch. -/
def pixelReads (b : Bilinear) (half scale x y : ℕ) : List Pixel :=
  let p := b.patchPixel half scale x y
  quad scale p ++ quad scale (p.1, p.2 + scale) ++ quad scale (p.1, p.2 - scale) ++
    quad scale (p.1 + scale, p.2) ++ quad scale (p.1 - scale, p.2)

lemma ptr_eq_offset (b : Bilinear) (width half scale x y : ℕ) :
    b.ptr width half scale x y = (b.patchPixel half scale x y).offset width := by
  unfold ptr patchPixel Pixel.offset
  ring

/-- An interpolation depends on its four pixels. -/
lemma value_congr (b : Bilinear) {img img' : Mat} {width scale : ℕ} {p : Pixel}
    (h : ∀ q ∈ quad scale p, img.byte (q.offset width) = img'.byte (q.offset width)) :
    b.value img width scale (p.offset width) = b.value img' width scale (p.offset width) := by
  have hright : p.offset width + scale = Pixel.offset width (p.1, p.2 + scale) := by
    unfold Pixel.offset
    ring
  have hbelow : p.offset width + scale * width = Pixel.offset width (p.1 + scale, p.2) := by
    unfold Pixel.offset
    ring
  have hcorner : p.offset width + scale * width + scale =
      Pixel.offset width (p.1 + scale, p.2 + scale) := by
    unfold Pixel.offset
    ring
  unfold value
  rw [hcorner, hright, hbelow, h p (by simp [quad]), h (p.1, p.2 + scale) (by simp [quad]),
    h (p.1 + scale, p.2) (by simp [quad]), h (p.1 + scale, p.2 + scale) (by simp [quad])]

/-- The value and the two differences at a pixel of the patch depend on its reads. -/
lemma reads_congr (b : Bilinear) {img img' : Mat} {width half scale x y : ℕ}
    (h : ∀ q ∈ b.pixelReads half scale x y,
      img.byte (q.offset width) = img'.byte (q.offset width)) :
    let ptr := b.ptr width half scale x y
    b.value img width scale ptr = b.value img' width scale ptr ∧
      b.du img width scale ptr = b.du img' width scale ptr ∧
      b.dv img width scale ptr = b.dv img' width scale ptr := by
  intro ptr
  let p := b.patchPixel half scale x y
  have hptr : ptr = p.offset width := b.ptr_eq_offset width half scale x y
  have hright : p.offset width + scale = Pixel.offset width (p.1, p.2 + scale) := by
    unfold Pixel.offset
    ring
  have hleft : p.offset width - scale = Pixel.offset width (p.1, p.2 - scale) := by
    unfold Pixel.offset
    ring
  have hbelow : p.offset width + scale * width = Pixel.offset width (p.1 + scale, p.2) := by
    unfold Pixel.offset
    ring
  have habove : p.offset width - scale * width = Pixel.offset width (p.1 - scale, p.2) := by
    unfold Pixel.offset
    ring
  simp only [pixelReads, List.forall_mem_append] at h
  obtain ⟨⟨⟨⟨hp, hr⟩, hl⟩, hb⟩, ha⟩ := h
  unfold du dv
  rw [hptr, hright, hleft, hbelow, habove]
  exact ⟨b.value_congr hp, by rw [b.value_congr hr, b.value_congr hl],
    by rw [b.value_congr hb, b.value_congr ha]⟩

end Bilinear

/-- The pixels `updateState` reads for a projection at a scale. -/
def VioConfig.updateReads (cfg : VioConfig) (pc : V2D) (scale : ℕ) : List Pixel :=
  (List.range cfg.patchSize).flatMap fun x => (List.range cfg.patchSize).flatMap fun y =>
    (bilinear pc scale).pixelReads cfg.patchSizeHalf scale x y

lemma VioConfig.mem_updateReads {cfg : VioConfig} {pc : V2D} {scale : ℕ} {p : Pixel} :
    p ∈ cfg.updateReads pc scale ↔ ∃ x < cfg.patchSize, ∃ y < cfg.patchSize,
      p ∈ (bilinear pc scale).pixelReads cfg.patchSizeHalf scale x y := by
  simp [updateReads]

/-- **A row of the update depends on these pixels only.** -/
theorem photoRow_congr (L : VioLibs) (cfg : VioConfig) {img img' : Mat} (level : ℕ)
    (s : StatesGroup) (pt : SubPoint) {x y : ℕ} (hx : x < cfg.patchSize) (hy : y < cfg.patchSize)
    (h : ∀ p ∈ cfg.updateReads (L.cam.world2cam (pointF cfg s pt.pos))
      (2 ^ (level + pt.searchLevel)),
      img.byte (p.offset L.cam.width) = img'.byte (p.offset L.cam.width)) :
    photoRow L cfg img level s pt x y = photoRow L cfg img' level s pt x y := by
  obtain ⟨hvalue, hdu, hdv⟩ := Bilinear.reads_congr _ fun p hp =>
    h p (VioConfig.mem_updateReads.mpr ⟨x, hx, y, hy, hp⟩)
  unfold photoRow
  dsimp only
  rw [hvalue, hdu, hdv]

/-! ## How far they reach -/

namespace Bilinear

/-- The reads at a pixel of the patch: from one pixel of the grid before it to two after. -/
lemma pixelReads_bounds (b : Bilinear) {half scale x y : ℕ} {p : Pixel}
    (h : p ∈ b.pixelReads half scale x y) :
    (b.v + x * scale - half * scale - scale ≤ p.1 ∧
        p.1 ≤ b.v + x * scale - half * scale + 2 * scale) ∧
      b.u - half * scale + y * scale - scale ≤ p.2 ∧
        p.2 ≤ b.u - half * scale + y * scale + 2 * scale := by
  simp only [pixelReads, quad, patchPixel, List.mem_append, List.mem_cons, List.not_mem_nil,
    or_false] at h
  rcases h with ((((h | h | h | h) | h | h | h | h) | h | h | h | h) | h | h | h | h) |
    h | h | h | h <;> (subst h; refine ⟨⟨?_, ?_⟩, ?_, ?_⟩ <;> dsimp only <;> omega)

/-- The bounds are attained. -/
lemma mem_pixelReads_extremes (b : Bilinear) (half scale x y : ℕ) :
    let p := b.patchPixel half scale x y
    ((p.1 - scale, p.2) ∈ b.pixelReads half scale x y ∧
        (p.1, p.2 - scale) ∈ b.pixelReads half scale x y) ∧
      (p.1 + scale + scale, p.2) ∈ b.pixelReads half scale x y ∧
        (p.1, p.2 + scale + scale) ∈ b.pixelReads half scale x y := by
  intro p
  unfold pixelReads quad
  refine ⟨⟨?_, ?_⟩, ?_, ?_⟩ <;> simp [p]

end Bilinear

/-- The reads along one axis stay in the image: `half + 1` pixels of the grid on either side of the
one the interpolation starts from. -/
def ReachFits (half scale : ℕ) (base : ℤ) (size : ℕ) : Prop :=
  (half + 1) * scale ≤ base ∧ base + (half + 1) * scale < size

/-- A pixel of an even patch lies at most half of it before the middle, and less after. -/
lemma patch_bounds {half x : ℕ} (scale : ℕ) (hx : x < 2 * half) :
    0 ≤ (x : ℤ) * scale ∧ (x : ℤ) * scale + scale ≤ 2 * (half * scale) := by
  have hstep : ((x : ℤ) + 1) * scale ≤ 2 * half * scale := by
    exact mul_le_mul_of_nonneg_right (by omega) (Int.natCast_nonneg scale)
  refine ⟨by positivity, ?_⟩
  linarith

/-- **The reads of an even patch** stay in the image exactly when they do along each axis. -/
theorem hasPixel_updateReads_iff {cfg : VioConfig} {cam : Camera} {pc : V2D} {scale : ℕ}
    (heven : cfg.patchSize = 2 * cfg.patchSizeHalf) (hpos : 0 < cfg.patchSizeHalf) :
    (∀ p ∈ cfg.updateReads pc scale, cam.HasPixel p) ↔
      ReachFits cfg.patchSizeHalf scale (bilinear pc scale).v cam.height ∧
        ReachFits cfg.patchSizeHalf scale (bilinear pc scale).u cam.width := by
  have hreach : ((cfg.patchSizeHalf : ℤ) + 1) * scale = cfg.patchSizeHalf * scale + scale := by
    ring
  unfold ReachFits
  rw [hreach]
  constructor
  · intro h
    have hfirst : ∀ p ∈ (bilinear pc scale).pixelReads cfg.patchSizeHalf scale 0 0,
        cam.HasPixel p :=
      fun p hp => h p (VioConfig.mem_updateReads.mpr ⟨0, by omega, 0, by omega, hp⟩)
    have hlast : ∀ p ∈ (bilinear pc scale).pixelReads cfg.patchSizeHalf scale
        (cfg.patchSize - 1) (cfg.patchSize - 1), cam.HasPixel p :=
      fun p hp => h p (VioConfig.mem_updateReads.mpr ⟨_, by omega, _, by omega, hp⟩)
    have hcorner : ((cfg.patchSize - 1 : ℕ) : ℤ) * scale =
        2 * (cfg.patchSizeHalf * scale) - scale := by
      rw [heven, Nat.cast_sub (by omega)]
      push_cast
      ring
    obtain ⟨⟨habove, hleft⟩, -⟩ :=
      (bilinear pc scale).mem_pixelReads_extremes cfg.patchSizeHalf scale 0 0
    obtain ⟨-, hbelow, hright⟩ := (bilinear pc scale).mem_pixelReads_extremes cfg.patchSizeHalf
      scale (cfg.patchSize - 1) (cfg.patchSize - 1)
    have htop : 0 ≤ (bilinear pc scale).v + (0 : ℕ) * scale - cfg.patchSizeHalf * scale - scale :=
      (hfirst _ habove).1.1
    have hfirstCol :
        0 ≤ (bilinear pc scale).u - cfg.patchSizeHalf * scale + (0 : ℕ) * scale - scale :=
      (hfirst _ hleft).2.1
    have hbottom : (bilinear pc scale).v + (cfg.patchSize - 1 : ℕ) * scale -
        cfg.patchSizeHalf * scale + scale + scale < cam.height := (hlast _ hbelow).1.2
    have hlastCol : (bilinear pc scale).u - cfg.patchSizeHalf * scale +
        (cfg.patchSize - 1 : ℕ) * scale + scale + scale < cam.width := (hlast _ hright).2.2
    rw [Nat.cast_zero, zero_mul] at htop hfirstCol
    rw [hcorner] at hbottom hlastCol
    refine ⟨⟨?_, ?_⟩, ?_, ?_⟩ <;> linarith
  · rintro ⟨⟨hv, hv'⟩, hu, hu'⟩ p hp
    obtain ⟨x, hx, y, hy, hp⟩ := VioConfig.mem_updateReads.mp hp
    obtain ⟨⟨hrow, hrow'⟩, hcol, hcol'⟩ := Bilinear.pixelReads_bounds _ hp
    have hxs := patch_bounds scale (heven ▸ hx)
    have hys := patch_bounds scale (heven ▸ hy)
    refine ⟨⟨?_, ?_⟩, ?_, ?_⟩ <;> linarith [hxs.1, hxs.2, hys.1, hys.2]

/-! ## The border -/

/-- The search level grows to the maximum at most. -/
lemma searchLevelFrom_le (left : ℕ) : ∀ (D : ℚ) (searchLevel : ℕ),
    searchLevelFrom D searchLevel left ≤ searchLevel + left := by
  induction left with
  | zero => exact fun D searchLevel => le_rfl
  | succ left ih =>
      intro D searchLevel
      unfold searchLevelFrom
      split_ifs
      · exact (ih _ _).trans (by omega)
      · omega

lemma getBestSearchLevel_le (ACurRef : M2D) (maxLevel : ℕ) :
    getBestSearchLevel ACurRef maxLevel ≤ maxLevel := by
  have h := searchLevelFrom_le maxLevel
    (ACurRef 0 0 * ACurRef 1 1 - ACurRef 0 1 * ACurRef 1 0) 0
  rwa [zero_add] at h

/-- The pixel of a coordinate narrowed to `float`. -/
def narrowed (x : ℚ) : ℤ := ⌊toFloat x⌋

/-- The reads on the scale `2 ^ k` stay in the image along one axis: the reach of a patch lies below
the pixel, and above what is left of it on that scale. -/
def FitsOn (cfg : VioConfig) (k : ℕ) (t : ℤ) (size : ℕ) : Prop :=
  ((cfg.patchSizeHalf : ℤ) + 1) * 2 ^ k ≤ t ∧
    t / 2 ^ k * 2 ^ k + ((cfg.patchSizeHalf : ℤ) + 1) * 2 ^ k < size

instance (cfg : VioConfig) (k : ℕ) (t : ℤ) (size : ℕ) : Decidable (FitsOn cfg k t size) :=
  inferInstanceAs (Decidable (_ ∧ _))

/-- On twice the scale of the border: the pixel is two borders from the first, and what is left of
it on that scale two borders from the last. -/
def FitsTwice (cfg : VioConfig) (t : ℤ) (size : ℕ) : Prop :=
  2 * cfg.border ≤ t ∧
    t / 2 ^ (cfg.patchPyrimidLevel + 1) * 2 ^ (cfg.patchPyrimidLevel + 1) + 2 * cfg.border < size

/-- The pixel has been rounded up to the border at the end of the axis, and lies on the scale of the
border. -/
def AtBorder (cfg : VioConfig) (t : ℤ) (size : ℕ) : Prop :=
  t = size - cfg.border ∧ 2 ^ cfg.patchPyrimidLevel ∣ t

instance (cfg : VioConfig) (t : ℤ) (size : ℕ) : Decidable (FitsTwice cfg t size) :=
  inferInstanceAs (Decidable (_ ∧ _))

instance (cfg : VioConfig) (t : ℤ) (size : ℕ) : Decidable (AtBorder cfg t size) :=
  inferInstanceAs (Decidable (_ ∧ _))

lemma border_pos (cfg : VioConfig) : 0 < cfg.border := by
  unfold VioConfig.border
  positivity

/-- The pixel an interpolation starts from. -/
lemma floor_toFloat_div {x : ℚ} (hx : 0 ≤ x) (k : ℕ) :
    ⌊toFloat (x / (2 ^ k : ℕ))⌋ = narrowed x / 2 ^ k := by
  have hshift := toPrecision_mul_zpow 24 hx (-k)
  rw [zpow_neg, zpow_natCast, ← div_eq_mul_inv, ← div_eq_mul_inv] at hshift
  have hcast : (((2 ^ k : ℕ) : ℕ) : ℚ) = 2 ^ k := by push_cast; rfl
  rw [hcast, toFloat, hshift, ← hcast, Int.floor_div_natCast, narrowed]
  push_cast
  rfl

/-- Along one axis, whether the reach fits is told from the narrowed pixel. -/
lemma reachFits_iff {cfg : VioConfig} {x : ℚ} (size k : ℕ) (hx : 0 ≤ x) :
    ReachFits cfg.patchSizeHalf (2 ^ k) (⌊toFloat (x / (2 ^ k : ℕ))⌋ * (2 ^ k : ℕ)) size ↔
      FitsOn cfg k (narrowed x) size := by
  rw [floor_toFloat_div hx]
  generalize narrowed x = t
  have hscale : (0 : ℤ) < 2 ^ k := by positivity
  -- A multiple of the scale below `t` is below what is left of `t` on that scale.
  have hfloor : ∀ m : ℤ, m * 2 ^ k ≤ t / 2 ^ k * 2 ^ k ↔ m * 2 ^ k ≤ t := by
    intro m
    rw [mul_le_mul_iff_left₀ hscale, Int.le_ediv_iff_mul_le hscale]
  unfold ReachFits FitsOn
  push_cast
  rw [hfloor]

/-! ## In an image of ordinary size -/

lemma toFloat_natCast {n : ℕ} (hn : n ≤ 2 ^ 24) : toFloat n = n := by
  rcases hn.lt_or_eq with hlt | rfl
  · simpa using toPrecision_of_digits (p := 24) hlt 0
  · have hone := toPrecision_of_digits (p := 24) (m := 1) (by norm_num) 24
    rw [Nat.cast_one, one_mul, zpow_ofNat] at hone
    push_cast
    exact hone

/-- Narrowing a coordinate of an ordinary image keeps its pixel or goes on to the next. -/
lemma narrowed_cases {x : ℚ} (hpos : 0 < truncInt x) (hlt : truncInt x < 2 ^ 24) :
    narrowed x = truncInt x ∨ narrowed x = truncInt x + 1 := by
  obtain ⟨hx, hfloor⟩ := truncInt_eq_floor hpos
  rw [hfloor] at hpos hlt ⊢
  obtain ⟨n, hn⟩ := Int.eq_ofNat_of_zero_le hpos.le
  have hmono : Monotone toFloat := toPrecision_mono (by norm_num)
  have hlow : (n : ℚ) ≤ toFloat x := by
    rw [← toFloat_natCast (n := n) (by omega)]
    refine hmono ?_
    have hle := Int.floor_le x
    rw [hn] at hle
    exact_mod_cast hle
  have hhigh : toFloat x ≤ ((n + 1 : ℕ) : ℚ) := by
    rw [← toFloat_natCast (n := n + 1) (by omega)]
    refine hmono ?_
    have hlt := Int.lt_floor_add_one x
    rw [hn] at hlt
    push_cast at hlt ⊢
    exact hlt.le
  have hle : (n : ℤ) ≤ narrowed x := Int.le_floor.mpr (by exact_mod_cast hlow)
  have hge : narrowed x ≤ n + 1 := by
    have hfloor' := Int.floor_mono hhigh
    rw [Int.floor_natCast] at hfloor'
    exact_mod_cast hfloor'
  rw [hn]
  omega

/-- Along one axis of an ordinary image, for a coordinate the frame check accepts: on a finer scale
than the border's the reads fit, on the border's unless the coordinate is rounded up to it. -/
lemma fitsOn_iff {cfg : VioConfig} {x : ℚ} {size k : ℕ} (hsize : size ≤ 2 ^ 24)
    (hlow : cfg.border ≤ truncInt x) (hhigh : truncInt x < size - cfg.border)
    (hk : k ≤ cfg.patchPyrimidLevel + 1) :
    FitsOn cfg k (narrowed x) size ↔
      (k = cfg.patchPyrimidLevel + 1 → FitsTwice cfg (narrowed x) size) ∧
        (k = cfg.patchPyrimidLevel → ¬AtBorder cfg (narrowed x) size) := by
  have hborder := border_pos cfg
  have hcases := narrowed_cases (x := x) (by omega) (by omega)
  generalize narrowed x = t at *
  have hdown : ∀ j : ℕ, t / 2 ^ j * 2 ^ j ≤ t := fun j => Int.ediv_mul_le t (by positivity)
  unfold FitsOn
  rcases Nat.lt_trichotomy k cfg.patchPyrimidLevel with hfine | rfl | hcoarse
  · -- finer than the border: at most half of it
    obtain ⟨j, hj⟩ : ∃ j, cfg.patchPyrimidLevel = k + j + 1 :=
      ⟨cfg.patchPyrimidLevel - k - 1, by omega⟩
    have hreach : ((cfg.patchSizeHalf : ℤ) + 1) * 2 ^ k < cfg.border := by
      unfold VioConfig.border
      have hpow : (2 : ℤ) ^ k < 2 ^ cfg.patchPyrimidLevel :=
        pow_lt_pow_right₀ (by norm_num) hfine
      exact mul_lt_mul_of_pos_left hpow (by positivity)
    have hle := hdown k
    exact iff_of_true ⟨by omega, by omega⟩ ⟨fun h => by omega, fun h => by omega⟩
  · -- on the scale of the border
    have hreach : ((cfg.patchSizeHalf : ℤ) + 1) * 2 ^ cfg.patchPyrimidLevel = cfg.border := rfl
    rw [hreach]
    have hle := hdown cfg.patchPyrimidLevel
    refine ⟨fun h => ⟨fun heq => by omega, fun _ hat => ?_⟩, fun h => ⟨by omega, ?_⟩⟩
    · rw [Int.ediv_mul_cancel hat.2] at h
      have hend := hat.1
      omega
    · by_contra hout
      refine h.2 rfl ⟨by omega, ?_⟩
      exact ⟨t / 2 ^ cfg.patchPyrimidLevel, by rw [mul_comm]; omega⟩
  · obtain rfl : k = cfg.patchPyrimidLevel + 1 := by omega
    have hreach : ((cfg.patchSizeHalf : ℤ) + 1) * 2 ^ (cfg.patchPyrimidLevel + 1) =
        2 * cfg.border := by
      unfold VioConfig.border
      ring
    rw [hreach]
    exact ⟨fun h => ⟨fun _ => h, fun heq => by omega⟩, fun h => h.1 rfl⟩

/-- **The border and the reads.**  For an even patch and a projection the frame check accepts, every
pixel read lies in the image exactly when the patch is empty, or along both axes the reach of the
patch on the scale of the read fits around the pixel of the coordinate narrowed to `float`.  In an
image of at most `2 ^ 24` pixels a side that is: on twice the scale of the border the pixel keeps
two borders, and on the scale of the border it is not rounded up to the border. -/
theorem border_sufficient_iff {cfg : VioConfig} {cam : Camera} {pc : V2D} {level : ℕ}
    (ACurRef : M2D) (heven : Even cfg.patchSize) (hlevel : level < cfg.patchPyrimidLevel)
    (hframe : cam.isInFrame (castInt pc) cfg.border = true) :
    let k := level + getBestSearchLevel ACurRef 2
    ((∀ p ∈ cfg.updateReads pc (2 ^ k), cam.HasPixel p) ↔ cfg.patchSize = 0 ∨
      (FitsOn cfg k (narrowed (pc 1)) cam.height ∧ FitsOn cfg k (narrowed (pc 0)) cam.width)) ∧
    (cam.height ≤ 2 ^ 24 → cam.width ≤ 2 ^ 24 →
      ((∀ p ∈ cfg.updateReads pc (2 ^ k), cam.HasPixel p) ↔ cfg.patchSize = 0 ∨
        ((k = cfg.patchPyrimidLevel + 1 → FitsTwice cfg (narrowed (pc 1)) cam.height ∧
            FitsTwice cfg (narrowed (pc 0)) cam.width) ∧
          (k = cfg.patchPyrimidLevel → ¬AtBorder cfg (narrowed (pc 1)) cam.height ∧
            ¬AtBorder cfg (narrowed (pc 0)) cam.width)))) := by
  intro k
  have hk : k ≤ cfg.patchPyrimidLevel + 1 := by
    have hsearch := getBestSearchLevel_le ACurRef 2
    omega
  clear_value k
  obtain ⟨hu, hu', hv, hv'⟩ := of_decide_eq_true hframe
  have hborder := border_pos cfg
  have hhalf : cfg.patchSize = 2 * cfg.patchSizeHalf := by
    obtain ⟨r, hr⟩ := heven
    unfold VioConfig.patchSizeHalf
    omega
  have hexact : (∀ p ∈ cfg.updateReads pc (2 ^ k), cam.HasPixel p) ↔ cfg.patchSize = 0 ∨
      (FitsOn cfg k (narrowed (pc 1)) cam.height ∧ FitsOn cfg k (narrowed (pc 0)) cam.width) := by
    rcases Nat.eq_zero_or_pos cfg.patchSizeHalf with hzero | hpos
    · refine iff_of_true (fun p hp => ?_) (.inl (by omega))
      obtain ⟨x, hx, -⟩ := VioConfig.mem_updateReads.mp hp
      omega
    · have hnonneg : ∀ j, cfg.border ≤ castInt pc j → 0 ≤ pc j := fun j hj =>
        (truncInt_eq_floor (x := pc j) (hborder.trans_le hj)).1
      rw [hasPixel_updateReads_iff hhalf hpos, or_iff_right (by omega)]
      exact and_congr (reachFits_iff cam.height k (hnonneg 1 hv))
        (reachFits_iff cam.width k (hnonneg 0 hu))
  refine ⟨hexact, fun hheight hwidth => hexact.trans (or_congr_right ?_)⟩
  rw [fitsOn_iff hheight hv hv' hk, fitsOn_iff hwidth hu hu' hk]
  constructor
  · rintro ⟨hrow, hcol⟩
    exact ⟨fun h => ⟨hrow.1 h, hcol.1 h⟩, fun h => ⟨hrow.2 h, hcol.2 h⟩⟩
  · rintro ⟨htwice, hat⟩
    exact ⟨⟨fun h => (htwice h).1, fun h => (hat h).1⟩, fun h => (htwice h).2, fun h => (hat h).2⟩

/-- A camera of 640 by 512 pixels. -/
def vgaCamera : Camera where
  width := 640
  height := 512
  fx := 400
  fy := 400
  world2cam := fun p => ![400 * p 0 / p 2 + 320, 400 * p 1 / p 2 + 256]
  cam2world := fun px => ![(px 0 - 320) / 400, (px 1 - 256) / 400, 1]

/-- In the middle of the image the coarsest reads fit. -/
theorem border_sufficient_iff_middle :
    vgaCamera.isInFrame (castInt ![320, 256]) (VioConfig.border {}) = true ∧
      ∀ p ∈ VioConfig.updateReads {} ![320, 256] (2 ^ (3 + getBestSearchLevel !![4, 0; 0, 4] 2)),
        vgaCamera.HasPixel p := by
  have hframe : vgaCamera.isInFrame (castInt ![320, 256]) (VioConfig.border {}) = true := by
    decide +kernel
  refine ⟨hframe, (border_sufficient_iff !![4, 0; 0, 4] (by decide) (by decide) hframe).1.mpr
    (.inr ?_)⟩
  decide +kernel

/-- **Reads outside the image**, with the default settings.  The coarsest level of a point seen four
times closer reads 96 rows above the first; and on the scale of the border a row that is rounded up
to 432 reads row 512. -/
theorem read_above_image :
    (vgaCamera.isInFrame (castInt ![80, 80]) (VioConfig.border {}) = true ∧
      getBestSearchLevel !![4, 0; 0, 4] 2 = 2 ∧
      ((-96, -64) : Pixel) ∈ VioConfig.updateReads {} ![80, 80] (2 ^ (3 + 2)) ∧
      ¬vgaCamera.HasPixel (-96, -64)) ∧
    vgaCamera.isInFrame (castInt ![320, 4319999999 / 10000000]) (VioConfig.border {}) = true ∧
      getBestSearchLevel !![2, 0; 0, 2] 2 = 1 ∧
      ((512, 320) : Pixel) ∈
        VioConfig.updateReads {} ![320, 4319999999 / 10000000] (2 ^ (3 + 1)) ∧
      ¬vgaCamera.HasPixel (512, 320) := by
  decide +kernel

end FastLivo2
