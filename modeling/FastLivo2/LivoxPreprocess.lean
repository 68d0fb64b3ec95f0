import FastLivo2.Common
import FastLivo2.Lib.Extended

/-!
# The times of a Livox scan

`avia_handler` of `preprocess.cpp`, with feature extraction off.  Each point of the message has a
slot in `pl_full`, and the time of a slot is repaired when it is a millisecond or more from the slot
before: it then follows that one by 0.004166667 ms.  The slot before may be that of a
skipped line, which keeps its default, or one that was itself repaired.

With offsets that do not decrease, a slot is never ahead of its own offset.  `Pace` keeps how far it
is behind, from the gaps of the message alone, and the points put out have their own times exactly
when each of them is in step (`avia_times_iff`).
-/

namespace FastLivo2

/-! ## The handler -/

/-- `PointType`, a `pcl::PointXYZINormal`, as the handlers of `preprocess.cpp` fill it. -/
structure PointXYZINormal where
  x : Extended ℚ := 0
  y : Extended ℚ := 0
  z : Extended ℚ := 0
  intensity : Extended ℚ := 0
  curvature : Extended ℚ := 0
  normalX : Extended ℚ := 0
  normalY : Extended ℚ := 0
  normalZ : Extended ℚ := 0
  deriving DecidableEq, Repr

/-- `livox_ros_driver2::msg::CustomPoint`, but for the tag. -/
structure CustomPoint where
  offsetTime : ℕ
  x : Extended ℚ := 0
  y : Extended ℚ := 0
  z : Extended ℚ := 0
  reflectivity : ℕ := 0
  line : ℕ := 0

/-- The squared range, as the handlers compute it. -/
def PointXYZINormal.sqRange (p : PointXYZINormal) : Extended ℚ :=
  Extended.sumSquares p.x p.y p.z

def CustomPoint.sqRange (p : CustomPoint) : Extended ℚ := Extended.sumSquares p.x p.y p.z

/-- The offset in milliseconds. -/
def CustomPoint.time (p : CustomPoint) : ℚ := p.offsetTime / 1000000

/-- `Preprocess`, as far as `avia_handler` reads it. -/
structure Preprocess where
  nScans : ℤ := 6
  pointFilterNum : ℕ := 1
  blindSqr : ℚ := 0

/-- The variables of the loop; `plFull` are the slots up to the point at hand. -/
structure AviaLoop where
  plFull : List PointXYZINormal := []
  validNum : ℕ := 0
  plSurf : List PointXYZINormal := []

/-- What the repair adds to the slot before. -/
def repairStep : ℚ := 4166667 / 1000000000

/-- `pl_full[i]`, with its curvature repaired against the slot before. -/
def fullPoint (prev : Option PointXYZINormal) (p : CustomPoint) : PointXYZINormal :=
  let time : Extended ℚ := p.time
  { x := p.x
    y := p.y
    z := p.z
    intensity := (p.reflectivity : ℚ)
    curvature := match prev with
      | none => if time.abs < 1 then time else 0
      | some q => if (time - q.curvature).abs < 1 then time else q.curvature + repairStep }

namespace Preprocess

variable (pre : Preprocess)

/-- The body of the loop. -/
def aviaPoint (s : AviaLoop) (p : CustomPoint) : AviaLoop :=
  if (p.line : ℤ) < pre.nScans then
    let validNum := s.validNum + 1
    let pt := fullPoint s.plFull.getLast? p
    { plFull := s.plFull ++ [pt]
      validNum := validNum
      plSurf :=
        if validNum % pre.pointFilterNum = 0 then
          if pre.blindSqr ≤ pt.sqRange then s.plSurf ++ [pt] else s.plSurf
        else s.plSurf }
  else { s with plFull := s.plFull ++ [{}] }

/-- `Preprocess::avia_handler`. -/
def aviaHandler (msg : List CustomPoint) : List PointXYZINormal :=
  (msg.foldl pre.aviaPoint {}).plSurf

/-! ## The points put out -/

/-- `valid_num` after a point. -/
def count (n : ℕ) (p : CustomPoint) : ℕ := if (p.line : ℤ) < pre.nScans then n + 1 else n

/-- The point is put out. -/
def Keeps (n : ℕ) (p : CustomPoint) : Prop :=
  (p.line : ℤ) < pre.nScans ∧ (n + 1) % pre.pointFilterNum = 0 ∧
    pre.blindSqr ≤ p.sqRange

instance (n : ℕ) (p : CustomPoint) : Decidable (pre.Keeps n p) :=
  inferInstanceAs (Decidable (_ ∧ _ ∧ _))

/-- The points of a message that are put out, after `n` valid ones. -/
def kept : ℕ → List CustomPoint → List CustomPoint
  | _, [] => []
  | n, p :: msg => (if pre.Keeps n p then [p] else []) ++ kept (pre.count n p) msg

/-- The slot of a point, a default one on a skipped line. -/
def slot (prev : Option PointXYZINormal) (p : CustomPoint) : PointXYZINormal :=
  if (p.line : ℤ) < pre.nScans then fullPoint prev p else {}

/-- The slots that are put out. -/
def surf : Option PointXYZINormal → ℕ → List CustomPoint → List PointXYZINormal
  | _, _, [] => []
  | prev, n, p :: msg =>
      (if pre.Keeps n p then [fullPoint prev p] else []) ++
        surf (some (pre.slot prev p)) (pre.count n p) msg

lemma aviaPoint_eq (s : AviaLoop) (p : CustomPoint) :
    pre.aviaPoint s p =
      { plFull := s.plFull ++ [pre.slot s.plFull.getLast? p]
        validNum := pre.count s.validNum p
        plSurf := s.plSurf ++
          if pre.Keeps s.validNum p then [fullPoint s.plFull.getLast? p] else [] } := by
  unfold aviaPoint slot count
  by_cases hline : (p.line : ℤ) < pre.nScans
  · have hsurf : (if (s.validNum + 1) % pre.pointFilterNum = 0 then
        if pre.blindSqr ≤ p.sqRange then s.plSurf ++ [fullPoint s.plFull.getLast? p]
        else s.plSurf
      else s.plSurf) =
        s.plSurf ++ if pre.Keeps s.validNum p then [fullPoint s.plFull.getLast? p] else [] := by
      by_cases hfilter : (s.validNum + 1) % pre.pointFilterNum = 0
      · rw [if_pos hfilter]
        by_cases hblind : pre.blindSqr ≤ p.sqRange
        · have hkeeps : pre.Keeps s.validNum p := ⟨hline, hfilter, hblind⟩
          rw [if_pos hblind, if_pos hkeeps]
        · have hkeeps : ¬pre.Keeps s.validNum p := fun h => hblind h.2.2
          rw [if_neg hblind, if_neg hkeeps, List.append_nil]
      · have hkeeps : ¬pre.Keeps s.validNum p := fun h => hfilter h.2.1
        rw [if_neg hfilter, if_neg hkeeps, List.append_nil]
    rw [if_pos hline, if_pos hline, if_pos hline, ← hsurf]
    rfl
  · have hkeeps : ¬pre.Keeps s.validNum p := fun h => hline h.1
    rw [if_neg hline, if_neg hline, if_neg hline, if_neg hkeeps, List.append_nil]

lemma plSurf_foldl : ∀ (msg : List CustomPoint) (s : AviaLoop),
    (msg.foldl pre.aviaPoint s).plSurf = s.plSurf ++ pre.surf s.plFull.getLast? s.validNum msg
  | [], s => (List.append_nil _).symm
  | p :: msg, s => by
      rw [List.foldl_cons, plSurf_foldl msg, aviaPoint_eq]
      dsimp only
      rw [List.getLast?_concat, List.append_assoc]
      rfl

/-- The handler puts out the slots of the points it keeps. -/
lemma aviaHandler_eq (msg : List CustomPoint) : pre.aviaHandler msg = pre.surf none 0 msg :=
  pre.plSurf_foldl msg {}

/-- A slot but for its time is its point. -/
theorem surf_forall₂ : ∀ (prev : Option PointXYZINormal) (n : ℕ) (msg : List CustomPoint),
    List.Forall₂ (fun (p : CustomPoint) (q : PointXYZINormal) =>
      q = { x := p.x, y := p.y, z := p.z, intensity := (p.reflectivity : ℚ),
            curvature := q.curvature })
      (pre.kept n msg) (pre.surf prev n msg)
  | _, _, [] => .nil
  | prev, n, p :: msg => by
      have hrest := surf_forall₂ (some (pre.slot prev p)) (pre.count n p) msg
      unfold kept surf
      by_cases hkeeps : pre.Keeps n p
      · rw [if_pos hkeeps, if_pos hkeeps]
        exact .cons rfl hrest
      · rw [if_neg hkeeps, if_neg hkeeps]
        exact hrest

/-! ## The pace of a message -/

end Preprocess

/-- The time of the last point of a message, and how far its slot is behind. -/
structure Pace where
  last : ℚ
  lag : ℚ

/-- How far a point is ahead of the slot before: the gap and the lag. -/
def Pace.ahead (prev : Option Pace) (p : CustomPoint) : ℚ :=
  match prev with
  | none => p.time
  | some b => p.time - b.last + b.lag

namespace Preprocess

variable (pre : Preprocess)

/-- The pace after a point.  A skipped line lags by its whole offset; a point a millisecond ahead
lags on, less what the repair adds, and the first one lags by its whole offset. -/
def pace (prev : Option Pace) (p : CustomPoint) : Pace where
  last := p.time
  lag :=
    if (p.line : ℤ) < pre.nScans then
      if Pace.ahead prev p < 1 then 0
      else match prev with
        | none => p.time
        | some _ => Pace.ahead prev p - repairStep
    else p.time

/-- Every point that is put out is less than a millisecond ahead. -/
def InStep : Option Pace → ℕ → List CustomPoint → Prop
  | _, _, [] => True
  | prev, n, p :: msg => (pre.Keeps n p → Pace.ahead prev p < 1) ∧
      InStep (some (pre.pace prev p)) (pre.count n p) msg

instance decidableInStep : ∀ (prev : Option Pace) (n : ℕ) (msg : List CustomPoint),
    Decidable (pre.InStep prev n msg)
  | _, _, [] => inferInstanceAs (Decidable True)
  | prev, n, p :: msg =>
      have := decidableInStep (some (pre.pace prev p)) (pre.count n p) msg
      inferInstanceAs (Decidable (_ ∧ _))

end Preprocess

/-- The pace and the slot of the last point agree, and the slot is not ahead. -/
def Tracks : Option PointXYZINormal → Option Pace → Prop
  | none, none => True
  | some q, some b => q.curvature = .num (b.last - b.lag) ∧ 0 ≤ b.lag
  | _, _ => False

/-- A point that is not before the last. -/
def NotBefore (prev : Option Pace) (p : CustomPoint) : Prop := ∀ b ∈ prev, b.last ≤ p.time

lemma CustomPoint.time_nonneg (p : CustomPoint) : 0 ≤ p.time := by
  unfold time
  positivity

lemma CustomPoint.time_le_time {p q : CustomPoint} (h : p.offsetTime ≤ q.offsetTime) :
    p.time ≤ q.time := by
  unfold time
  have hcast : (p.offsetTime : ℚ) ≤ q.offsetTime := by exact_mod_cast h
  linarith

section

variable {prev : Option PointXYZINormal} {b : Option Pace} {p : CustomPoint}

lemma ahead_nonneg (h : Tracks prev b) (hp : NotBefore b p) : 0 ≤ Pace.ahead b p := by
  unfold Pace.ahead
  match prev, b, h with
  | none, none, _ => exact p.time_nonneg
  | some _, some b, ⟨_, hlag⟩ =>
      have hle := hp b rfl
      dsimp only
      linarith

/-- A point is repaired when it is a millisecond ahead. -/
lemma fullPoint_curvature (h : Tracks prev b) (hp : NotBefore b p) :
    (fullPoint prev p).curvature = .num (
      if Pace.ahead b p < 1 then p.time
      else match b with
        | none => 0
        | some b => b.last - b.lag + repairStep) := by
  have hnonneg := ahead_nonneg h hp
  unfold fullPoint Pace.ahead at *
  match prev, b, h with
  | none, none, _ =>
      dsimp only at hnonneg ⊢
      rw [Extended.num_abs, abs_of_nonneg hnonneg, apply_ite Extended.num]
      exact if_congr Extended.num_lt rfl rfl
  | some q, some b, ⟨hq, hlag⟩ =>
      dsimp only at hnonneg ⊢
      have hgap : p.time - (b.last - b.lag) = p.time - b.last + b.lag := by ring
      rw [hq, Extended.num_sub, hgap, Extended.num_abs, abs_of_nonneg hnonneg, Extended.num_add,
        apply_ite Extended.num]
      exact if_congr Extended.num_lt rfl rfl

/-- A point has its own time exactly when it is in step. -/
lemma fullPoint_curvature_eq_iff (h : Tracks prev b) (hp : NotBefore b p) :
    (fullPoint prev p).curvature = .num p.time ↔ Pace.ahead b p < 1 := by
  rw [fullPoint_curvature h hp, Extended.num.injEq]
  split_ifs with hstep
  · exact ⟨fun _ => hstep, fun _ => rfl⟩
  · refine ⟨fun heq => ?_, fun hlt => absurd hlt hstep⟩
    unfold Pace.ahead at hstep
    unfold repairStep at heq
    match b with
    | none =>
        dsimp only at heq hstep
        linarith
    | some b =>
        dsimp only at heq hstep
        linarith

lemma tracks_slot (pre : Preprocess) (h : Tracks prev b) (hp : NotBefore b p) :
    Tracks (some (pre.slot prev p)) (some (pre.pace b p)) := by
  have hnonneg := ahead_nonneg h hp
  have htime := p.time_nonneg
  unfold Preprocess.slot Preprocess.pace
  by_cases hline : (p.line : ℤ) < pre.nScans
  · rw [if_pos hline, if_pos hline]
    refine ⟨?_, ?_⟩
    · rw [fullPoint_curvature h hp]
      refine congrArg Extended.num ?_
      dsimp only
      by_cases hstep : Pace.ahead b p < 1
      · rw [if_pos hstep, if_pos hstep, sub_zero]
      · rw [if_neg hstep, if_neg hstep]
        match b with
        | none =>
            dsimp only
            ring
        | some b =>
            unfold Pace.ahead
            dsimp only
            ring
    · dsimp only
      by_cases hstep : Pace.ahead b p < 1
      · rw [if_pos hstep]
      · rw [if_neg hstep]
        match b with
        | none => exact htime
        | some b =>
            have hone := not_lt.mp hstep
            unfold repairStep
            dsimp only
            linarith
  · rw [if_neg hline, if_neg hline]
    exact ⟨congrArg Extended.num (sub_self _).symm, htime⟩

end

namespace Preprocess

variable (pre : Preprocess)

/-- The slots put out have the times of their points exactly when these are in step. -/
lemma surf_times_iff : ∀ {prev : Option PointXYZINormal} {b : Option Pace} {n : ℕ}
    {msg : List CustomPoint}, Tracks prev b → (∀ p ∈ msg, NotBefore b p) →
    msg.Pairwise (fun p q => p.offsetTime ≤ q.offsetTime) →
    ((pre.surf prev n msg).map PointXYZINormal.curvature =
        (pre.kept n msg).map (fun p => .num p.time) ↔ pre.InStep b n msg)
  | prev, b, n, [], _, _, _ => ⟨fun _ => trivial, fun _ => rfl⟩
  | prev, b, n, p :: msg, h, hafter, hsorted => by
      obtain ⟨hp, hmsg⟩ := List.forall_mem_cons.mp hafter
      obtain ⟨hle, hsorted⟩ := List.pairwise_cons.mp hsorted
      have hnext : ∀ q ∈ msg, NotBefore (some (pre.pace b p)) q := by
        intro q hq c hc
        obtain rfl := Option.some.inj hc
        exact CustomPoint.time_le_time (hle q hq)
      have hrest := surf_times_iff (n := pre.count n p) (tracks_slot pre h hp) hnext hsorted
      unfold surf kept InStep
      rw [← hrest, List.map_append, List.map_append]
      by_cases hkeeps : pre.Keeps n p
      · rw [if_pos hkeeps, if_pos hkeeps]
        show _ :: _ = _ :: _ ↔ _
        rw [List.cons_eq_cons, fullPoint_curvature_eq_iff h hp]
        exact and_congr_left fun _ => ⟨fun hstep _ => hstep, fun hstep => hstep hkeeps⟩
      · rw [if_neg hkeeps, if_neg hkeeps]
        exact ⟨fun heq => ⟨fun hk => absurd hk hkeeps, heq⟩, fun heq => heq.2⟩

lemma kept_sublist : ∀ (n : ℕ) (msg : List CustomPoint), (pre.kept n msg).Sublist msg
  | _, [] => List.Sublist.slnil
  | n, p :: msg => by
      have hrest := kept_sublist (pre.count n p) msg
      unfold kept
      by_cases hkeeps : pre.Keeps n p
      · rw [if_pos hkeeps]
        exact hrest.cons_cons p
      · rw [if_neg hkeeps]
        exact hrest.cons p

/-- **The times of a Livox scan.**  For offsets that do not decrease, the points put out have the
offsets of their own as times, and so do not decrease, exactly when each is in step. -/
theorem avia_times_iff {msg : List CustomPoint}
    (hsorted : msg.Pairwise fun p q => p.offsetTime ≤ q.offsetTime) :
    ((pre.aviaHandler msg).map PointXYZINormal.curvature =
          (pre.kept 0 msg).map (fun p => .num p.time) ∧
        ((pre.aviaHandler msg).map PointXYZINormal.curvature).Pairwise (· ≤ ·)) ↔
      pre.InStep none 0 msg := by
  have hnone : Tracks none none := trivial
  have hiff := pre.surf_times_iff (n := 0) hnone (fun p _ b hb => by cases hb) hsorted
  rw [aviaHandler_eq]
  constructor
  · rintro ⟨htimes, -⟩
    exact hiff.mp htimes
  · intro hstep
    have htimes := hiff.mpr hstep
    refine ⟨htimes, ?_⟩
    rw [htimes, List.pairwise_map]
    exact (hsorted.sublist (pre.kept_sublist 0 msg)).imp fun hle =>
      Extended.num_le.mpr (CustomPoint.time_le_time hle)

/-- Three points a few microseconds apart. -/
theorem avia_times_iff_steady :
    let msg : List CustomPoint :=
      [{ offsetTime := 0 }, { offsetTime := 4167 }, { offsetTime := 8333 }]
    (aviaHandler {} msg).map PointXYZINormal.curvature =
      (kept {} 0 msg).map fun p => .num p.time :=
  ((avia_times_iff {} (by decide)).mpr (by decide +kernel)).1

/-- **A skipped line and a gap.**  The last point is a millisecond and a half into the scan, and
behind the default slot of a skipped line; its time falls back below that of the first. -/
theorem avia_falls_back :
    let msg : List CustomPoint :=
      [{ offsetTime := 900000 }, { offsetTime := 950000, line := 6 }, { offsetTime := 1500000 }]
    msg.Pairwise (fun p q => p.offsetTime ≤ q.offsetTime) ∧
      (kept {} 0 msg).map CustomPoint.time = [9 / 10, 3 / 2] ∧
      (aviaHandler {} msg).map PointXYZINormal.curvature =
        [.num (9 / 10), .num (4166667 / 1000000000)] := by
  decide +kernel

end Preprocess

end FastLivo2
