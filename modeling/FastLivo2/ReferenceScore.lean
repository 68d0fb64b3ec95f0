import FastLivo2.Lib.RunningSums
import FastLivo2.VisualScore

/-!
# The score of an observation in exact arithmetic

`updateReferencePatch` scores an observation by the mean of its correlations with the others.  The
sums of a correlation (`NccSums`) are declared outside the loop over the others, so each quotient is
that of the sums so far; and a mean that is kept from before is not read back.

`turnSums` are the sums in front of each quotient, in the turn of one observation.  They are
rational, and with a square root they make the score: with that of the library it is the score the
model assigns (`assigned_score`), with the real one it is the score in exact arithmetic
(`exactScore`).
-/

namespace FastLivo2

namespace VIOManager

/-! ## Sums and scores -/

/-- `NCC_up`, `NCC_down1` and `NCC_down2`. -/
@[ext]
structure NccSums where
  up : ℚ := 0
  down1 : ℚ := 0
  down2 : ℚ := 0
  deriving DecidableEq

/-- The sums go on. -/
def NccSums.add (s t : NccSums) : NccSums := ⟨s.up + t.up, s.down1 + t.down1, s.down2 + t.down2⟩

section

variable {K : Type*} [Field K] [LinearOrder K] (root : ℚ → K)

/-- One more quotient. -/
def addQuotient (ncc : Option K) (s : NccSums) : Option K := do
  let ncc ← ncc
  if root (s.down1 * s.down2) = 0 then none else some (ncc + |s.up / root (s.down1 * s.down2)|)

/-- The score from the sums in front of each quotient. -/
def scoreOf (cosAngle : ℚ) (sums : List NccSums) : Option K := do
  let ncc ← sums.foldl (addQuotient root) (some 0)
  if (sums.length : K) = 0 then none else some (ncc / sums.length + cosAngle)

end

section

variable {K : Type*} [Field K] [LinearOrder K] {root : ℚ → K}

lemma foldl_addQuotient_none : ∀ sums : List NccSums, sums.foldl (addQuotient root) none = none
  | [] => rfl
  | _ :: sums => foldl_addQuotient_none sums

lemma foldl_addQuotient : ∀ (sums : List NccSums) (ncc : K),
    sums.foldl (addQuotient root) (some ncc) =
      if ∀ s ∈ sums, root (s.down1 * s.down2) ≠ 0 then
        some (ncc + (sums.map fun s => |s.up / root (s.down1 * s.down2)|).sum)
      else none
  | [], ncc => by simp
  | s :: sums, ncc => by
      have hrest := foldl_addQuotient sums (ncc + |s.up / root (s.down1 * s.down2)|)
      by_cases hs : root (s.down1 * s.down2) = 0
      · have hstep : addQuotient root (some ncc) s = none := if_pos hs
        rw [List.foldl_cons, hstep, foldl_addQuotient_none, if_neg fun h => h s (by simp) hs]
      · have hstep : addQuotient root (some ncc) s =
            some (ncc + |s.up / root (s.down1 * s.down2)|) := if_neg hs
        rw [List.foldl_cons, hstep, hrest, List.map_cons, List.sum_cons, add_assoc]
        simp only [List.forall_mem_cons, ne_eq, hs, not_false_eq_true, true_and]

end

/-! ## The sums of a turn -/

section

variable (L : VioLibs) (cfg : VioConfig)

/-- A sum over a patch. -/
def patchSum (f : ℕ → ℚ) : ℚ := ((List.range cfg.patchSizeTotal).map f).sum

/-- The mean of an observation's patch. -/
def meanOf (f : Feature) : ℚ := patchMean cfg.patchSizeTotal f.patch.at

/-- The sums of a pair about two means. -/
def pairSums (f : Feature) (x : ℚ) (g : Feature) (y : ℚ) : NccSums where
  up := patchSum cfg fun k => (f.patch.at k - x) * (g.patch.at k - y)
  down1 := patchSum cfg fun k => (f.patch.at k - x) * (f.patch.at k - x)
  down2 := patchSum cfg fun k => (g.patch.at k - y) * (g.patch.at k - y)

/-- The sums of a pair about the means of the patches. -/
def ownSums (f g : Feature) : NccSums := pairSums cfg f (meanOf cfg f) g (meanOf cfg g)

/-- The observations of other frames. -/
def others (f : Feature) (obs : List Feature) : List Feature := obs.filter fun g => g.id ≠ f.id

/-- The sums of the pairs in the turn of an observation. -/
def roundSums (f : Feature) (refMean : ℚ) (obs : List Feature) : List NccSums :=
  (others f obs).map fun g =>
    pairSums cfg f refMean g (localMean cfg (L.indeterminate f g) g).1

/-- The sums so far, pair by pair. -/
def runSums : NccSums → List NccSums → List NccSums
  | _, [] => []
  | acc, s :: l => acc.add s :: runSums (acc.add s) l

/-- The loop over the observations, before the turn of a place. -/
def turn (pt : VisualPoint) (i : ℕ) : Scoring :=
  (List.range i).foldl (scoreFeature L cfg) { pt := pt }

/-- The sums in front of each quotient in the turn of a place. -/
def turnSums (pt : VisualPoint) (i : ℕ) : List NccSums :=
  let obs := (turn L cfg pt i).pt.obs
  match obs[i]? with
  | none => []
  | some ftr =>
      let (refMean, ftr) := localMean cfg (L.indeterminate ftr ftr) ftr
      runSums {} (roundSums L cfg ftr refMean (obs.set i ftr))

end

variable {L : VioLibs} {cfg : VioConfig} {inp : FrameInput} {pt : VisualPoint} {f g : Feature}
  {i : ℕ}

/-- A quotient of the model. -/
lemma addQuotient_eq {root : ℚ → ℚ} (ncc : Flt) (s : NccSums) :
    addQuotient root ncc s =
      (do let ncc ← ncc
          let q ← Flt.div s.up (root (s.down1 * s.down2))
          pure (ncc + |q|)) := by
  cases ncc with
  | none => rfl
  | some ncc =>
      by_cases h : root (s.down1 * s.down2) = 0 <;> simp [addQuotient, Flt.div, h]

lemma runSums_concat (s : NccSums) : ∀ (l : List NccSums) (acc : NccSums),
    runSums acc (l ++ [s]) = runSums acc l ++ [(l.foldl NccSums.add acc).add s]
  | [], _ => rfl
  | t :: l, acc => by
      rw [List.cons_append, runSums, runSums, runSums_concat s l (acc.add t), List.foldl_cons,
        List.cons_append]

lemma length_runSums : ∀ (l : List NccSums) (acc : NccSums), (runSums acc l).length = l.length
  | [], _ => rfl
  | s :: l, acc => by rw [runSums, List.length_cons, List.length_cons, length_runSums l]

lemma localMean_snd_score (x : ℚ) (g : Feature) : (localMean cfg x g).2.score = g.score := by
  unfold localMean
  split_ifs <;> rfl

lemma localMean_snd_patch (x : ℚ) (g : Feature) : (localMean cfg x g).2.patch = g.patch := by
  unfold localMean
  split_ifs <;> rfl

/-- The mean of an observation is the one of its patch, if it has been computed. -/
def MeanKept (cfg : VioConfig) (g : Feature) : Prop := g.mean = 0 ∨ g.mean = meanOf cfg g

lemma MeanKept.localMean (h : MeanKept cfg g) (x : ℚ) :
    MeanKept cfg (localMean cfg x g).2 := by
  unfold VIOManager.localMean
  split_ifs
  · exact .inr rfl
  · exact h

/-- What the correlations with the first observations of the list amount to. -/
structure Round (L : VioLibs) (cfg : VioConfig) (f : Feature) (refMean : ℚ) (obs : List Feature)
    (k : ℕ) (c : Correlation) : Prop where
  ahead : ∀ j, k ≤ j → c.obs[j]? = obs[j]?
  cores : c.obs.map Feature.core = obs.map Feature.core
  scores : c.obs.map Feature.score = obs.map Feature.score
  means : (∀ g ∈ obs, MeanKept cfg g) → ∀ g ∈ c.obs, MeanKept cfg g
  sums : (⟨c.up, c.down1, c.down2⟩ : NccSums) =
    (roundSums L cfg f refMean (obs.take k)).foldl NccSums.add {}
  ncc : c.ncc =
    (runSums {} (roundSums L cfg f refMean (obs.take k))).foldl (addQuotient L.sqrt) (some 0)
  count : c.count = (roundSums L cfg f refMean (obs.take k)).length

/-- An observation of the same frame is passed over. -/
lemma correlate_same {refMean : ℚ} {k : ℕ} {c : Correlation} (hget : c.obs[k]? = some g)
    (hid : g.id = f.id) : correlate L cfg f refMean c k = c := by
  unfold correlate
  rw [hget]
  exact if_pos hid

/-- What an observation of another frame adds, in terms of the sums so far. -/
lemma correlate_other {refMean : ℚ} {k : ℕ} {c : Correlation} {total s : NccSums}
    (hget : c.obs[k]? = some g) (hid : g.id ≠ f.id) (htotal : total = ⟨c.up, c.down1, c.down2⟩)
    (hs : s = pairSums cfg f refMean g (localMean cfg (L.indeterminate f g) g).1) :
    correlate L cfg f refMean c k =
      { obs := c.obs.set k (localMean cfg (L.indeterminate f g) g).2
        up := (total.add s).up, down1 := (total.add s).down1, down2 := (total.add s).down2
        ncc := addQuotient L.sqrt c.ncc (total.add s)
        count := c.count + 1
        denoms := c.denoms ++ [L.sqrt ((total.add s).down1 * (total.add s).down2)] } := by
  have hpatch : (localMean cfg (L.indeterminate f g) g).2.patch = g.patch :=
    localMean_snd_patch _ g
  subst htotal hs
  unfold correlate
  rw [hget]
  dsimp only
  rw [if_neg hid, hpatch, addQuotient_eq]
  rfl

lemma Round.correlate {refMean : ℚ} {obs : List Feature} {k : ℕ} {c : Correlation}
    (h : Round L cfg f refMean obs k c) (hg : obs[k]? = some g) :
    Round L cfg f refMean obs (k + 1) (correlate L cfg f refMean c k) := by
  have hget : c.obs[k]? = some g := (h.ahead k le_rfl).trans hg
  have htake : obs.take (k + 1) = obs.take k ++ [g] := by
    rw [List.take_add_one, hg, Option.toList_some]
  by_cases hid : g.id = f.id
  · have hround : roundSums L cfg f refMean (obs.take (k + 1)) =
        roundSums L cfg f refMean (obs.take k) := by
      rw [htake]
      simp [roundSums, others, hid]
    rw [correlate_same hget hid]
    refine ⟨fun j hj => h.ahead j (by omega), h.cores, h.scores, h.means, ?_, ?_, ?_⟩ <;>
      rw [hround]
    exacts [h.sums, h.ncc, h.count]
  · obtain ⟨s, hs⟩ : ∃ s, s = pairSums cfg f refMean g
        (localMean cfg (L.indeterminate f g) g).1 := ⟨_, rfl⟩
    have hround : roundSums L cfg f refMean (obs.take (k + 1)) =
        roundSums L cfg f refMean (obs.take k) ++ [s] := by
      rw [htake, hs]
      simp [roundSums, others, hid]
    obtain ⟨total, htotal⟩ : ∃ t : NccSums, t = ⟨c.up, c.down1, c.down2⟩ := ⟨_, rfl⟩
    rw [correlate_other hget hid htotal hs]
    refine ⟨fun j hj => ?_, ?_, ?_, fun hmeans g' hg' => ?_, ?_, ?_, ?_⟩
    · rw [List.getElem?_set_ne (by omega)]
      exact h.ahead j (by omega)
    · rw [← h.cores]
      exact map_core_set hget (localMean_core _ g)
    · rw [← h.scores]
      exact map_set_eq_map hget (localMean_snd_score _ g)
    · rcases List.mem_or_eq_of_mem_set hg' with hmem | rfl
      · exact h.means hmeans g' hmem
      · exact (hmeans g (List.mem_of_getElem? hg)).localMean _
    · rw [hround, List.foldl_append, ← h.sums, ← htotal]
      rfl
    · rw [hround, runSums_concat, List.foldl_append, ← h.ncc, ← h.sums, ← htotal]
      rfl
    · rw [hround, List.length_append, ← h.count]
      rfl

lemma round_foldl (f : Feature) (refMean : ℚ) (obs : List Feature) : ∀ k ≤ obs.length,
    Round L cfg f refMean obs k
      ((List.range k).foldl (correlate L cfg f refMean) { obs := obs })
  | 0, _ => ⟨fun _ _ => rfl, rfl, rfl, id, rfl, rfl, rfl⟩
  | k + 1, hk => by
      rw [List.range_succ, List.foldl_append]
      exact (round_foldl f refMean obs k (by omega)).correlate
        (List.getElem?_eq_getElem (by omega : k < obs.length))

/-- The score of a turn, from the sums in front of its quotients. -/
lemma Round.score_eq {refMean : ℚ} {obs : List Feature} {c : Correlation}
    (h : Round L cfg f refMean obs obs.length c) (cosAngle : ℚ) :
    c.score cosAngle = scoreOf L.sqrt cosAngle (runSums {} (roundSums L cfg f refMean obs)) := by
  have hncc := h.ncc
  have hcount := h.count
  rw [List.take_length] at hncc hcount
  unfold Correlation.score scoreOf
  rw [hncc, hcount, length_runSums]
  cases List.foldl (addQuotient L.sqrt) (some 0)
      (runSums {} (roundSums L cfg f refMean obs)) with
  | none => rfl
  | some ncc =>
      by_cases hlen : ((roundSums L cfg f refMean obs).length : ℚ) = 0 <;> simp [Flt.div, hlen]

/-! ## Turn after turn -/

/-- The turn of a place. -/
lemma scoreFeature_spec {acc : Scoring} {ftr : Feature} {refMean : ℚ}
    (hf : acc.pt.obs[i]? = some f)
    (hmean : localMean cfg (L.indeterminate f f) f = (refMean, ftr)) :
    ∃ c, Round L cfg ftr refMean (acc.pt.obs.set i ftr) (acc.pt.obs.set i ftr).length c ∧
      (scoreFeature L cfg acc i).pt.obs =
        c.obs.set i { ftr with score := c.score (cosAngle L acc.pt ftr) } ∧
      (scoreFeature L cfg acc i).pt.pos = acc.pt.pos ∧
      (scoreFeature L cfg acc i).pt.normal = acc.pt.normal := by
  refine ⟨_, round_foldl ftr refMean (acc.pt.obs.set i ftr) _ le_rfl, ?_⟩
  unfold scoreFeature
  rw [hf]
  dsimp only
  rw [hmean, List.length_set]
  dsimp only
  split
  · exact ⟨rfl, rfl, rfl⟩
  · split_ifs <;> exact ⟨rfl, rfl, rfl⟩

/-- What the turns leave of a point. -/
structure Turned (cfg : VioConfig) (pt q : VisualPoint) : Prop where
  pos : q.pos = pt.pos
  normal : q.normal = pt.normal
  cores : q.obs.map Feature.core = pt.obs.map Feature.core
  means : (∀ g ∈ pt.obs, MeanKept cfg g) → ∀ g ∈ q.obs, MeanKept cfg g

lemma Turned.scoreFeature {acc : Scoring} (h : Turned cfg pt acc.pt) :
    Turned cfg pt (scoreFeature L cfg acc i).pt := by
  cases hf : acc.pt.obs[i]? with
  | none =>
      have hsame : VIOManager.scoreFeature L cfg acc i = acc := by
        unfold VIOManager.scoreFeature
        rw [hf]
      rwa [hsame]
  | some f =>
      obtain ⟨⟨refMean, ftr⟩, hmean⟩ : ∃ m, VIOManager.localMean cfg (L.indeterminate f f) f = m :=
        ⟨_, rfl⟩
      obtain ⟨c, hround, hobs, hpos, hnormal⟩ := scoreFeature_spec hf hmean
      have hcore : ftr.core = f.core := by
        rw [← localMean_core (L.indeterminate f f) f, hmean]
      have hcores : c.obs.map Feature.core = acc.pt.obs.map Feature.core :=
        hround.cores.trans (map_core_set hf hcore)
      have hkept : MeanKept cfg f → MeanKept cfg ftr := fun hf' => by
        have hnext := hf'.localMean (L.indeterminate f f)
        rwa [hmean] at hnext
      refine ⟨hpos.trans h.pos, hnormal.trans h.normal, ?_, fun hmeans g hg => ?_⟩
      · obtain ⟨g, hg, hgcore⟩ : ∃ g, c.obs[i]? = some g ∧ g.core = f.core := by
          have hget : (c.obs.map Feature.core)[i]? = some f.core := by
            rw [hcores, List.getElem?_map, hf, Option.map_some]
          rwa [List.getElem?_map, Option.map_eq_some_iff] at hget
        rw [hobs, map_core_set hg (by rw [hgcore, ← hcore]; rfl), hcores, h.cores]
      · have hacc := h.means hmeans
        have hf' := hkept (hacc f (List.mem_of_getElem? hf))
        rw [hobs] at hg
        rcases List.mem_or_eq_of_mem_set hg with hmem | rfl
        · refine hround.means (fun g' hg' => ?_) g hmem
          rcases List.mem_or_eq_of_mem_set hg' with hmem' | rfl
          exacts [hacc g' hmem', hf']
        · exact hf'

lemma turn_succ (pt : VisualPoint) (i : ℕ) :
    turn L cfg pt (i + 1) = scoreFeature L cfg (turn L cfg pt i) i := by
  rw [turn, List.range_succ, List.foldl_append]
  rfl

lemma turn_turned (L : VioLibs) (cfg : VioConfig) (pt : VisualPoint) (i : ℕ) :
    Turned cfg pt (turn L cfg pt i).pt :=
  foldl_invariant (I := fun acc : Scoring => Turned cfg pt acc.pt) (fun _ _ h => h.scoreFeature)
    _ ⟨rfl, rfl, rfl, id⟩

lemma cosAngle_congr {p q : VisualPoint} (hpos : q.pos = p.pos) (hnormal : q.normal = p.normal)
    (hcore : g.core = f.core) : cosAngle L q g = cosAngle L p f := by
  have htFW : g.tFW = f.tFW := (congrArg Feature.tFW hcore : g.core.tFW = f.core.tFW)
  rw [cosAngle, cosAngle, hpos, hnormal, htFW]

/-- An observation is there in its turn, with a mean and a score written into it. -/
lemma turn_getElem? (L : VioLibs) (cfg : VioConfig) (hf : pt.obs[i]? = some f) (k : ℕ) :
    ∃ g, (turn L cfg pt k).pt.obs[i]? = some g ∧ g.core = f.core := by
  have hget : ((turn L cfg pt k).pt.obs.map Feature.core)[i]? = some f.core := by
    rw [(turn_turned L cfg pt k).cores, List.getElem?_map, hf, Option.map_some]
  rwa [List.getElem?_map, Option.map_eq_some_iff] at hget

lemma turnSums_eq {ftr : Feature} {refMean : ℚ} (hg : (turn L cfg pt i).pt.obs[i]? = some g)
    (hmean : localMean cfg (L.indeterminate g g) g = (refMean, ftr)) :
    turnSums L cfg pt i =
      runSums {} (roundSums L cfg ftr refMean ((turn L cfg pt i).pt.obs.set i ftr)) := by
  unfold turnSums
  dsimp only
  rw [hg]
  dsimp only
  rw [hmean]

/-- The score of a turn. -/
lemma turn_succ_score (hf : pt.obs[i]? = some f) :
    ((turn L cfg pt (i + 1)).pt.obs.map Feature.score)[i]? =
      some (scoreOf L.sqrt (cosAngle L pt f) (turnSums L cfg pt i)) := by
  obtain ⟨g, hg, hgcore⟩ := turn_getElem? L cfg hf i
  obtain ⟨⟨refMean, ftr⟩, hmean⟩ : ∃ m, localMean cfg (L.indeterminate g g) g = m := ⟨_, rfl⟩
  have hcore : ftr.core = f.core := by
    have hkeep : (localMean cfg (L.indeterminate g g) g).2.core = g.core := localMean_core _ g
    rw [hmean] at hkeep
    exact hkeep.trans hgcore
  obtain ⟨c, hround, hobs, -, -⟩ := scoreFeature_spec hg hmean
  have hturned := turn_turned L cfg pt i
  have hlen : i < c.obs.length := by
    have hcores := congrArg List.length hround.cores
    rw [List.length_map, List.length_map, List.length_set] at hcores
    rw [hcores]
    exact (List.getElem?_eq_some_iff.mp hg).1
  rw [turn_succ, hobs, List.getElem?_map, List.getElem?_set_self hlen, Option.map_some,
    hround.score_eq, turnSums_eq hg hmean, cosAngle_congr hturned.pos hturned.normal hcore]

/-- The turns of the others leave it. -/
lemma scoreFeature_score_of_ne {acc : Scoring} {j : ℕ} (hij : j ≠ i) :
    ((scoreFeature L cfg acc j).pt.obs.map Feature.score)[i]? =
      (acc.pt.obs.map Feature.score)[i]? := by
  cases hf : acc.pt.obs[j]? with
  | none =>
      unfold scoreFeature
      rw [hf]
  | some f =>
      obtain ⟨⟨refMean, ftr⟩, hmean⟩ : ∃ m, localMean cfg (L.indeterminate f f) f = m := ⟨_, rfl⟩
      have hscore : ftr.score = f.score := by
        have hkeep : (localMean cfg (L.indeterminate f f) f).2.score = f.score :=
          localMean_snd_score _ f
        rwa [hmean] at hkeep
      obtain ⟨c, hround, hobs, -, -⟩ := scoreFeature_spec hf hmean
      rw [hobs, List.map_set, List.getElem?_set_ne hij, hround.scores,
        map_set_eq_map hf hscore]

/-- **The score of an observation** is that of the sums in its turn. -/
theorem rescore_score (L : VioLibs) (cfg : VioConfig) (inp : FrameInput) {pt : VisualPoint}
    (hf : (refineNormal L inp pt).obs[i]? = some f) :
    ((rescore L cfg inp pt).pt.obs.map Feature.score)[i]? =
      some (scoreOf L.sqrt (cosAngle L (refineNormal L inp pt) f)
        (turnSums L cfg (refineNormal L inp pt) i)) := by
  have hlater : ∀ d, ((turn L cfg (refineNormal L inp pt) (i + 1 + d)).pt.obs.map
      Feature.score)[i]? = some (scoreOf L.sqrt (cosAngle L (refineNormal L inp pt) f)
        (turnSums L cfg (refineNormal L inp pt) i)) := by
    intro d
    induction d with
    | zero => exact turn_succ_score hf
    | succ d ih =>
        rw [← add_assoc, turn_succ, scoreFeature_score_of_ne (by omega)]
        exact ih
  have hlt := (List.getElem?_eq_some_iff.mp hf).1
  obtain ⟨d, hd⟩ := Nat.exists_eq_add_of_le (Nat.succ_le_of_lt hlt)
  have hend := hlater d
  rwa [← hd] at hend

/-! ## Exact arithmetic -/

/-- The root of exact arithmetic. -/
noncomputable def exactRoot (q : ℚ) : ℝ := √(q : ℝ)

/-- The score of the observation at a place, in exact arithmetic. -/
noncomputable def exactScore (L : VioLibs) (cfg : VioConfig) (pt : VisualPoint) (i : ℕ) :
    Option ℝ := do
  let ftr ← pt.obs[i]?
  scoreOf exactRoot (cosAngle L pt ftr) (turnSums L cfg pt i)

/-- The cosine, and the average of the correlations of the pairs alone. -/
noncomputable def wantedScore (L : VioLibs) (cfg : VioConfig) (pt : VisualPoint) (f : Feature) :
    Option ℝ :=
  scoreOf exactRoot (cosAngle L pt f) ((others f pt.obs).map (ownSums cfg f))

/-- The same observations in another order, each with its mean computed before or not. -/
structure Rearranged (cfg : VioConfig) (obs obs' : List Feature) : Prop where
  perm : (obs'.map Feature.core).Perm (obs.map Feature.core)
  means : ∀ g ∈ obs', MeanKept cfg g

end VIOManager

end FastLivo2
