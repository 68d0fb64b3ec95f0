import FastLivo2.ReferencePatch

/-!
# The patch buffers

Every `Feature` owns a patch buffer, which its destructor frees.  The books of these buffers are
kept over a run (`Audit`): what is live is what the features of the map own and what has been
leaked.  The retrieval and the scoring leave the books alone, a new point brings its buffer along,
pruning and eviction free what they detach.  The observation of the submap allocates a buffer for
each point that has not converged before it knows whether the point is seen anew, and forgets it
when it is not.  Nothing ever frees such a buffer, so the live buffers are those of the map exactly
when every frame has seen anew every such point of its submap (`buffersExact_iff`).
-/

namespace FastLivo2

namespace VIOManager

variable {L : VioLibs} {cfg : VioConfig} {inp : FrameInput} {s : StatesGroup} {v w : VIOManager}

/-! ## The books -/

/-- The books of the manager: the buffers `leaked` are live, and no feature refers to them. -/
structure Audit (v : VIOManager) (leaked : Multiset ℕ) : Prop where
  books : Books v.liveBufs (ownedBy VisualPoint.bufs v.points) leaked
  fresh : ∀ b ∈ v.liveBufs, b < v.nextBuf

namespace Audit

variable {leaked : Multiset ℕ}

lemma init : Audit {} 0 := ⟨Books.empty, fun b hb => by simp at hb⟩

lemma congr (h : Audit v leaked) (hlive : w.liveBufs = v.liveBufs) (hnext : w.nextBuf = v.nextBuf)
    (howned : ownedBy VisualPoint.bufs w.points = ownedBy VisualPoint.bufs v.points) :
    Audit w leaked := by
  refine ⟨?_, ?_⟩
  · rw [hlive, howned]
    exact h.books
  · rw [hlive, hnext]
    exact h.fresh

/-- The buffer allocated next is not live. -/
lemma nextBuf_notMem (h : Audit v leaked) : v.nextBuf ∉ v.liveBufs :=
  fun hmem => lt_irrefl _ (h.fresh _ hmem)

lemma allocBuf (h : Audit v leaked) : Audit v.allocBuf (v.nextBuf ::ₘ leaked) := by
  refine ⟨h.books.acquire h.nextBuf_notMem, fun b hb => ?_⟩
  rcases Finset.mem_insert.mp hb with rfl | hb
  · exact Nat.lt_succ_self _
  · exact (h.fresh b hb).trans (Nat.lt_succ_self _)

/-- A point hands some of its buffers back. -/
lemma freeBufs {k : ℕ} {pt pt' : VisualPoint} {freed : List ℕ} (h : Audit v leaked)
    (hpt : v.points[k]? = some pt)
    (hbufs : (pt.bufs : Multiset ℕ) = pt'.bufs + (freed : Multiset ℕ)) :
    Audit ((v.freeBufs freed).setPoint k pt') leaked := by
  obtain ⟨rest, hold, hnew⟩ := ownedBy_set VisualPoint.bufs hpt
  refine ⟨?_, fun b hb => h.fresh b (Finset.mem_sdiff.mp hb).1⟩
  have hbooks := h.books
  rw [hold, hbufs, ← add_assoc] at hbooks
  show Books _ (ownedBy VisualPoint.bufs (v.points.set k pt')) leaked
  rw [hnew]
  exact hbooks.release

/-- A point is given a leaked buffer. -/
lemma attach {k b : ℕ} {pt pt' : VisualPoint} (h : Audit v (b ::ₘ leaked))
    (hpt : v.points[k]? = some pt) (hbufs : pt'.bufs = b :: pt.bufs) :
    Audit (v.setPoint k pt') leaked := by
  obtain ⟨rest, hold, hnew⟩ := ownedBy_set VisualPoint.bufs hpt
  refine ⟨?_, h.fresh⟩
  show Books _ (ownedBy VisualPoint.bufs (v.points.set k pt')) leaked
  rw [hnew, hbufs, ← Multiset.cons_coe, Multiset.add_cons, ← hold]
  exact h.books.attach

lemma generateCell (h : Audit v leaked) (i : ℕ) :
    Audit (VIOManager.generateCell L cfg inp s v i) leaked := by
  rcases generateCell_cases L cfg inp s v i with heq | heq
  · rwa [heq]
  rw [heq]
  refine ⟨?_, h.allocBuf.fresh⟩
  have hone : ((newPoint L cfg inp s v (v.grid.appendVoxelPoints i)).bufs : Multiset ℕ) =
      {v.nextBuf} := Multiset.coe_singleton _
  show Books _ (ownedBy VisualPoint.bufs (v.points ++ [_])) leaked
  rw [ownedBy_append, hone, add_comm (ownedBy _ _), Multiset.singleton_add]
  exact h.allocBuf.books.attach

lemma rescoreEntry {e : SubEntry × ℕ} (h : Audit v leaked)
    (hw : VIOManager.rescoreEntry L cfg inp v e = .ok w) : Audit w leaked := by
  rcases rescoreEntry_cases hw with rfl | ⟨pt, hpt, -, -, rfl⟩
  · exact h
  · refine h.congr rfl rfl ?_
    obtain ⟨rest, hold, hnew⟩ := ownedBy_set VisualPoint.bufs hpt
    show ownedBy VisualPoint.bufs (v.points.set e.1.point (rescore L cfg inp pt).pt) = _
    rw [hnew, hold, VisualPoint.bufs_eq_map_cores, rescore_cores, ← VisualPoint.bufs_eq_map_cores]

end Audit

/-- Up to the new observations a frame leaks nothing. -/
lemma Audit.middleFrame {leaked : Multiset ℕ} {e : VisualEkf} (h : Audit v leaked)
    (hw : VIOManager.middleFrame L cfg inp v = .ok (w, e)) : Audit w leaked := by
  obtain ⟨v₁, tFW, G, HTH, hbegin, -, -, hgen⟩ := middleFrame_calls hw
  have hb := beginFrame_begun hbegin
  have hfirst : Audit v₁ leaked :=
    h.congr (by rw [hb.rest]) (by rw [hb.rest]) hb.referred.ownedBy_bufs
  rcases generate_cases hgen with rfl | ⟨grid, -, rfl⟩
  · exact hfirst.congr rfl rfl rfl
  · exact foldl_invariant (I := fun u : VIOManager => u.Audit leaked)
      (fun i _ hl => hl.generateCell i) _ (hfirst.congr rfl rfl rfl)

/-! ## The new observations -/

variable (L) in
/-- The point of an entry has converged, or the frame adds an observation to it. -/
def SeenAnew (u : VIOManager) (e : SubEntry) : Prop :=
  ∀ pt, u.points[e.point]? = some pt → pt.isConverged = true ∨
    ∃ lastFeature, pt.obs.getLast? = some lastFeature ∧
      addFlag L u.newFrame (u.newFrame.w2c L pt.pos) lastFeature

/-- The loop over the points of the submap: `es₀` are all its entries, `es` those ahead, `u` the
manager it started from, and `leaked₀` what was leaked then. -/
structure Balancing (L : VioLibs) (u : VIOManager) (leaked₀ : Multiset ℕ)
    (es₀ es : List (SubEntry × ℕ)) (v : VIOManager) : Prop where
  nodup : (es.map fun e => e.1.point).Nodup
  newFrame : v.newFrame = u.newFrame
  untouched : ∀ e ∈ es, v.points[e.1.point]? = u.points[e.1.point]?
  audit : ∃ extra, Audit v (leaked₀ + extra) ∧
    ((∀ e ∈ es₀, SeenAnew L u e.1) ↔ extra = 0 ∧ ∀ e ∈ es, SeenAnew L u e.1)

lemma Balancing.step {u : VIOManager} {leaked₀ : Multiset ℕ} {e : SubEntry × ℕ}
    {es₀ es : List (SubEntry × ℕ)} (h : Balancing L u leaked₀ es₀ (e :: es) v)
    (hw : observe L cfg inp s v e = .ok w) : Balancing L u leaked₀ es₀ es w := by
  obtain ⟨hnew, hnodup⟩ := List.nodup_cons.mp h.nodup
  have huntouched : ∀ pt, ∀ e' ∈ es,
      (v.points.set e.1.point pt)[e'.1.point]? = u.points[e'.1.point]? := by
    intro pt e' he'
    have hne : e.1.point ≠ e'.1.point := fun hsame =>
      hnew (List.mem_map.mpr ⟨e', he', hsame.symm⟩)
    rw [List.getElem?_set_ne hne]
    exact h.untouched e' (List.mem_cons_of_mem e he')
  obtain ⟨extra, haudit, hiff⟩ := h.audit
  obtain ⟨pt, hpt, hcases⟩ := observe_cases hw
  have hptu : u.points[e.1.point]? = some pt := (h.untouched e (by simp)).symm.trans hpt
  rw [List.forall_mem_cons] at hiff
  rcases hcases with ⟨hconv, rfl⟩ | ⟨hconv, last, pt', freed, hlast, hevict, hcases⟩
  · refine ⟨hnodup, h.newFrame, huntouched _, extra,
      haudit.freeBufs hpt VisualPoint.deleteNonRefPatchFeatures_bufs, ?_⟩
    have hseen : SeenAnew L u e.1 := by
      intro q hq
      obtain rfl : pt = q := by simpa [hptu] using hq
      exact .inl hconv
    rw [hiff]
    simp only [hseen, true_and]
  have hfreed : Audit ((v.allocBuf.freeBufs freed).setPoint e.1.point pt')
      (v.nextBuf ::ₘ (leaked₀ + extra)) :=
    haudit.allocBuf.freeBufs hpt (VisualPoint.evict_bufs hevict)
  have hset : (v.points.set e.1.point pt')[e.1.point]? = some pt' :=
    List.getElem?_set_self (List.getElem?_eq_some_iff.mp hpt).1
  rcases hcases with ⟨hadd, grid, rfl⟩ | ⟨hadd, rfl⟩
  · refine ⟨hnodup, h.newFrame, huntouched _, extra, ?_, ?_⟩
    · have hbufs : (pt'.addFrameRef (newFeature L cfg inp s v (v.newFrame.w2c L pt.pos)
          e.1.searchLevel v.nextBuf)).bufs = v.nextBuf :: pt'.bufs := rfl
      refine (hfreed.attach hset hbufs).congr rfl rfl ?_
      show ownedBy VisualPoint.bufs (v.points.set e.1.point _) =
        ownedBy VisualPoint.bufs ((v.points.set e.1.point pt').set e.1.point _)
      rw [List.set_set]
    · have hseen : SeenAnew L u e.1 := by
        intro q hq
        obtain rfl : pt = q := by simpa [hptu] using hq
        rw [h.newFrame] at hadd
        exact .inr ⟨last, hlast, hadd⟩
      rw [hiff]
      simp only [hseen, true_and]
  · refine ⟨hnodup, h.newFrame, huntouched _, v.nextBuf ::ₘ extra, ?_, ?_⟩
    · rwa [Multiset.add_cons]
    · have hunseen : ¬SeenAnew L u e.1 := by
        intro hseen
        rcases hseen pt hptu with htrue | ⟨last', hlast', hadd'⟩
        · rw [hconv] at htrue
          cases htrue
        · obtain rfl : last = last' := by simpa [hlast] using hlast'
          rw [h.newFrame] at hadd
          exact hadd hadd'
      rw [hiff]
      simp only [hunseen, false_and, and_false, Multiset.cons_ne_zero]

/-- Every point of the submap is seen anew by the frame, or has converged. -/
def AllSeenAnew (L : VioLibs) (u : VIOManager) : Prop :=
  u.totalPoints = 0 ∨ ∀ e ∈ u.submap.entries, SeenAnew L u e

/-- What a frame leaks. -/
lemma Audit.processFrame {leaked : Multiset ℕ} {e : VisualEkf} (h : Audit v leaked)
    (hw : VIOManager.processFrame L cfg inp v = .ok (w, e)) :
    ∃ u extra, VIOManager.middleFrame L cfg inp v = .ok (u, e) ∧ Audit w (leaked + extra) ∧
      (AllSeenAnew L u ↔ extra = 0) := by
  obtain ⟨u, v₂, hmiddle, hupdate, href⟩ := processFrame_calls hw
  have hmid := h.middleFrame hmiddle
  obtain ⟨extra, haudit, hiff⟩ : ∃ extra, Audit v₂ (leaked + extra) ∧
      (AllSeenAnew L u ↔ extra = 0) := by
    unfold updateVisualMapPoints at hupdate
    by_cases htotal : u.totalPoints = 0
    · rw [if_pos htotal] at hupdate
      refine ⟨0, ?_, ?_⟩
      · rw [← Except.ok.inj hupdate, add_zero]
        exact hmid
      · simp only [AllSeenAnew, htotal, true_or]
    · rw [if_neg htotal] at hupdate
      have hnodup : (u.submap.entries.zipIdx.map fun e => e.1.point).Nodup := by
        rcases (middleFrame_ready hmiddle).submap with ⟨hzero, -⟩ | ⟨-, hnodup, -, -⟩
        · exact absurd hzero htotal
        · rwa [map_point_zipIdx]
      have hloop := foldlM_rule (P := Balancing L u leaked u.submap.entries.zipIdx)
        (fun _ _ _ _ hbal hstep => hbal.step hstep) hupdate
        ⟨hnodup, rfl, fun _ _ => rfl, 0, by rwa [add_zero], by simp⟩
      obtain ⟨extra, haudit, hiff⟩ := hloop.audit
      refine ⟨extra, haudit, ?_⟩
      have hall : (∀ e ∈ u.submap.entries, SeenAnew L u e) ↔
          ∀ e ∈ u.submap.entries.zipIdx, SeenAnew L u e.1 := by
        conv_lhs => rw [← List.zipIdx_map_fst 0 u.submap.entries]
        exact List.forall_mem_map
      unfold AllSeenAnew
      rw [hall, hiff]
      simp [htotal]
  refine ⟨u, extra, hmiddle, ?_, hiff⟩
  unfold updateReferencePatch at href
  split_ifs at href
  · rwa [← Except.ok.inj href]
  · exact foldlM_invariant (I := fun u : VIOManager => u.Audit (leaked + extra))
      (fun _ _ _ _ hx hstep => hx.rescoreEntry hstep) href haudit

/-! ## Runs -/

/-- The live buffers are those of the features of the map. -/
def BuffersExact (v : VIOManager) : Prop :=
  ∀ b, b ∈ v.liveBufs ↔ ∃ pt, v.InFeatMap pt ∧ b ∈ pt.bufs

variable (L cfg) in
/-- The frame saw anew every point of its submap that had not converged. -/
def FrameSeenAnew (x : Turn VIOManager FrameInput VisualEkf) : Prop :=
  ∀ u e, middleFrame L cfg x.event x.pre = .ok (u, e) → AllSeenAnew L u

/-- What a run has leaked; nothing, when each of its frames saw its points anew. -/
lemma audit_of_run {tr : List (Turn VIOManager FrameInput VisualEkf)}
    (h : Exec (frameStep L cfg) {} tr v) :
    ∃ leaked, Audit v leaked ∧ (leaked = 0 ↔ ∀ x ∈ tr, FrameSeenAnew L cfg x) := by
  refine h.history (P := fun tr v =>
    ∃ leaked, Audit v leaked ∧ (leaked = 0 ↔ ∀ x ∈ tr, FrameSeenAnew L cfg x))
    (C := fun _ => True) ⟨0, Audit.init, by simp⟩ ?_ fun _ _ => trivial
  rintro tr x - hx - ⟨leaked, haudit, hiff⟩
  have hframe : processFrame L cfg x.event x.pre = .ok (x.post, x.obs) := hx
  obtain ⟨u, extra, hmiddle, hpost, hextra⟩ := haudit.processFrame hframe
  have hseen : FrameSeenAnew L cfg x ↔ AllSeenAnew L u := by
    constructor
    · exact fun hall => hall u _ hmiddle
    · rintro hall u' e' hmiddle'
      obtain ⟨rfl, -⟩ : u = u' ∧ _ = e' := by simpa [hmiddle] using hmiddle'
      exact hall
  refine ⟨leaked + extra, hpost, ?_⟩
  rw [List.forall_mem_append, List.forall_mem_singleton, hseen, hextra, ← hiff,
    add_eq_zero]

/-- The live buffers are those of the map when nothing has leaked. -/
lemma Audit.exact_iff {tr : List (Turn VIOManager FrameInput VisualEkf)} {leaked : Multiset ℕ}
    (haudit : Audit v leaked) (h : Exec (frameStep L cfg) {} tr v) :
    v.BuffersExact ↔ leaked = 0 := by
  rw [← haudit.books.exact_iff]
  refine forall_congr' fun b => ?_
  rw [mem_ownedBy]
  simp only [inFeatMap_iff h]

/-- **The patch buffers of a run.**  The live buffers are those of the features of the map exactly
when every frame so far saw anew every point of its submap that had not converged. -/
theorem buffersExact_iff {tr : List (Turn VIOManager FrameInput VisualEkf)}
    (h : Exec (frameStep L cfg) {} tr v) :
    v.BuffersExact ↔ ∀ x ∈ tr, FrameSeenAnew L cfg x := by
  obtain ⟨leaked, haudit, hiff⟩ := audit_of_run h
  rw [haudit.exact_iff h, hiff]

end VIOManager

/-! ## A camera at rest -/

section ZeroRows

variable {N : Numerics} {cfg : VioConfig} {statePropagat : StatesGroup} {level : ℕ}
  {ι : Type} [Fintype ι] {k : ℕ} {hk : k ≤ dimState} {ph : Photometry ι k}

/-- Rows that vanish at the predicted state make a step of length zero, and the last one. -/
lemma acceptStep_of_zero {error : ℚ} {v : VisualLoop} (hz : ph.z v.state = 0)
    (hvec : statePropagat.sub N v.state = 0) (hsqrt : N.sqrt 0 = 0) :
    (acceptStep N cfg statePropagat level hk ph error v).state = v.state.add N.toLibm 0 ∧
      (acceptStep N cfg statePropagat level hk ph error v).ekfEnd = true := by
  have hlead : VState.lead (0 : VState) hk = 0 := rfl
  have hconv : visualConverged N.toLibm 0 := by
    have hseg : ∀ r, VState.seg 0 r = 0 := by
      intro r
      funext j
      unfold VState.seg
      split_ifs <;> rfl
    unfold visualConverged V3D.norm
    rw [hseg, hseg, dotProduct_zero, hsqrt]
    norm_num
  unfold acceptStep
  dsimp only
  rw [hz, hvec, hlead]
  simp only [Matrix.mulVec_zero, add_zero, sub_zero, neg_zero]
  exact ⟨trivial, decide_eq_true hconv⟩

/-- A level whose rows vanish at the predicted state leaves the state there. -/
lemma updateLevel_state_of_zero [Nonempty ι] {e : VisualEkf} (hz : ph.z e.state = 0)
    (hvec : statePropagat.sub N e.state = 0) (hsqrt : N.sqrt 0 = 0)
    (hiter : 0 < cfg.maxIterations) :
    (updateLevel N cfg statePropagat level hk ph e).state = e.state.add N.toLibm 0 := by
  obtain ⟨n, hn⟩ : ∃ n, cfg.maxIterations = n + 1 := ⟨cfg.maxIterations - 1, by omega⟩
  have herr : ph.error e.state = some 0 := by
    unfold Photometry.error Flt.div
    rw [hz, if_neg (by exact_mod_cast Fintype.card_ne_zero)]
    simp
  have hstep : visualIteration N cfg statePropagat level hk ph { e with oldState := e.state } =
      acceptStep N cfg statePropagat level hk ph 0 { e with oldState := e.state } := by
    unfold visualIteration
    simp only [herr]
    exact if_pos le_top
  have haccept : (acceptStep N cfg statePropagat level hk ph 0
      { e with oldState := e.state }).state = e.state.add N.toLibm 0 ∧
      (acceptStep N cfg statePropagat level hk ph 0 { e with oldState := e.state }).ekfEnd = true :=
    acceptStep_of_zero hz hvec hsqrt
  obtain ⟨hstate, hend⟩ := haccept
  unfold updateLevel
  rw [hn]
  unfold visualLoop
  rw [hstep, if_pos hend]
  exact hstate

end ZeroRows

namespace VIOManager

section Returns

variable {L : VioLibs} {cfg : VioConfig} {inp : FrameInput} {s : StatesGroup} {v w : VIOManager}

/-- A point that is not seen anew. -/
lemma observe_unseen {e : SubEntry × ℕ} {pt : VisualPoint} {last : Feature}
    (hpt : v.points[e.1.point]? = some pt) (hconv : pt.isConverged = false)
    (hlast : pt.obs.getLast? = some last) (hfew : pt.obs.length < 30)
    (hadd : ¬addFlag L v.newFrame (v.newFrame.w2c L pt.pos) last) :
    observe L cfg inp s v e = .ok ((v.allocBuf.freeBufs []).setPoint e.1.point pt) := by
  have hevict : evict pt = .ok (pt, []) := if_neg (by omega)
  unfold observe
  rw [point_eq_ok.mpr hpt]
  show (if pt.isConverged then _ else _) = _
  rw [hconv, if_neg Bool.false_ne_true]
  dsimp only
  simp only [hlast, hevict]
  exact if_neg hadd

lemma updateVisualMapPoints_singleton {e : SubEntry} (htotal : v.totalPoints ≠ 0)
    (he : v.submap.entries = [e]) (h : observe L cfg inp s v (e, 0) = .ok w) :
    updateVisualMapPoints L cfg inp s v = .ok w := by
  unfold updateVisualMapPoints
  rw [if_neg htotal, he]
  simp [h]

end Returns

/-- What the retrieval leaves of the second frame: one point, whose rows vanish at rest, and which
the frame does not see anew. -/
lemma stillFrame_unseen : ∃ w,
    beginFrame stillLibs (stillConfig true false) (stillFrame 1)
      (afterStill true false [stillFrame 11]) = .ok w ∧
    w.totalPoints = 1 ∧ w.submap.entries.length = 1 ∧
    (∃ pts, w.subPoints = .ok pts ∧ pts.length = 1 ∧ ∀ pt ∈ pts, ∀ x y : Fin 2,
      (photoRow stillLibs (stillConfig true false) (stillFrame 1).img 0 {} pt x y).2 = 0) ∧
    ∀ e ∈ w.submap.entries, ∃ pt ∈ w.points[e.point]?,
      pt.isConverged = false ∧ pt.obs.length = 1 ∧ ∃ last ∈ pt.obs.getLast?,
        ¬addFlag stillLibs { w.newFrame with tFW := {} }
          ({ w.newFrame with tFW := {} : Frame }.w2c stillLibs pt.pos) last := by
  decide +kernel

/-- The update leaves the camera of the second frame where it is. -/
lemma stillFrame_middle : ∃ u e,
    middleFrame stillLibs (stillConfig true false) (stillFrame 1)
      (afterStill true false [stillFrame 11]) = .ok (u, e) ∧
    u.totalPoints ≠ 0 ∧ ∃ entry pt last, u.submap.entries = [entry] ∧
      u.points[entry.point]? = some pt ∧ pt.isConverged = false ∧ pt.obs.length = 1 ∧
      pt.obs.getLast? = some last ∧
      ¬addFlag stillLibs u.newFrame (u.newFrame.w2c stillLibs pt.pos) last := by
  obtain ⟨w, hw, htotal, hlen, ⟨pts, hpts, hone, hzero⟩, hunseen⟩ := stillFrame_unseen
  obtain ⟨entry, hentry⟩ := List.length_eq_one_iff.mp hlen
  obtain ⟨pt, hpt, hconv, hobs, last, hlast, hadd⟩ := hunseen entry (by simp [hentry])
  let e₀ : VisualEkf := { state := {}, G := w.G, HTH := w.HTH }
  let e₁ := updateState stillLibs (stillConfig true false) (stillFrame 1).img {} pts 0 e₀
  have hstate : e₁.state = e₀.state.add stillLibs.toLibm 0 := by
    have hne : Nonempty (PatchRow pts.length (stillConfig true false).patchSize) := by
      rw [hone]
      exact ⟨0, ⟨0, by decide⟩, ⟨0, by decide⟩⟩
    apply updateLevel_state_of_zero
    · funext r
      exact hzero _ (List.get_mem pts r.1) r.2.1 r.2.2
    · show (({} : StatesGroup).sub stillLibs.toNumerics {}) = 0
      decide +kernel
    · decide +kernel
    · decide
  have hcam : Pcw (stillConfig true false) e₁.state = 0 := by
    rw [hstate]
    show Pcw (stillConfig true false) (({} : StatesGroup).add stillLibs.toLibm 0) = 0
    decide +kernel
  let u := updateFrameState stillLibs (stillConfig true false) (finishUpdate e₁).state
    { w with G := e₁.G, HTH := e₁.HTH }
  have hframe : u.newFrame = { w.newFrame with tFW := {} } := by
    show { w.newFrame with tFW := ⟨1, Pcw (stillConfig true false) e₁.state⟩ } = _
    rw [hcam]
  have hlevels : updateLevels stillLibs (stillConfig true false) (stillFrame 1) w e₀ = .ok e₁ := by
    unfold updateLevels
    rw [if_neg (by decide), hpts]
    rfl
  have hupdate : computeJacobianAndUpdateEKF stillLibs (stillConfig true false) (stillFrame 1) w =
      .ok (u, finishUpdate e₁) := by
    unfold computeJacobianAndUpdateEKF
    rw [if_neg (by omega)]
    show (updateLevels _ _ _ w e₀ >>= _) = _
    rw [hlevels]
    rfl
  have htotal' : u.totalPoints ≠ 0 := by
    show w.totalPoints ≠ 0
    omega
  refine ⟨u, finishUpdate e₁, ?_, htotal', entry, pt, last, hentry, hpt, hconv, hobs, hlast, ?_⟩
  · unfold middleFrame
    rw [hw]
    show (computeJacobianAndUpdateEKF _ _ _ w >>= _) = _
    rw [hupdate]
    rfl
  · rw [hframe]
    exact hadd

/-- The second frame leaks the buffer it allocates. -/
lemma stillFrame_leaks : ∃ w e u, processFrame stillLibs (stillConfig true false) (stillFrame 1)
      (afterStill true false [stillFrame 11]) = .ok (w, e) ∧
    middleFrame stillLibs (stillConfig true false) (stillFrame 1)
      (afterStill true false [stillFrame 11]) = .ok (u, e) ∧ ¬AllSeenAnew stillLibs u := by
  obtain ⟨u, e, hmiddle, htotal, entry, pt, last, hentry, hpt, hconv, hobs, hlast, hadd⟩ :=
    stillFrame_middle
  let w := (u.allocBuf.freeBufs []).setPoint entry.point pt
  have hobserve : observe stillLibs (stillConfig true false) (stillFrame 1) e.state u (entry, 0) =
      .ok w := observe_unseen hpt hconv hlast (by omega) hadd
  have hrescore : rescoreEntry stillLibs (stillConfig true false) (stillFrame 1) w (entry, 0) =
      .ok w := by
    have hpt' : w.point entry.point = .ok pt :=
      point_eq_ok.mpr (List.getElem?_set_self (List.getElem?_eq_some_iff.mp hpt).1)
    unfold rescoreEntry
    rw [hpt']
    exact if_pos (by omega)
  refine ⟨w, e, u, ?_, hmiddle, ?_⟩
  · unfold processFrame
    rw [hmiddle]
    show (updateVisualMapPoints _ _ _ e.state u >>= _) = _
    rw [updateVisualMapPoints_singleton htotal hentry hobserve]
    show (updateReferencePatch _ _ _ w >>= _) = _
    have hw : updateReferencePatch stillLibs (stillConfig true false) (stillFrame 1) w = .ok w := by
      have htotal' : w.totalPoints ≠ 0 := htotal
      have hentry' : w.submap.entries = [entry] := hentry
      unfold updateReferencePatch
      rw [if_neg htotal', hentry']
      simp [hrescore]
    rw [hw]
    rfl
  · rintro (hzero | hseen)
    · exact htotal hzero
    · rcases hseen entry (by simp [hentry]) pt hpt with htrue | ⟨last', hlast', hadd'⟩
      · exact Bool.false_ne_true (hconv.symm.trans htrue)
      · obtain rfl : last = last' := by simpa [hlast] using hlast'
        exact hadd hadd'

/-- The camera that slides leaks nothing: each of its frames but the first retrieves the point and
sees it from the other side, until the point has converged and is pruned to one buffer. -/
theorem buffersExact_iff_slide :
    (slideTurns slideFrames).1.map (fun x => (x.post.totalPoints, x.post.liveBufs.card)) =
      [(0, 1), (1, 2), (1, 3), (1, 4), (1, 5), (1, 6), (1, 7), (1, 8), (1, 9), (1, 10), (1, 11),
        (1, 1)] ∧
    (slideTurns slideFrames).2.BuffersExact := by
  have hturns : (slideTurns slideFrames).1.map
        (fun x => (x.post.totalPoints, x.post.liveBufs.card)) =
      [(0, 1), (1, 2), (1, 3), (1, 4), (1, 5), (1, 6), (1, 7), (1, 8), (1, 9), (1, 10), (1, 11),
        (1, 1)] ∧
      ∀ x ∈ (slideTurns slideFrames).1,
        ∃ r, middleFrame slideLibs slideConfig x.event x.pre = .ok r ∧
          (r.1.totalPoints = 0 ∨ ∀ e ∈ r.1.submap.entries, ∃ pt ∈ r.1.points[e.point]?,
            pt.isConverged = true ∨ ∃ lastFeature ∈ pt.obs.getLast?,
              addFlag slideLibs r.1.newFrame (r.1.newFrame.w2c slideLibs pt.pos) lastFeature) := by
    decide +kernel
  obtain ⟨hshape, hseen⟩ := hturns
  have hrun : Exec (frameStep slideLibs slideConfig) {} _ (slideTurns slideFrames).2 :=
    Exec.of_trace _ _
  refine ⟨hshape, (buffersExact_iff hrun).mpr fun x hx u e hu => ?_⟩
  obtain ⟨r, hr, hall⟩ := hseen x hx
  obtain rfl : r = (u, e) := Except.ok.inj (hr.symm.trans hu)
  refine hall.imp_right fun hentries entry hentry pt hpt => ?_
  obtain ⟨pt', hpt', hanew⟩ := hentries entry hentry
  obtain rfl : pt' = pt := Option.mem_unique hpt' hpt
  exact hanew.imp_right fun ⟨lastFeature, hlast, hadd⟩ => ⟨lastFeature, hlast, hadd⟩

/-- A camera at rest leaks: its second frame allocates a patch for the point it retrieves, and then
finds that it need not keep it. -/
theorem buffers_not_exact : ¬∀ (L : VioLibs) (cfg : VioConfig)
    (tr : List (Turn VIOManager FrameInput VisualEkf)) (v : VIOManager),
    Exec (frameStep L cfg) {} tr v → v.BuffersExact := by
  intro hall
  obtain ⟨w, e, u, hw, hmiddle, hunseen⟩ := stillFrame_leaks
  have hfirst : Exec (frameStep stillLibs (stillConfig true false)) {} _
      (afterStill true false [stillFrame 11]) := Exec.of_trace _ _
  have hrun := hfirst.snoc (x := ⟨_, stillFrame 1, e, w⟩) hw
  obtain ⟨leaked, haudit, hiff⟩ := audit_of_run hrun
  have hnone := hiff.mp ((haudit.exact_iff hrun).mp (hall _ _ _ _ hrun))
  exact hunseen (hnone _ (List.mem_append_right _ (List.mem_singleton_self _)) u e hmiddle)

end VIOManager

end FastLivo2
