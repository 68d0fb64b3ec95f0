import FastLivo2.Lib.Custody
import FastLivo2.Lib.Fold
import FastLivo2.Lib.Ledger
import FastLivo2.VisualFrame

/-!
# The observations of a visual point

What a frame can do to one point: choose its reference among its observations (`setRef`), drop all
observations but the reference (`deleteNonRefPatchFeatures`), drop one and add one (`evict`,
`addFrameRef`), and compute scores, means and a new reference (`rescore`).  Each operation has one
lemma that says what becomes of the list of observations and of the reference.

`VisualPoint.Wf` is what holds of every point in every configuration: its observations are of
different frames and are different objects, there are at most thirty, and the reference is one of
them exactly when the point says that it has one.
-/

namespace FastLivo2

/-! ## Features without their scores -/

/-- A feature without the two values `updateReferencePatch` writes into it. -/
def Feature.core (ftr : Feature) : Feature := { ftr with score := some 0, mean := 0 }

lemma map_set_eq_map {α β : Type*} {f : α → β} {l : List α} {i : ℕ} {a b : α} (h : l[i]? = some b)
    (hab : f a = f b) : (l.set i a).map f = l.map f := by
  refine List.ext_getElem? fun j => ?_
  rw [List.getElem?_map, List.getElem?_map, List.getElem?_set]
  by_cases hij : i = j
  · subst hij
    rw [if_pos rfl, if_pos (List.getElem?_eq_some_iff.mp h).1, h]
    simp [hab]
  · rw [if_neg hij]

lemma map_core_set {l : List Feature} {i : ℕ} {ftr g : Feature} (h : l[i]? = some g)
    (hcore : ftr.core = g.core) : (l.set i ftr).map Feature.core = l.map Feature.core :=
  map_set_eq_map h hcore

namespace VisualPoint

variable {pt pt' : VisualPoint} {ftr : Feature}

/-- The features of a point without their scores. -/
def cores (pt : VisualPoint) : List Feature := pt.obs.map Feature.core

lemma ids_eq_map_cores : pt.ids = pt.cores.map Feature.id := by
  simp [ids, cores, Function.comp_def, Feature.core]

lemma addrs_eq_map_cores : pt.addrs = pt.cores.map Feature.addr := by
  simp [addrs, cores, Function.comp_def, Feature.core]

lemma bufs_eq_map_cores : pt.bufs = pt.cores.map fun ftr => ftr.patch.buf := by
  simp [bufs, cores, Function.comp_def, Feature.core]

lemma length_eq_length_cores : pt.obs.length = pt.cores.length := by simp [cores]

/-! ## Deletions -/

@[simp] lemma deleteFeatureRef_obs : (pt.deleteFeatureRef ftr).1.obs =
    pt.obs.eraseP fun g => decide (g.addr = ftr.addr) := by
  unfold deleteFeatureRef
  split_ifs <;> rfl

@[simp] lemma deleteFeatureRef_isConverged :
    (pt.deleteFeatureRef ftr).1.isConverged = pt.isConverged := by
  unfold deleteFeatureRef
  split_ifs <;> rfl

@[simp] lemma deleteFeatureRef_normal : (pt.deleteFeatureRef ftr).1.normal = pt.normal := by
  unfold deleteFeatureRef
  split_ifs <;> rfl

@[simp] lemma deleteFeatureRef_pos : (pt.deleteFeatureRef ftr).1.pos = pt.pos := by
  unfold deleteFeatureRef
  split_ifs <;> rfl

/-- The reference stays unless it is the feature deleted. -/
lemma deleteFeatureRef_ref (pt : VisualPoint) (ftr : Feature) :
    (pt.refPatch = .to ftr.addr ∧ (pt.deleteFeatureRef ftr).1.refPatch = .nullptr ∧
      (pt.deleteFeatureRef ftr).1.hasRefPatch = false) ∨
    (pt.refPatch ≠ .to ftr.addr ∧ (pt.deleteFeatureRef ftr).1.refPatch = pt.refPatch ∧
      (pt.deleteFeatureRef ftr).1.hasRefPatch = pt.hasRefPatch) := by
  unfold deleteFeatureRef
  by_cases h : pt.refPatch = .to ftr.addr <;> simp [h]

/-- The buffers of a point are those it keeps and those freed. -/
lemma deleteFeatureRef_bufs : ((pt.bufs : Multiset ℕ)) =
    (pt.deleteFeatureRef ftr).1.bufs + ((pt.deleteFeatureRef ftr).2 : Multiset ℕ) := by
  have hfreed : (pt.deleteFeatureRef ftr).2 =
      (pt.obs.find? fun g => decide (g.addr = ftr.addr)).toList.map fun g => g.patch.buf := by
    unfold deleteFeatureRef
    split_ifs <;> rfl
  rw [hfreed, Multiset.coe_add, Multiset.coe_eq_coe]
  have hperm := (perm_find_append_eraseP (fun g => decide (g.addr = ftr.addr)) pt.obs).map
    fun g : Feature => g.patch.buf
  rw [List.map_append] at hperm
  simpa [bufs] using hperm.trans List.perm_append_comm

lemma deleteNonRefPatchFeatures_bufs : ((pt.bufs : Multiset ℕ)) =
    pt.deleteNonRefPatchFeatures.1.bufs + (pt.deleteNonRefPatchFeatures.2 : Multiset ℕ) := by
  have hperm := (List.filter_append_perm (fun g : Feature => decide (pt.refPatch = .to g.addr))
    pt.obs).map fun g : Feature => g.patch.buf
  rw [List.map_append] at hperm
  rw [Multiset.coe_add, Multiset.coe_eq_coe]
  exact hperm.symm

/-- The feature of least score is one of the point's. -/
lemma findMinScoreFeature_mem (h : pt.findMinScoreFeature = .ok ftr) : ftr ∈ pt.obs := by
  unfold findMinScoreFeature at h
  split at h
  · cases h
  · rename_i first rest hobs
    have hfold : ∀ (l : List Feature), (∀ g ∈ l, g ∈ pt.obs) → ∀ it : WithTop ℚ × Feature,
        it.2 ∈ pt.obs → (l.foldl (fun (it : WithTop ℚ × Feature) g =>
          if g.score.below it.1 then ((g.score.getD 0 : ℚ), g) else it) it).2 ∈ pt.obs := by
      intro l hl it hit
      refine (foldl_rule (P := fun l (it : WithTop ℚ × Feature) =>
        (∀ g ∈ l, g ∈ pt.obs) ∧ it.2 ∈ pt.obs) ?_ ⟨hl, hit⟩).2
      rintro g l it ⟨hl, hit⟩
      refine ⟨fun a ha => hl a (List.mem_cons_of_mem g ha), ?_⟩
      split_ifs
      · exact hl g (by simp)
      · exact hit
    obtain rfl := Except.ok.inj h
    exact hfold _ (fun g hg => hg) _ (by simp [hobs])

end VisualPoint

/-! ## Eviction -/

/-- What `updateVisualMapPoints` does to a full point. -/
lemma evict_cases {pt pt' : VisualPoint} {freed : List ℕ}
    (h : VIOManager.evict pt = .ok (pt', freed)) :
    (pt.obs.length < 30 ∧ pt' = pt ∧ freed = []) ∨
    (30 ≤ pt.obs.length ∧ ∃ ftr ∈ pt.obs,
      pt' = (pt.deleteFeatureRef ftr).1 ∧ freed = (pt.deleteFeatureRef ftr).2) := by
  unfold VIOManager.evict at h
  split_ifs at h with hfull
  · obtain ⟨ftr, hftr, hpt⟩ := vio_bind_eq_ok.mp h
    obtain hpair : pt.deleteFeatureRef ftr = (pt', freed) := Except.ok.inj hpt
    exact .inr ⟨hfull, ftr, VisualPoint.findMinScoreFeature_mem hftr, by rw [hpair], by rw [hpair]⟩
  · obtain ⟨rfl, rfl⟩ : pt = pt' ∧ [] = freed := by simpa [pure, Except.pure] using h
    exact .inl ⟨not_le.mp hfull, rfl, rfl⟩

namespace VisualPoint

variable {pt pt' : VisualPoint} {ftr : Feature} {freed : List ℕ}

lemma evict_bufs (h : VIOManager.evict pt = .ok (pt', freed)) :
    (pt.bufs : Multiset ℕ) = pt'.bufs + (freed : Multiset ℕ) := by
  rcases evict_cases h with ⟨-, rfl, rfl⟩ | ⟨-, ftr, -, rfl, rfl⟩
  · simp
  · exact deleteFeatureRef_bufs

lemma evict_sublist (h : VIOManager.evict pt = .ok (pt', freed)) : pt'.obs.Sublist pt.obs := by
  rcases evict_cases h with ⟨-, rfl, -⟩ | ⟨-, ftr, -, rfl, -⟩
  · exact List.Sublist.refl _
  · rw [deleteFeatureRef_obs]
    exact List.eraseP_sublist

/-- A point that was not too full has room for one more observation. -/
lemma evict_length (h : VIOManager.evict pt = .ok (pt', freed)) (hlen : pt.obs.length ≤ 30) :
    pt'.obs.length < 30 := by
  rcases evict_cases h with ⟨hlt, rfl, -⟩ | ⟨-, ftr, hftr, rfl, -⟩
  · exact hlt
  · rw [deleteFeatureRef_obs, List.length_eraseP_of_mem hftr (by simp)]
    omega

/-! ## What holds of every point -/

/-- The observations of a point that was born under the counters `frames` and `ftrs`. -/
structure Wf (frames ftrs : ℕ) (pt : VisualPoint) : Prop where
  ids_nodup : pt.ids.Nodup
  ids_lt : ∀ id ∈ pt.ids, id < frames
  addrs_nodup : pt.addrs.Nodup
  addrs_lt : ∀ addr ∈ pt.addrs, addr < ftrs
  length_le : pt.obs.length ≤ 30
  ref_mem : pt.hasRefPatch = true → ∃ addr ∈ pt.addrs, pt.refPatch = .to addr
  ref_flag : ∀ addr, pt.refPatch = .to addr → pt.hasRefPatch = true

namespace Wf

variable {frames ftrs : ℕ}

lemma mono {frames' ftrs' : ℕ} (h : pt.Wf frames ftrs) (hf : frames ≤ frames')
    (hp : ftrs ≤ ftrs') : pt.Wf frames' ftrs' :=
  { h with
    ids_lt := fun id hid => (h.ids_lt id hid).trans_le hf
    addrs_lt := fun addr ha => (h.addrs_lt addr ha).trans_le hp }

/-- A point just born, with its first observation. -/
lemma born (hobs : pt.obs = [ftr]) (href : pt.hasRefPatch = false)
    (hptr : pt.refPatch = .unassigned) (hid : ftr.id < frames) (haddr : ftr.addr < ftrs) :
    pt.Wf frames ftrs where
  ids_nodup := by simp [ids, hobs]
  ids_lt := by simpa [ids, hobs] using hid
  addrs_nodup := by simp [addrs, hobs]
  addrs_lt := by simpa [addrs, hobs] using haddr
  length_le := by simp [hobs]
  ref_mem := by simp [href]
  ref_flag := by simp [hptr]

lemma setRef (h : pt.Wf frames ftrs) (hftr : ftr ∈ pt.obs) : (pt.setRef ftr).Wf frames ftrs :=
  { h with
    ref_mem := fun _ => ⟨ftr.addr, List.mem_map_of_mem hftr, rfl⟩
    ref_flag := fun _ _ => rfl }

/-- Some observations are dropped, and the reference is kept unless it is lost. -/
lemma of_sublist (h : pt.Wf frames ftrs) (hsub : pt'.obs.Sublist pt.obs)
    (hmem : pt'.hasRefPatch = true → ∃ addr ∈ pt'.addrs, pt'.refPatch = .to addr)
    (hflag : ∀ addr, pt'.refPatch = .to addr → pt'.hasRefPatch = true) : pt'.Wf frames ftrs where
  ids_nodup := h.ids_nodup.sublist (hsub.map Feature.id)
  ids_lt := fun id hid => h.ids_lt id ((hsub.map Feature.id).subset hid)
  addrs_nodup := h.addrs_nodup.sublist (hsub.map Feature.addr)
  addrs_lt := fun addr ha => h.addrs_lt addr ((hsub.map Feature.addr).subset ha)
  length_le := hsub.length_le.trans h.length_le
  ref_mem := hmem
  ref_flag := hflag

lemma deleteFeatureRef (h : pt.Wf frames ftrs) (ftr : Feature) :
    (pt.deleteFeatureRef ftr).1.Wf frames ftrs := by
  refine h.of_sublist (by rw [deleteFeatureRef_obs]; exact List.eraseP_sublist) ?_ ?_
  · intro href
    rcases pt.deleteFeatureRef_ref ftr with ⟨-, -, hnone⟩ | ⟨hne, hptr, hflag⟩
    · rw [hnone] at href
      cases href
    · obtain ⟨addr, haddr, heq⟩ := h.ref_mem (hflag ▸ href)
      obtain ⟨g, hg, rfl⟩ := List.mem_map.mp haddr
      have hother : ¬ g.addr = ftr.addr := fun hsame => hne (by rw [heq, hsame])
      refine ⟨g.addr, List.mem_map_of_mem ?_, by rw [hptr, heq]⟩
      rw [deleteFeatureRef_obs]
      exact (List.mem_eraseP_of_neg (by simpa using hother)).mpr hg
  · intro addr hto
    rcases pt.deleteFeatureRef_ref ftr with ⟨-, hnull, -⟩ | ⟨-, hptr, hflag⟩
    · rw [hnull] at hto
      cases hto
    · rw [hflag]
      exact h.ref_flag addr (hptr ▸ hto)

lemma deleteNonRefPatchFeatures (h : pt.Wf frames ftrs) :
    pt.deleteNonRefPatchFeatures.1.Wf frames ftrs := by
  refine h.of_sublist List.filter_sublist ?_ h.ref_flag
  intro href
  obtain ⟨addr, haddr, heq⟩ := h.ref_mem href
  obtain ⟨g, hg, rfl⟩ := List.mem_map.mp haddr
  exact ⟨g.addr, List.mem_map_of_mem (List.mem_filter.mpr ⟨hg, by simpa using heq⟩), heq⟩

lemma evict (h : pt.Wf frames ftrs) (hev : VIOManager.evict pt = .ok (pt', freed)) :
    pt'.Wf frames ftrs := by
  rcases evict_cases hev with ⟨-, rfl, -⟩ | ⟨-, ftr, -, rfl, -⟩
  · exact h
  · exact h.deleteFeatureRef ftr

/-- A new observation, of another frame than all the others. -/
lemma addFrameRef (h : pt.Wf frames ftrs) (hlen : pt.obs.length < 30) (hnew : ftr.id ∉ pt.ids)
    (hid : ftr.id < frames) (haddr : ftr.addr = ftrs) :
    (pt.addFrameRef ftr).Wf frames (ftrs + 1) where
  ids_nodup := List.nodup_cons.mpr ⟨hnew, h.ids_nodup⟩
  ids_lt := by
    intro id hmem
    rcases List.mem_cons.mp hmem with rfl | hmem
    · exact hid
    · exact h.ids_lt id hmem
  addrs_nodup := by
    refine List.nodup_cons.mpr ⟨fun hmem => ?_, h.addrs_nodup⟩
    have hlt := h.addrs_lt _ hmem
    omega
  addrs_lt := by
    intro addr hmem
    rcases List.mem_cons.mp hmem with rfl | hmem
    · omega
    · have hlt := h.addrs_lt _ hmem
      omega
  length_le := by
    show (ftr :: pt.obs).length ≤ 30
    rw [List.length_cons]
    omega
  ref_mem := by
    intro href
    obtain ⟨addr, hmem, heq⟩ := h.ref_mem href
    exact ⟨addr, List.mem_cons_of_mem _ hmem, heq⟩
  ref_flag := h.ref_flag

/-- Scores and means are written, and a member may become the reference. -/
lemma of_cores (h : pt.Wf frames ftrs) (hcores : pt'.cores = pt.cores)
    (href : (pt'.refPatch = pt.refPatch ∧ pt'.hasRefPatch = pt.hasRefPatch) ∨
      (pt'.hasRefPatch = true ∧ ∃ addr ∈ pt.addrs, pt'.refPatch = .to addr)) :
    pt'.Wf frames ftrs := by
  have hids : pt'.ids = pt.ids := by rw [ids_eq_map_cores, hcores, ← ids_eq_map_cores]
  have haddrs : pt'.addrs = pt.addrs := by rw [addrs_eq_map_cores, hcores, ← addrs_eq_map_cores]
  have hlen : pt'.obs.length = pt.obs.length := by
    rw [length_eq_length_cores, hcores, ← length_eq_length_cores]
  refine ⟨hids ▸ h.ids_nodup, hids ▸ h.ids_lt, haddrs ▸ h.addrs_nodup, haddrs ▸ h.addrs_lt,
    hlen ▸ h.length_le, ?_, ?_⟩
  · intro hhas
    rw [haddrs]
    rcases href with ⟨hptr, hflag⟩ | ⟨-, hmem⟩
    · rw [hptr]
      exact h.ref_mem (hflag ▸ hhas)
    · exact hmem
  · intro addr hto
    rcases href with ⟨hptr, hflag⟩ | ⟨hflag, -⟩
    · rw [hflag]
      exact h.ref_flag addr (hptr ▸ hto)
    · exact hflag

end Wf

end VisualPoint

end FastLivo2
