import Mathlib

/-!
# Cutting a stream of timed items

Items arrive in batches, each item `a` with a time `tm a` of its own.  A *cut* at time `T` takes
one batch: it emits whatever the previous cut carried over together with the items of the
batch before `T`, and carries over the items of the batch from `T` on.  The carried items are
not compared with the next cut's time when they are emitted there.

Two facts describe the device completely.  `cut_perm`: whatever the times are, the emitted
items and the final carry are a rearrangement of what arrived, so nothing is lost or
duplicated.  `emitted_before_iff`: with cut times in order, every emission lies before its own
cut if and only if no batch reaches past the cut that follows it.
-/

namespace FastLivo2

/-- The time of a cut and the batch of items that arrives with it. -/
structure Cut (K α : Type*) where
  time : K
  batch : List α

namespace Cut

variable {K α : Type*} [LinearOrder K] (tm : α → K)

/-- The items of the batch before the cut. -/
def early (k : Cut K α) : List α := k.batch.filter fun a => tm a < k.time

/-- The items of the batch from the cut on. -/
def late (k : Cut K α) : List α := k.batch.filter fun a => k.time ≤ tm a

/-- What each cut of a sequence emits, `c` being carried into the first. -/
def emitted (c : List α) : List (Cut K α) → List (List α)
  | [] => []
  | k :: ks => (c ++ k.early tm) :: emitted (k.late tm) ks

/-- What is carried out of the last cut of a sequence. -/
def carry (c : List α) : List (Cut K α) → List α
  | [] => c
  | k :: ks => carry (k.late tm) ks

@[simp] lemma emitted_nil (c : List α) : emitted tm c [] = ([] : List (List α)) := rfl

@[simp] lemma carry_nil (c : List α) : carry tm c ([] : List (Cut K α)) = c := rfl

lemma emitted_snoc (c : List α) (ks : List (Cut K α)) (k : Cut K α) :
    emitted tm c (ks ++ [k]) = emitted tm c ks ++ [carry tm c ks ++ k.early tm] := by
  induction ks generalizing c with
  | nil => rfl
  | cons j ks ih => simp [emitted, carry, ih]

lemma carry_snoc (c : List α) (ks : List (Cut K α)) (k : Cut K α) :
    carry tm c (ks ++ [k]) = k.late tm := by
  induction ks generalizing c with
  | nil => rfl
  | cons j ks ih => simp [carry, ih]

/-! ## Conservation -/

lemma early_append_late_perm (k : Cut K α) : (k.early tm ++ k.late tm).Perm k.batch := by
  have hlate : k.late tm = k.batch.filter fun a => !decide (tm a < k.time) := by
    unfold late
    refine List.filter_congr fun a _ => ?_
    rw [← decide_not, decide_eq_decide]
    exact not_lt.symm
  rw [early, hlate]
  exact List.filter_append_perm _ _

/-- **Conservation.**  What was emitted and what is still carried is what was carried in and
what arrived, in some order. -/
theorem cut_perm (c : List α) (ks : List (Cut K α)) :
    ((emitted tm c ks).flatten ++ carry tm c ks).Perm (c ++ ks.flatMap Cut.batch) := by
  induction ks generalizing c with
  | nil => simp
  | cons k ks ih =>
      have hks := ih (k.late tm)
      simp only [emitted, carry, List.flatten_cons, List.flatMap_cons, List.append_assoc]
      refine List.Perm.append_left c ?_
      calc k.early tm ++ ((emitted tm (k.late tm) ks).flatten ++ carry tm (k.late tm) ks)
        _ |>.Perm (k.early tm ++ (k.late tm ++ ks.flatMap Cut.batch)) := hks.append_left _
        _ = (k.early tm ++ k.late tm) ++ ks.flatMap Cut.batch := by rw [List.append_assoc]
        _ |>.Perm (k.batch ++ ks.flatMap Cut.batch) :=
            (early_append_late_perm tm k).append_right _

/-! ## Where the emissions lie -/

/-- The items of an emission lie before the cut. -/
def Before (k : Cut K α) (e : List α) : Prop := ∀ a ∈ e, tm a < k.time

/-- No item that arrives with the first cut reaches the second. -/
def EndsBefore (j k : Cut K α) : Prop := ∀ a ∈ j.batch, tm a < k.time

lemma le_of_mem_late {k : Cut K α} {a : α} (h : a ∈ k.late tm) : k.time ≤ tm a := by
  simpa using List.of_mem_filter h

lemma before_early (k : Cut K α) : Before tm k (k.early tm) := by
  intro a ha
  simpa using List.of_mem_filter ha

lemma before_late_iff {j k : Cut K α} (h : j.time ≤ k.time) :
    Before tm k (j.late tm) ↔ EndsBefore tm j k := by
  refine ⟨fun hlate a ha => ?_, fun hend a ha => hend a (List.mem_of_mem_filter ha)⟩
  rcases lt_or_ge (tm a) j.time with hlt | hge
  · exact hlt.trans_le h
  · exact hlate a (List.mem_filter.mpr ⟨ha, by simpa using hge⟩)

lemma forall₂_before_emitted_iff (c : List α) (ks : List (Cut K α))
    (hks : ks.IsChain fun j k => j.time ≤ k.time) :
    List.Forall₂ (Before tm) ks (emitted tm c ks) ↔
      (∀ k ∈ ks.head?, Before tm k c) ∧ ks.IsChain (EndsBefore tm) := by
  induction ks generalizing c with
  | nil => simp
  | cons k ks ih =>
      rw [List.isChain_cons] at hks
      have hhead : (∀ k' ∈ ks.head?, Before tm k' (k.late tm)) ↔
          ∀ k' ∈ ks.head?, EndsBefore tm k k' :=
        forall₂_congr fun k' hk' => before_late_iff tm (hks.1 k' hk')
      have hcarry : Before tm k (c ++ k.early tm) ↔ Before tm k c := by
        refine ⟨fun h a ha => h a (List.mem_append_left _ ha), fun h a ha => ?_⟩
        rcases List.mem_append.mp ha with ha | ha
        · exact h a ha
        · exact before_early tm k a ha
      rw [emitted, List.forall₂_cons, ih _ hks.2, List.isChain_cons, hhead, hcarry]
      simp

/-- **Emissions lie before their cuts exactly when no batch outlasts the next cut.** -/
theorem emitted_before_iff (ks : List (Cut K α)) (hks : ks.IsChain fun j k => j.time ≤ k.time) :
    List.Forall₂ (Before tm) ks (emitted tm [] ks) ↔ ks.IsChain (EndsBefore tm) := by
  rw [forall₂_before_emitted_iff tm [] ks hks]
  simp [Before]

end Cut

end FastLivo2
