import Mathlib

/-!
# Windows of a time-ordered stream

`window key a b l` is the part of the stream `l` whose keys lie in `(a, b]`.  On a stream with
strictly increasing keys windows of adjacent intervals join without loss or overlap
(`window_append`), and popping from the front while the key does not exceed `b` splits off
exactly the elements up to `b` (`popUpTo_fst`, `popUpTo_snd`).

`Sliced` is the invariant of a consumer that takes such windows off the front while the stream
still grows: `Sliced.first`, `Sliced.arrive` and `Sliced.cut` are its rules.
-/

namespace FastLivo2

variable {α K : Type*} [LinearOrder K] (key : α → K)

/-- The elements with key in `(a, b]`. -/
def window (a b : K) (l : List α) : List α := l.filter fun m => a < key m ∧ key m ≤ b

/-- The elements with key beyond `b`. -/
def beyond (b : K) (l : List α) : List α := l.filter fun m => b < key m

/-- The keys of the stream are strictly increasing. -/
def Increasing (l : List α) : Prop := l.Pairwise fun m n => key m < key n

lemma mem_window {a b : K} {l : List α} {m : α} :
    m ∈ window key a b l ↔ m ∈ l ∧ a < key m ∧ key m ≤ b := by
  simp [window]

lemma Increasing.window {a b : K} {l : List α} (h : Increasing key l) :
    Increasing key (window key a b l) := h.filter _

lemma beyond_eq_self {b : K} {l : List α} (h : ∀ m ∈ l, b < key m) : beyond key b l = l := by
  simpa [beyond] using h

/-- The loop that pops from the front while the key does not exceed `b`. -/
def popUpTo (b : K) : List α → List α × List α
  | [] => ([], [])
  | m :: l => if b < key m then ([], m :: l) else (m :: (popUpTo b l).1, (popUpTo b l).2)

lemma popUpTo_append (b : K) (l : List α) : (popUpTo key b l).1 ++ (popUpTo key b l).2 = l := by
  induction l with
  | nil => rfl
  | cons m l ih =>
      unfold popUpTo
      split_ifs <;> simp [ih]

lemma key_le_of_mem_popUpTo {b : K} {l : List α} {m : α} (h : m ∈ (popUpTo key b l).1) :
    key m ≤ b := by
  induction l with
  | nil => cases h
  | cons n l ih =>
      unfold popUpTo at h
      split_ifs at h with hb
      · cases h
      · rcases List.mem_cons.mp h with rfl | h
        · exact not_lt.mp hb
        · exact ih h

/-- In a stream with increasing keys, everything after an element beyond `b` is beyond `b`. -/
lemma Increasing.lt_of_mem {b : K} {m : α} {l : List α} (h : Increasing key (m :: l))
    (hb : b < key m) : ∀ n ∈ m :: l, b < key n := by
  intro n hn
  rcases List.mem_cons.mp hn with rfl | hn
  · exact hb
  · exact hb.trans ((List.pairwise_cons.mp h).1 n hn)

lemma popUpTo_snd {b : K} {l : List α} (h : Increasing key l) :
    (popUpTo key b l).2 = beyond key b l := by
  induction l with
  | nil => rfl
  | cons m l ih =>
      unfold popUpTo
      split_ifs with hb
      · exact (beyond_eq_self key (h.lt_of_mem key hb)).symm
      · rw [ih (List.pairwise_cons.mp h).2]
        simp [beyond, hb]

lemma popUpTo_fst {b : K} {l : List α} (h : Increasing key l) :
    (popUpTo key b l).1 = l.filter fun m => key m ≤ b := by
  induction l with
  | nil => rfl
  | cons m l ih =>
      unfold popUpTo
      split_ifs with hb
      · refine (List.filter_eq_nil_iff.mpr fun n hn => ?_).symm
        simpa using h.lt_of_mem key hb n hn
      · rw [ih (List.pairwise_cons.mp h).2]
        simp [not_lt.mp hb]

/-- **Adjacent windows join.** -/
theorem window_append {a b c : K} {l : List α} (h : Increasing key l) (hab : a ≤ b)
    (hbc : b ≤ c) : window key a b l ++ window key b c l = window key a c l := by
  induction l with
  | nil => rfl
  | cons m l ih =>
      rcases le_or_gt (key m) b with hmb | hmb
      · -- `m` can only be in the first window, and is in it exactly when it is in the joint one
        have hsecond : window key b c (m :: l) = window key b c l := by
          simp [window, not_lt.mpr hmb]
        have hjoint : ∀ {e : K}, b ≤ e → window key a e (m :: l) =
            if a < key m then m :: window key a e l else window key a e l := by
          intro e he
          simp only [window, List.filter_cons, hmb.trans he, and_true, decide_eq_true_eq]
        rw [hsecond, hjoint le_rfl, hjoint hbc, ← ih (List.pairwise_cons.mp h).2]
        split_ifs <;> rfl
      · -- past `b` the first window is exhausted: every later key is larger still
        have hpast := h.lt_of_mem key hmb
        have hfirst : window key a b (m :: l) = [] :=
          List.filter_eq_nil_iff.mpr fun n hn => by simp [not_le.mpr (hpast n hn)]
        rw [hfirst, List.nil_append]
        refine List.filter_congr fun n hn => ?_
        simp [hpast n hn, hab.trans_lt (hpast n hn)]

/-! ## Slicing a stream as it arrives

The stream `arrived` grows at its end while slices are delivered from its front.  A slice is
taken at `c` by popping up to `c` and keeping what lies beyond some lower bound; as long as
that bound does not exceed the end of the slice before, the slices put together are one
window. -/

/-- Everything from `a` to `b` has been delivered, everything beyond `b` still waits, and the
stream has reached `b`. -/
structure Sliced (a b : K) (arrived delivered waiting : List α) : Prop where
  delivered : delivered = window key a b arrived
  waiting : waiting = beyond key b arrived
  lt : a < b
  reached : ∃ m ∈ arrived, b ≤ key m

lemma filter_popUpTo {a b : K} {l : List α} (h : Increasing key l) :
    (popUpTo key b l).1.filter (fun m => a < key m) = window key a b l := by
  rw [popUpTo_fst key h, List.filter_filter, window]
  refine List.filter_congr fun m _ => ?_
  simp

/-- The first slice. -/
lemma Sliced.first {a b : K} {arrived : List α} (h : Increasing key arrived) (hab : a < b)
    (hreached : ∃ m ∈ arrived, b ≤ key m) :
    Sliced key a b arrived ((popUpTo key b arrived).1.filter fun m => a < key m)
      (popUpTo key b arrived).2 :=
  ⟨filter_popUpTo key h, popUpTo_snd key h, hab, hreached⟩

section Sliced

variable {key} {a b : K} {arrived delivered waiting : List α}

/-- An element arrives. -/
lemma Sliced.arrive (h : Sliced key a b arrived delivered waiting) {m : α}
    (hinc : Increasing key (arrived ++ [m])) :
    Sliced key a b (arrived ++ [m]) delivered (waiting ++ [m]) := by
  obtain ⟨n, hn, hbn⟩ := h.reached
  -- it comes after an element that has reached the end of the last slice
  have hlt : key n < key m := (List.pairwise_append.mp hinc).2.2 n hn m (by simp)
  have hbm : b < key m := hbn.trans_lt hlt
  refine ⟨?_, ?_, h.lt, ⟨n, List.mem_append_left _ hn, hbn⟩⟩
  · rw [h.delivered, window, window, List.filter_append]
    simp [not_le.mpr hbm]
  · rw [h.waiting, beyond, beyond, List.filter_append]
    simp [hbm]

/-- The next slice is taken. -/
lemma Sliced.cut (h : Sliced key a b arrived delivered waiting) (hinc : Increasing key arrived)
    {low c : K} (hlow : low ≤ b) (hbc : b ≤ c) (hreached : ∃ m ∈ arrived, c ≤ key m) :
    Sliced key a c arrived (delivered ++ (popUpTo key c waiting).1.filter fun m => low < key m)
      (popUpTo key c waiting).2 := by
  have hwaiting : Increasing key waiting := by
    rw [h.waiting]
    exact hinc.filter _
  refine ⟨?_, ?_, h.lt.trans_le hbc, hreached⟩
  · have hslice : window key low c waiting = window key b c arrived := by
      rw [h.waiting, window, window, beyond, List.filter_filter]
      refine List.filter_congr fun m _ => ?_
      simp only [decide_eq_decide, ← Bool.decide_and]
      exact ⟨fun hm => ⟨hm.2, hm.1.2⟩, fun hm => ⟨⟨hlow.trans_lt hm.1, hm.2⟩, hm.1⟩⟩
    rw [filter_popUpTo key hwaiting, hslice, h.delivered, window_append key hinc h.lt.le hbc]
  · rw [popUpTo_snd key hwaiting, h.waiting, beyond, beyond, beyond, List.filter_filter]
    refine List.filter_congr fun m _ => ?_
    simp only [decide_eq_decide, ← Bool.decide_and]
    exact ⟨fun hm => hm.1, fun hm => ⟨hm, hbc.trans_lt hm⟩⟩

/-- What is delivered arrived, in this order. -/
lemma Sliced.sublist (h : Sliced key a b arrived delivered waiting) :
    delivered.Sublist arrived := by
  rw [h.delivered]
  exact List.filter_sublist

/-- Nothing between the two ends was left out. -/
lemma Sliced.mem_delivered (h : Sliced key a b arrived delivered waiting) {m : α}
    (hm : m ∈ arrived) (ha : a < key m) (hb : key m ≤ b) : m ∈ delivered := by
  rw [h.delivered]
  exact (mem_window key).mpr ⟨hm, ha, hb⟩

end Sliced

end FastLivo2
