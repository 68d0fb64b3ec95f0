import Mathlib

/-!
# Two descending loops with one iterator

An outer loop goes through keys; for each, an inner loop goes down a list, from its end, as long as
the element under the iterator is *late* for the key, and touches the elements it passes.  The
iterator is not set back between two keys.  At the first element it cannot go down: that element is
touched, and stays under the iterator for the next key (`outer`).

On a list along which lateness grows, each element but the first is touched for the first key it is
late for, and the first element for every such key (`outer_eq`).  Run on elements that note the keys
they are touched for, the loops tell which those are (`uses`), whatever touching does to an element
as long as it does not change when it is late.

A single loop that goes down until its iterator is at the first element, and stops there, touches
all others and leaves that one out (`sweep`).
-/

namespace FastLivo2.Backward

variable {α κ : Type*}

section Loops

variable (late : κ → α → Prop) [∀ k a, Decidable (late k a)] (touch : κ → α → α)

/-- The inner loop.  The elements not yet passed are a list with the one under the iterator in
front; those passed are put back in order. -/
def inner (k : κ) : List α → List α → List α × List α
  | [], done => ([], done)
  | [a], done => if late k a then ([touch k a], done) else ([a], done)
  | a :: b :: rest, done =>
      if late k a then inner k (b :: rest) (touch k a :: done) else (a :: b :: rest, done)

/-- Both loops, on the keys in the order of the outer one. -/
def outer (ks : List κ) (l : List α) : List α :=
  let (ahead, done) := ks.foldl (fun it k => inner late touch k it.1 it.2) (l.reverse, [])
  ahead.reverse ++ done

/-- An element that is passed is touched for the first key it is late for. -/
def settle (ks : List κ) (a : α) : α :=
  match ks.find? fun k => late k a with
  | some k => touch k a
  | none => a

end Loops

variable {late : κ → α → Prop} [∀ k a, Decidable (late k a)] {touch : κ → α → α}

/-! ## What the loops do -/

/-- The inner loop passes the late elements; the first element of the list is touched in place. -/
lemma inner_eq (k : κ) (a : α) : ∀ (front done : List α),
    (∀ b ∈ front, late k a → late k b) →
    inner late touch k (front ++ [a]) done =
      (front.dropWhile (fun b => late k b) ++ [if late k a then touch k a else a],
        ((front.takeWhile fun b => late k b).map (touch k)).reverse ++ done)
  | [], done, _ => by
      by_cases ha : late k a <;> simp [inner, ha]
  | b :: front, done, hlate => by
      have hne : ∃ c rest, front ++ [a] = c :: rest := by
        cases front with
        | nil => exact ⟨a, [], rfl⟩
        | cons c front => exact ⟨c, front ++ [a], rfl⟩
      obtain ⟨c, rest, hcons⟩ := hne
      rw [List.cons_append, hcons, inner]
      by_cases hb : late k b
      · rw [if_pos hb, ← hcons,
          inner_eq k a front _ fun c hc => hlate c (List.mem_cons_of_mem b hc)]
        simp [hb]
      · have ha : ¬ late k a := fun ha => hb (hlate b (List.mem_cons_self ..) ha)
        rw [if_neg hb, ← hcons]
        simp [hb, ha]

/-- Past an element that is not late no element is. -/
lemma not_late_of_mem_dropWhile {k : κ} : ∀ {front : List α},
    front.Pairwise (fun b c => late k c → late k b) →
    ∀ b ∈ front.dropWhile (fun b => late k b), ¬ late k b
  | [], _, b, hb => by simp at hb
  | c :: front, hpair, b, hb => by
      obtain ⟨hhead, htail⟩ := List.pairwise_cons.mp hpair
      by_cases hc : late k c
      · rw [List.dropWhile_cons_of_pos (by simpa using hc)] at hb
        exact not_late_of_mem_dropWhile htail b hb
      · rw [List.dropWhile_cons_of_neg (by simpa using hc)] at hb
        intro hlate
        obtain rfl | hmem := List.mem_cons.mp hb
        · exact hc hlate
        · exact hc (hhead b hmem hlate)

/-- Both loops, from any place of the iterator. -/
lemma foldl_inner_eq (htouch : ∀ k k' a, late k (touch k' a) ↔ late k a) :
    ∀ (ks : List κ) (front : List α) (a : α) (done : List α),
      (∀ k, (front ++ [a]).Pairwise fun b c => late k c → late k b) →
      ∃ rest done', ks.foldl (fun it k => inner late touch k it.1 it.2) (front ++ [a], done) =
          (rest ++ [(ks.filter fun k => late k a).foldl (fun a k => touch k a) a], done') ∧
        rest.reverse ++ done' = (front.map (settle late touch ks)).reverse ++ done
  | [], front, a, done, _ => ⟨front, done, rfl, by
      have hid : settle late touch [] = id := rfl
      rw [hid, List.map_id]⟩
  | k :: ks, front, a, done, hmono => by
      have hfront : ∀ k, front.Pairwise (fun b c => late k c → late k b) ∧
          ∀ b ∈ front, late k a → late k b := by
        intro k
        obtain ⟨hpair, -, hlast⟩ := List.pairwise_append.mp (hmono k)
        exact ⟨hpair, fun b hb => hlast b hb a (List.mem_singleton_self a)⟩
      have ha : ∀ k', late k' (if late k a then touch k a else a) ↔ late k' a := by
        intro k'
        split_ifs
        · exact htouch k' k a
        · exact Iff.rfl
      have hnext : ∀ k', (front.dropWhile (fun b => late k b) ++
          [if late k a then touch k a else a]).Pairwise fun b c => late k' c → late k' b := by
        intro k'
        obtain ⟨hpair, hlast⟩ := hfront k'
        have hsub := List.dropWhile_sublist (l := front) fun b => late k b
        refine List.pairwise_append.mpr ⟨hpair.sublist hsub, List.pairwise_singleton _ _, ?_⟩
        intro b hb c hc hlate
        rw [List.mem_singleton.mp hc, ha] at hlate
        exact hlast b (hsub.subset hb) hlate
      obtain ⟨rest, done', hfold, hrest⟩ := foldl_inner_eq htouch ks _ _
        (((front.takeWhile fun b => late k b).map (touch k)).reverse ++ done) hnext
      refine ⟨rest, done', ?_, ?_⟩
      · rw [List.foldl_cons, inner_eq k a front done (hfront k).2, hfold]
        have hfilter : (ks.filter fun k' => late k' (if late k a then touch k a else a)) =
            ks.filter fun k' => late k' a := by
          simp only [ha]
        rw [hfilter]
        by_cases hlate : late k a <;> simp [hlate]
      · have hpassed : (front.takeWhile fun b => late k b).map (settle late touch (k :: ks)) =
            (front.takeWhile fun b => late k b).map (touch k) := by
          apply List.map_congr_left
          intro b hb
          have hlate : late k b := by simpa using List.mem_takeWhile_imp hb
          simp [settle, hlate]
        have hleft : (front.dropWhile fun b => late k b).map (settle late touch (k :: ks)) =
            (front.dropWhile fun b => late k b).map (settle late touch ks) := by
          apply List.map_congr_left
          intro b hb
          simp [settle, not_late_of_mem_dropWhile (hfront k).1 b hb]
        rw [hrest, ← List.takeWhile_append_dropWhile (p := fun b => late k b) (l := front),
          List.map_append, hpassed, hleft, List.takeWhile_append_dropWhile, List.reverse_append,
          List.append_assoc]

/-- **The two loops.**  On a list along which lateness grows, each element but the first is touched
for the first key it is late for, and the first element for every such key. -/
theorem outer_eq (htouch : ∀ k k' a, late k (touch k' a) ↔ late k a) (ks : List κ) (a : α)
    (l : List α) (hmono : ∀ k, (a :: l).Pairwise fun b c => late k b → late k c) :
    outer late touch ks (a :: l) =
      (ks.filter fun k => late k a).foldl (fun a k => touch k a) a ::
        l.map (settle late touch ks) := by
  have hmono' : ∀ k, (l.reverse ++ [a]).Pairwise fun b c => late k c → late k b := by
    intro k
    rw [← List.reverse_cons, List.pairwise_reverse]
    exact hmono k
  obtain ⟨rest, done, hfold, hrest⟩ := foldl_inner_eq htouch ks l.reverse a [] hmono'
  rw [outer, List.reverse_cons, hfold]
  simp only [List.reverse_append, List.reverse_cons, List.reverse_nil, List.nil_append,
    List.cons_append]
  rw [hrest, List.map_reverse, List.reverse_reverse, List.append_nil]

@[simp] lemma outer_nil (ks : List κ) : outer late touch ks [] = [] := by
  have hfold : ks.foldl (fun it k => inner late touch k it.1 it.2) ([], []) = ([], []) := by
    induction ks with
    | nil => rfl
    | cons k ks ih => exact ih
  rw [outer, List.reverse_nil, hfold]
  rfl

/-- Keys may be tagged. -/
lemma outer_map {κ' : Type*} (f : κ' → κ) (ks : List κ') (l : List α) :
    outer late touch (ks.map f) l =
      outer (fun k => late (f k)) (fun k => touch (f k)) ks l := by
  have hinner : ∀ (k : κ') (ahead done : List α), inner late touch (f k) ahead done =
      inner (fun k => late (f k)) (fun k => touch (f k)) k ahead done := by
    intro k ahead
    induction ahead with
    | nil => exact fun done => rfl
    | cons a ahead ih =>
        intro done
        cases ahead with
        | nil => rfl
        | cons b rest =>
            rw [inner, inner]
            split_ifs
            · exact ih _
            · rfl
  rw [outer, outer, List.foldl_map]
  simp only [hinner]

/-! ## Which keys an element is touched for -/

/-- An element notes a key. -/
def note (k : κ) (u : α × List κ) : α × List κ := (u.1, u.2 ++ [k])

section Uses

variable (late)

/-- The loops, run on elements that note the keys they are touched for. -/
def uses (ks : List κ) (l : List α) : List (α × List κ) :=
  outer (fun k (u : α × List κ) => late k u.1) note ks (l.map fun a => (a, []))

end Uses

lemma foldl_note (ks : List κ) (a : α) (noted : List κ) :
    ks.foldl (fun u k => note k u) (a, noted) = (a, noted ++ ks) := by
  induction ks generalizing noted with
  | nil => simp
  | cons k ks ih => rw [List.foldl_cons, note, ih, List.append_assoc, List.singleton_append]

@[simp] lemma uses_nil (ks : List κ) : uses late ks [] = [] := by
  rw [uses, List.map_nil, outer_nil]

theorem uses_cons (ks : List κ) (a : α) (l : List α)
    (hmono : ∀ k, (a :: l).Pairwise fun b c => late k b → late k c) :
    uses late ks (a :: l) = (a, ks.filter fun k => late k a) ::
      l.map fun b => (b, (ks.find? fun k => late k b).toList) := by
  have hmono' : ∀ k, ((a, []) :: l.map fun b => (b, ([] : List κ))).Pairwise
      fun b c => late k b.1 → late k c.1 := by
    intro k
    have hmap := List.pairwise_map (f := fun b => (b, ([] : List κ)))
      (R := fun b c => late k b.1 → late k c.1) (l := a :: l)
    exact hmap.mpr (hmono k)
  have houter := @outer_eq (α × List κ) κ (fun k u => late k u.1) _ note (fun _ _ _ => Iff.rfl) ks
    (a, []) (l.map fun b => (b, [])) hmono'
  rw [uses, List.map_cons, houter, foldl_note, List.nil_append, List.map_map]
  congr 1
  apply List.map_congr_left
  intro b _
  simp only [Function.comp, settle]
  cases ks.find? fun k => late k b with
  | none => rfl
  | some k => rfl

/-- Every element is what it was, touched for the keys it has noted. -/
theorem outer_eq_uses (htouch : ∀ k k' a, late k (touch k' a) ↔ late k a) (ks : List κ)
    (l : List α) (hmono : ∀ k, l.Pairwise fun b c => late k b → late k c) :
    outer late touch ks l =
      (uses late ks l).map fun u => u.2.foldl (fun a k => touch k a) u.1 := by
  cases l with
  | nil =>
      rw [uses_nil, outer_nil]
      rfl
  | cons a l =>
      rw [outer_eq htouch ks a l hmono, uses_cons ks a l hmono, List.map_cons, List.map_map]
      congr 1
      apply List.map_congr_left
      intro b _
      simp only [Function.comp, settle]
      cases ks.find? fun k => late k b <;> rfl

/-- On keys in ascending order, the first of the reversed list that an element is late for is the
greatest. -/
lemma le_of_find?_reverse {β : Type*} [LinearOrder β] {f : κ → β} {p : κ → Bool} {ks : List κ}
    {k : κ} (hsorted : ks.Pairwise fun a b => f a ≤ f b) (hk : ks.reverse.find? p = some k) :
    ∀ k' ∈ ks, p k' = true → f k' ≤ f k := by
  intro k' hk' hp
  obtain ⟨-, before, after, hsplit, hbefore⟩ := List.find?_eq_some_iff_append.mp hk
  have hreverse : ks.reverse.Pairwise fun a b => f b ≤ f a := List.pairwise_reverse.mpr hsorted
  rw [hsplit] at hreverse
  have hmem : k' ∈ before ++ k :: after := hsplit ▸ List.mem_reverse.mpr hk'
  obtain hmem | hmem := List.mem_append.mp hmem
  · have hnot := hbefore k' hmem
    simp [hp] at hnot
  · obtain rfl | hmem := List.mem_cons.mp hmem
    · exact le_rfl
    · exact List.rel_of_pairwise_cons (List.pairwise_append.mp hreverse).2.1 hmem

/-! ## One loop that stops at the first element -/

/-- The loop runs while the iterator is not at the first element.  The elements are as in
`inner`. -/
def sweep (touch : α → α) : List α → List α → List α
  | [], done => done
  | [a], done => a :: done
  | a :: b :: rest, done => sweep touch (b :: rest) (touch a :: done)

section Sweep

variable {touch : α → α} {a : α} {l : List α}

lemma sweep_append (touch : α → α) (a : α) : ∀ front done : List α,
    sweep touch (front ++ [a]) done = a :: ((front.map touch).reverse ++ done)
  | [], done => rfl
  | [b], done => rfl
  | b :: c :: front, done => by
      have hrest := sweep_append touch a (c :: front) (touch b :: done)
      rw [List.map_cons, List.reverse_cons, List.append_assoc, List.singleton_append]
      exact hrest

/-- All elements but the first are touched. -/
lemma sweep_reverse (touch : α → α) (a : α) (l : List α) :
    sweep touch (a :: l).reverse [] = a :: l.map touch := by
  rw [List.reverse_cons, sweep_append, List.append_nil, ← List.map_reverse, List.reverse_reverse]

/-- **What the loop leaves out.**  It comes to touching every element, in whatever order these were
given, exactly if there is nothing about the first to touch. -/
theorem sweep_perm_iff {l' : List α} (h : l'.Perm (a :: l)) :
    (sweep touch (a :: l).reverse []).Perm (l'.map touch) ↔ touch a = a := by
  have hall : (l'.map touch).Perm (touch a :: l.map touch) := h.map touch
  rw [sweep_reverse]
  constructor
  · intro hperm
    have hsame := Multiset.coe_eq_coe.mpr (hperm.trans hall)
    rw [← Multiset.cons_coe, ← Multiset.cons_coe] at hsame
    exact ((Multiset.cons_inj_left _).mp hsame).symm
  · intro hfirst
    rw [hfirst] at hall
    exact hall.symm

end Sweep

end FastLivo2.Backward
