import Mathlib

/-!
# The best candidate so far

A loop that keeps the best candidate it has seen compares each new one with the one it keeps.
`Champion score l a` says that `a` is a candidate of `l` and that none of them scores higher;
`FirstChampion` adds that the ones before it score lower, which is what a strict comparison keeps,
and `LastChampion` that the ones after it do, which is what a comparison that takes equals keeps.

A loop may start from a threshold instead of a candidate, and then hold nothing: `Held` is for a
comparison that takes an equal newcomer, `HeldFirst` for a strict one.  The lemmas follow such a
loop as the list of candidates seen grows at its end.
-/

namespace FastLivo2

variable {α β : Type*} [LinearOrder β] {score : α → β} {l : List α} {a b : α}

/-- A candidate of maximal score. -/
structure Champion (score : α → β) (l : List α) (a : α) : Prop where
  mem : a ∈ l
  max : ∀ b ∈ l, score b ≤ score a

/-- The newcomer is no better: the champion stays. -/
lemma Champion.keep (h : Champion score l a) (hb : score b ≤ score a) :
    Champion score (l ++ [b]) a := by
  refine ⟨List.mem_append_left _ h.mem, fun c hc => ?_⟩
  rcases List.mem_append.mp hc with hc | hc
  · exact h.max c hc
  · rwa [List.mem_singleton.mp hc]

/-- The newcomer is at least as good: it is a champion. -/
lemma Champion.replace (h : Champion score l a) (hb : score a ≤ score b) :
    Champion score (l ++ [b]) b := by
  refine ⟨List.mem_append_right _ (List.mem_singleton_self b), fun c hc => ?_⟩
  rcases List.mem_append.mp hc with hc | hc
  · exact (h.max c hc).trans hb
  · rw [List.mem_singleton.mp hc]

lemma champion_singleton : Champion score [a] a :=
  ⟨List.mem_singleton_self a, fun b hb => by rw [List.mem_singleton.mp hb]⟩

/-- The earliest candidate of maximal score. -/
def FirstChampion (score : α → β) (l : List α) (a : α) : Prop :=
  ∃ l₁ l₂, l = l₁ ++ a :: l₂ ∧ (∀ b ∈ l₁, score b < score a) ∧ ∀ b ∈ l₂, score b ≤ score a

namespace FirstChampion

lemma champion (h : FirstChampion score l a) : Champion score l a := by
  obtain ⟨l₁, l₂, rfl, hbefore, hafter⟩ := h
  refine ⟨by simp, fun b hb => ?_⟩
  rcases List.mem_append.mp hb with hb | hb
  · exact (hbefore b hb).le
  rcases List.mem_cons.mp hb with rfl | hb
  · exact le_rfl
  · exact hafter b hb

lemma keep (h : FirstChampion score l a) (hb : score b ≤ score a) :
    FirstChampion score (l ++ [b]) a := by
  obtain ⟨l₁, l₂, rfl, hbefore, hafter⟩ := h
  refine ⟨l₁, l₂ ++ [b], by simp, hbefore, fun c hc => ?_⟩
  rcases List.mem_append.mp hc with hc | hc
  · exact hafter c hc
  · rwa [List.mem_singleton.mp hc]

end FirstChampion

lemma firstChampion_append (h : ∀ c ∈ l, score c < score b) : FirstChampion score (l ++ [b]) b :=
  ⟨l, [], rfl, h, fun _ hc => absurd hc (List.not_mem_nil)⟩

/-- The latest candidate of maximal score. -/
def LastChampion (score : α → β) (l : List α) (a : α) : Prop :=
  ∃ l₁ l₂, l = l₁ ++ a :: l₂ ∧ (∀ b ∈ l₁, score b ≤ score a) ∧ ∀ b ∈ l₂, score b < score a

namespace LastChampion

lemma champion (h : LastChampion score l a) : Champion score l a := by
  obtain ⟨l₁, l₂, rfl, hbefore, hafter⟩ := h
  refine ⟨by simp, fun b hb => ?_⟩
  rcases List.mem_append.mp hb with hb | hb
  · exact hbefore b hb
  rcases List.mem_cons.mp hb with rfl | hb
  · exact le_rfl
  · exact (hafter b hb).le

lemma keep (h : LastChampion score l a) (hb : score b < score a) :
    LastChampion score (l ++ [b]) a := by
  obtain ⟨l₁, l₂, rfl, hbefore, hafter⟩ := h
  refine ⟨l₁, l₂ ++ [b], by simp, hbefore, fun c hc => ?_⟩
  rcases List.mem_append.mp hc with hc | hc
  · exact hafter c hc
  · rwa [List.mem_singleton.mp hc]

/-- There is one latest champion. -/
lemma unique (ha : LastChampion score l a) (hb : LastChampion score l b) : a = b := by
  obtain ⟨l₁, l₂, rfl, hbefore, hafter⟩ := ha
  obtain ⟨m₁, m₂, heq, hbefore', hafter'⟩ := hb
  rcases List.append_eq_append_iff.mp heq with ⟨k, hm, hl⟩ | ⟨k, hl, hm⟩
  · cases k with
    | nil => exact (List.cons.inj hl).1
    | cons c k =>
        obtain ⟨rfl, rfl⟩ := List.cons.inj hl
        have hle := hbefore' a (by simp [hm])
        exact absurd (hafter b (by simp)) (not_lt.mpr hle)
  · cases k with
    | nil => exact (List.cons.inj hm).1.symm
    | cons c k =>
        obtain ⟨rfl, rfl⟩ := List.cons.inj hm
        have hle := hbefore b (by simp [hl])
        exact absurd (hafter' a (by simp)) (not_lt.mpr hle)

end LastChampion

lemma lastChampion_append (h : ∀ c ∈ l, score c ≤ score b) : LastChampion score (l ++ [b]) b :=
  ⟨l, [], rfl, h, fun _ hc => absurd hc (List.not_mem_nil)⟩

/-! ## From a threshold -/

/-- The score and the candidate held after `l`, when an equal newcomer is taken: the threshold and
nothing while every candidate is below it, then the last champion. -/
inductive Held (score : α → β) (start : β) (l : List α) : β → Option α → Prop
  | nothing (h : ∀ a ∈ l, score a < start) : Held score start l start none
  | candidate (a : α) (hstart : start ≤ score a) (h : LastChampion score l a) :
      Held score start l (score a) (some a)

namespace Held

variable {start best : β} {o : Option α}

lemma nil (score : α → β) (start : β) : Held score start [] start none :=
  .nothing fun _ ha => absurd ha (List.not_mem_nil)

lemma take (h : Held score start l best o) (hb : best ≤ score b) :
    Held score start (l ++ [b]) (score b) (some b) := by
  cases h with
  | nothing hlow =>
      exact .candidate b hb (lastChampion_append fun c hc => (hlow c hc).le.trans hb)
  | candidate a hstart hchampion =>
      refine .candidate b (hstart.trans hb) (lastChampion_append fun c hc => ?_)
      exact (hchampion.champion.max c hc).trans hb

lemma pass (h : Held score start l best o) (hb : score b < best) :
    Held score start (l ++ [b]) best o := by
  cases h with
  | nothing hlow =>
      refine .nothing fun c hc => ?_
      rcases List.mem_append.mp hc with hc | hc
      · exact hlow c hc
      · rwa [List.mem_singleton.mp hc]
  | candidate a hstart hchampion => exact .candidate a hstart (hchampion.keep hb)

/-- Something is held once a candidate has reached the threshold. -/
lemma isSome_iff (h : Held score start l best o) : o.isSome ↔ ∃ a ∈ l, start ≤ score a := by
  cases h with
  | nothing hlow =>
      refine ⟨fun hsome => absurd hsome (by simp), fun ⟨a, ha, hle⟩ => ?_⟩
      exact absurd hle (not_le.mpr (hlow a ha))
  | candidate a hstart hchampion =>
      exact ⟨fun _ => ⟨a, hchampion.champion.mem, hstart⟩, fun _ => rfl⟩

lemma lastChampion (h : Held score start l best (some a)) : LastChampion score l a := by
  cases h with
  | candidate _ _ hchampion => exact hchampion

end Held

/-- The score and the candidate held after `l` under a strict comparison: the threshold and nothing
while no candidate is above it, then the first champion. -/
inductive HeldFirst (score : α → β) (start : β) (l : List α) : β → Option α → Prop
  | nothing (h : ∀ a ∈ l, score a ≤ start) : HeldFirst score start l start none
  | candidate (a : α) (hstart : start < score a) (h : FirstChampion score l a) :
      HeldFirst score start l (score a) (some a)

namespace HeldFirst

variable {start best : β} {o : Option α}

lemma nil (score : α → β) (start : β) : HeldFirst score start [] start none :=
  .nothing fun _ ha => absurd ha (List.not_mem_nil)

lemma take (h : HeldFirst score start l best o) (hb : best < score b) :
    HeldFirst score start (l ++ [b]) (score b) (some b) := by
  cases h with
  | nothing hlow =>
      exact .candidate b hb (firstChampion_append fun c hc => (hlow c hc).trans_lt hb)
  | candidate a hstart hchampion =>
      refine .candidate b (hstart.trans hb) (firstChampion_append fun c hc => ?_)
      exact (hchampion.champion.max c hc).trans_lt hb

lemma pass (h : HeldFirst score start l best o) (hb : score b ≤ best) :
    HeldFirst score start (l ++ [b]) best o := by
  cases h with
  | nothing hlow =>
      refine .nothing fun c hc => ?_
      rcases List.mem_append.mp hc with hc | hc
      · exact hlow c hc
      · rwa [List.mem_singleton.mp hc]
  | candidate a hstart hchampion => exact .candidate a hstart (hchampion.keep hb)

lemma isSome_iff (h : HeldFirst score start l best o) : o.isSome ↔ ∃ a ∈ l, start < score a := by
  cases h with
  | nothing hlow =>
      refine ⟨fun hsome => absurd hsome (by simp), fun ⟨a, ha, hlt⟩ => ?_⟩
      exact absurd hlt (not_lt.mpr (hlow a ha))
  | candidate a hstart hchampion =>
      exact ⟨fun _ => ⟨a, hchampion.champion.mem, hstart⟩, fun _ => rfl⟩

lemma firstChampion (h : HeldFirst score start l best (some a)) : FirstChampion score l a := by
  cases h with
  | candidate _ _ hchampion => exact hchampion

end HeldFirst

end FastLivo2
