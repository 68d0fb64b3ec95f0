import Mathlib

/-!
# Replaying timed samples

A state is advanced through samples, each by the time since the sample before it.  `replay` does
so from a snapshot, through a whole log.  An observer that follows the log instead advances its own
state by one sample as it comes; `Follows` says that it has seen some samples, each once and in
order.  Its state is then the replay of those samples (`Follows.state_eq`), so the two agree as
long as no sample is missed.
-/

namespace FastLivo2

variable {K σ α : Type*} (advance : K → σ → α → σ) (tm : α → K)

/-- Advance a state that is valid at a time through samples, each by the time since the one
before. -/
def replay [Sub K] : K → σ → List α → σ
  | _, s, [] => s
  | t, s, a :: l => replay (tm a) (advance (tm a - t) s a) l

/-- The time of the last sample, or where the replay starts. -/
def lastTime : K → List α → K
  | t, [] => t
  | _, a :: l => lastTime (tm a) l

@[simp] lemma replay_nil [Sub K] (t : K) (s : σ) : replay advance tm t s [] = s := rfl

@[simp] lemma lastTime_nil (t : K) : lastTime tm t [] = t := rfl

lemma replay_append [Sub K] (t : K) (s : σ) (l l' : List α) :
    replay advance tm t s (l ++ l') =
      replay advance tm (lastTime tm t l) (replay advance tm t s l) l' := by
  induction l generalizing t s with
  | nil => rfl
  | cons a l ih => exact ih _ _

lemma lastTime_append (t : K) (l l' : List α) :
    lastTime tm t (l ++ l') = lastTime tm (lastTime tm t l) l' := by
  induction l generalizing t with
  | nil => rfl
  | cons a l ih => exact ih _

/-- An observer that started from the snapshot `s` at the time `t` has seen `seen`, each sample once
and in order: `live` is its state and `clock` the time it is valid at. -/
inductive Follows [Sub K] (t : K) (s : σ) : List α → σ → K → Prop
  | start : Follows t s [] s t
  | next {seen : List α} {live : σ} {clock : K} (a : α) (before : Follows t s seen live clock) :
      Follows t s (seen ++ [a]) (advance (tm a - clock) live a) (tm a)

namespace Follows

variable {advance tm} [Sub K] {t clock : K} {s live : σ} {seen : List α}

/-- What an observer sees, a replay sees. -/
theorem state_eq (h : Follows advance tm t s seen live clock) :
    live = replay advance tm t s seen ∧ clock = lastTime tm t seen := by
  induction h with
  | start => exact ⟨rfl, rfl⟩
  | next a _ ih =>
      obtain ⟨rfl, rfl⟩ := ih
      rw [replay_append, lastTime_append]
      exact ⟨rfl, rfl⟩

/-- A replay brings an observer up to date. -/
theorem of_replay (h : Follows advance tm t s seen live clock) (l : List α) :
    Follows advance tm t s (seen ++ l) (replay advance tm clock live l) (lastTime tm clock l) := by
  induction l generalizing seen live clock with
  | nil => rwa [List.append_nil]
  | cons a l ih =>
      rw [List.append_cons]
      exact ih (h.next a)

end Follows

/-- In a log that is in order, what remains after dropping the samples before a time are those from
it on. -/
lemma dropWhile_eq_filter [LinearOrder K] {l : List α} (h : l.Pairwise fun a b => tm a ≤ tm b)
    (t : K) : (l.dropWhile fun a => decide (tm a < t)) = l.filter fun a => decide (t ≤ tm a) := by
  induction l with
  | nil => rfl
  | cons a l ih =>
      obtain ⟨hle, hl⟩ := List.pairwise_cons.mp h
      by_cases ha : tm a < t
      · rw [List.dropWhile_cons_of_pos (by simpa using ha), ih hl,
          List.filter_cons_of_neg (by simpa using ha)]
      · rw [List.dropWhile_cons_of_neg (by simpa using ha)]
        symm
        apply List.filter_eq_self.mpr
        intro b hb
        rcases List.mem_cons.mp hb with rfl | hb
        · simpa using ha
        · simpa using (not_lt.mp ha).trans (hle b hb)

end FastLivo2
