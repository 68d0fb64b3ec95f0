import FastLivo2.Lib.Exec

/-!
# Rings and bounded queues

A ring keeps a queue in a list of slots of fixed length.  Two counters run freely: item `i` of the
queue is in the slot `r + i`, taken modulo the number of slots, where `r` counts the items that have
left.  `Holds slots r l` says that the slots hold the queue `l`; `Holds.push` and `Holds.pop` are
the rules of its operations.

`Fifo.step` is a bounded queue as a machine, and `simulation` carries a machine over to another that
does the same step by step.
-/

namespace FastLivo2

variable {α : Type*} {slots : List α} {r : ℕ} {l : List α} {a : α}

/-! ## Rings -/

/-- The slots hold the queue `l`, of which the first item is the `r`-th that came. -/
structure Holds (slots : List α) (r : ℕ) (l : List α) : Prop where
  bounded : l.length ≤ slots.length
  slot : ∀ i < l.length, slots[(r + i) % slots.length]? = l[i]?

namespace Holds

lemma nil : Holds slots r [] := ⟨Nat.zero_le _, fun i hi => absurd hi (Nat.not_lt_zero i)⟩

/-- Two items of a queue are in different slots. -/
lemma slot_injective {n i j : ℕ} (hi : i < n) (hj : j < n) (h : (r + i) % n = (r + j) % n) :
    i = j := by
  have hmod : i ≡ j [MOD n] := Nat.ModEq.add_left_cancel' r h
  exact Nat.ModEq.eq_of_lt_of_lt hmod hi hj

/-- An item goes to the slot behind those of the queue, if there is one. -/
lemma push (h : Holds slots r l) (hroom : l.length < slots.length) :
    Holds (slots.set ((r + l.length) % slots.length) a) r (l ++ [a]) := by
  have hslot : (r + l.length) % slots.length < slots.length := Nat.mod_lt _ (by omega)
  refine ⟨?_, fun i hi => ?_⟩
  · rw [List.length_append, List.length_set]
    exact hroom
  · rw [List.length_append, List.length_singleton] at hi
    rw [List.length_set]
    obtain hlt | heq := Nat.lt_succ_iff_lt_or_eq.mp hi
    · have hne : (r + l.length) % slots.length ≠ (r + i) % slots.length := fun hc =>
        absurd (slot_injective hroom (hlt.trans hroom) hc) (by omega)
      rw [List.getElem?_set_ne hne, List.getElem?_append_left hlt]
      exact h.slot i hlt
    · rw [heq, List.getElem?_set_self hslot, List.getElem?_concat_length]

/-- The first item leaves its slot. -/
lemma pop (h : Holds slots r (a :: l)) :
    slots[r % slots.length]? = some a ∧ Holds slots (r + 1) l := by
  have hbounded := h.bounded
  rw [List.length_cons] at hbounded
  refine ⟨h.slot 0 (Nat.succ_pos _), by omega, fun i hi => ?_⟩
  have hslot := h.slot (i + 1) (by rw [List.length_cons]; omega)
  rwa [List.getElem?_cons_succ, show r + (i + 1) = r + 1 + i by omega] at hslot

end Holds

/-! ## Bounded queues -/

inductive FifoEvent (α : Type*)
  | push (a : α)
  | pop

namespace Fifo

/-- An item that finds the queue full is dropped; a pop hands out the oldest item. -/
def step (cap : ℕ) (l : List α) : FifoEvent α → Except Empty (List α × Option α)
  | .push a => .ok (if l.length < cap then l ++ [a] else l, none)
  | .pop => .ok (l.tail, l.head?)

end Fifo

/-! ## Simulation -/

variable {σ τ ε ε' ω ω' φ φ' : Type*} {step : σ → ε → Except φ (σ × ω)}
  {step' : τ → ε' → Except φ' (τ × ω')} {R : σ → τ → Prop} {E : ε → ε' → Prop} {O : ω → ω' → Prop}

/-- Two turns do the same. -/
structure TurnsAgree (R : σ → τ → Prop) (E : ε → ε' → Prop) (O : ω → ω' → Prop) (x : Turn σ ε ω)
    (y : Turn τ ε' ω') : Prop where
  pre : R x.pre y.pre
  event : E x.event y.event
  obs : O x.obs y.obs
  post : R x.post y.post

/-- **Simulation.**  If every step of a machine is matched by one of another, every run is. -/
theorem simulation {s t : σ} {u : τ} {tr : List (Turn σ ε ω)}
    (hstep : ∀ x : Turn σ ε ω, x.Taken step → ∀ v, R x.pre v →
      ∃ y : Turn τ ε' ω', y.pre = v ∧ y.Taken step' ∧ TurnsAgree R E O x y)
    (h : Exec step s tr t) (hs : R s u) :
    ∃ tr' v, Exec step' u tr' v ∧ R t v ∧ List.Forall₂ (TurnsAgree R E O) tr tr' := by
  induction h with
  | nil => exact ⟨[], u, .nil, hs, .nil⟩
  | snoc _ hx ih =>
      obtain ⟨tr', v, hexec, hR, hall⟩ := ih
      obtain ⟨y, rfl, hy, hagree⟩ := hstep _ hx v hR
      exact ⟨tr' ++ [y], y.post, hexec.snoc hy, hagree.post,
        List.rel_append hall (.cons hagree .nil)⟩

end FastLivo2
