import Mathlib

/-!
# Descent with a late check

A loop improves a state step by step.  A turn looks at the error of the state it finds: when that
has not grown it remembers the state and takes a step, otherwise it goes back to the state it
remembers and stops; a small step stops the loop as well.

The state a step leads to is judged by the next turn only, so the step the loop stops after is never
judged.  Every other outcome is a state whose error has been compared (`descend_noGreater_iff`), and
what the loop has looked at says nothing about the error of that one (`forall_noGreater_iff`).
-/

namespace FastLivo2

/-- What the loop is given: the error of a state, if it has one, the step from a state, and whether
that step is small. -/
structure Descent (σ β : Type*) where
  error : σ → Option β
  step : σ → σ
  small : σ → Bool

/-- One error does not exceed another; nothing is said where one is missing. -/
def NoGreater {β : Type*} [LE β] (a b : Option β) : Prop := ∀ x ∈ a, ∀ y ∈ b, x ≤ y

lemma noGreater_refl {β : Type*} [Preorder β] (a : Option β) : NoGreater a a := by
  intro x hx y hy
  exact (Option.mem_unique hx hy).le

namespace Descent

variable {σ β : Type*} [LinearOrder β] (D : Descent σ β)

/-- The loop with `n` turns left, the state remembered and its error. -/
def run : ℕ → σ → σ → WithTop β → σ
  | 0, s, _, _ => s
  | n + 1, s, old, last =>
      match D.error s with
      | none => old
      | some e =>
          if (e : WithTop β) ≤ last then
            if D.small s then D.step s else run n (D.step s) s e
          else old

/-- The loop, for at most `max` turns. -/
def descend (max : ℕ) (s : σ) : σ := D.run max s s ⊤

/-- The state after `n` steps. -/
def iter (s : σ) (n : ℕ) : σ := D.step^[n] s

/-- Turn `n` accepts the state it finds after `n` steps. -/
def Accepts (s : σ) : ℕ → Prop
  | 0 => ∃ e, D.error s = some e
  | n + 1 => ∃ e e', D.error (D.iter s n) = some e ∧ D.error (D.iter s (n + 1)) = some e' ∧ e' ≤ e

/-- Turn `n` is reached: every turn before it accepts and takes a step that is not small. -/
def Reaches (s : σ) (n : ℕ) : Prop := ∀ k < n, D.Accepts s k ∧ D.small (D.iter s k) = false

/-- The loop stops after the step of turn `n`: the step is small, or the turn is the last. -/
structure EndsAfter (max : ℕ) (s : σ) (n : ℕ) : Prop where
  lt : n < max
  reaches : D.Reaches s n
  accepts : D.Accepts s n
  ends : D.small (D.iter s n) = true ∨ n + 1 = max

/-- The error turn `n` compares with. -/
def lastError (s : σ) : ℕ → WithTop β
  | 0 => ⊤
  | n + 1 => (D.error (D.iter s n)).elim ⊤ WithTop.some

variable {D} {s : σ} {n max : ℕ}

omit [LinearOrder β] in
@[simp] lemma iter_zero (s : σ) : D.iter s 0 = s := rfl

omit [LinearOrder β] in
lemma iter_succ (s : σ) (n : ℕ) : D.iter s (n + 1) = D.step (D.iter s n) :=
  Function.iterate_succ_apply' D.step n s

lemma Accepts.error (h : D.Accepts s n) : ∃ e, D.error (D.iter s n) = some e := by
  cases n with
  | zero => exact h
  | succ n =>
      obtain ⟨-, e', -, he', -⟩ := h
      exact ⟨e', he'⟩

lemma Reaches.succ (h : D.Reaches s n) (haccepts : D.Accepts s n)
    (hsmall : D.small (D.iter s n) = false) : D.Reaches s (n + 1) := by
  intro k hk
  rcases Nat.lt_succ_iff_lt_or_eq.mp hk with hlt | rfl
  · exact h k hlt
  · exact ⟨haccepts, hsmall⟩

lemma Reaches.of_succ (h : D.Reaches s (n + 1)) : D.Reaches s n := fun k hk => h k (by omega)

/-! ## One turn -/

lemma run_accept (h : D.Accepts s n) (k : ℕ) (old : σ) :
    D.run (k + 1) (D.iter s n) old (D.lastError s n) =
      if D.small (D.iter s n) then D.iter s (n + 1)
      else D.run k (D.iter s (n + 1)) (D.iter s n) (D.lastError s (n + 1)) := by
  obtain ⟨e, he⟩ := h.error
  have hle : (e : WithTop β) ≤ D.lastError s n := by
    cases n with
    | zero => exact le_top
    | succ n =>
        obtain ⟨e₀, e', he₀, he', hle⟩ := h
        obtain rfl : e = e' := Option.some.inj (he.symm.trans he')
        rw [lastError, he₀]
        exact WithTop.coe_le_coe.mpr hle
  have hlast : D.lastError s (n + 1) = e := by
    rw [lastError, he]
    rfl
  rw [hlast, iter_succ, run, he]
  exact if_pos hle

lemma run_reject (hreaches : D.Reaches s n) (h : ¬D.Accepts s n) (k : ℕ) (old : σ) :
    D.run (k + 1) (D.iter s n) old (D.lastError s n) = old := by
  rw [run]
  cases he : D.error (D.iter s n) with
  | none => rfl
  | some e =>
      cases n with
      | zero => exact absurd ⟨e, he⟩ h
      | succ n =>
          obtain ⟨e₀, he₀⟩ := (hreaches n (by omega)).1.error
          have hlast : D.lastError s (n + 1) = e₀ := by
            rw [lastError, he₀]
            rfl
          rw [hlast]
          refine if_neg fun hle => h ⟨e₀, e, he₀, he, ?_⟩
          exact WithTop.coe_le_coe.mp hle

/-! ## The turns reached -/

/-- A loop that reaches turn `n` stands there with the state after `n` steps, and remembers the one
before. -/
lemma run_of_reaches (h : D.Reaches s n) (k : ℕ) :
    D.descend (k + n) s = D.run k (D.iter s n) (D.iter s (n - 1)) (D.lastError s n) := by
  induction n generalizing k with
  | zero => rfl
  | succ n ih =>
      obtain ⟨haccepts, hsmall⟩ := h n (by omega)
      rw [show k + (n + 1) = (k + 1) + n by omega, ih h.of_succ, run_accept haccepts,
        if_neg (by simp [hsmall])]
      rfl

/-- A turn that rejects its state restores the one before, the first turn the state it was given. -/
theorem descend_of_reject (hreaches : D.Reaches s n) (hlt : n < max) (h : ¬D.Accepts s n) :
    D.descend max s = D.iter s (n - 1) := by
  obtain ⟨k, rfl⟩ : ∃ k, max = (k + 1) + n := ⟨max - n - 1, by omega⟩
  rw [run_of_reaches hreaches, run_reject hreaches h]

/-- The loop gives the state after the step it stops after. -/
theorem EndsAfter.descend (h : D.EndsAfter max s n) : D.descend max s = D.iter s (n + 1) := by
  obtain ⟨k, rfl⟩ : ∃ k, max = (k + 1) + n := ⟨max - n - 1, by have := h.lt; omega⟩
  rw [run_of_reaches h.reaches, run_accept h.accepts]
  split_ifs with hsmall
  · rfl
  · have hlast := h.ends.resolve_left hsmall
    obtain rfl : k = 0 := by omega
    rfl

/-- Either some turn rejects its state, or the loop stops after a step. -/
theorem reject_or_endsAfter (D : Descent σ β) (s : σ) (hmax : 0 < max) :
    (∃ n < max, D.Reaches s n ∧ ¬D.Accepts s n) ∨ ∃ n, D.EndsAfter max s n := by
  have hturns : ∀ n ≤ max, D.Reaches s n ∨
      (∃ n < max, D.Reaches s n ∧ ¬D.Accepts s n) ∨ ∃ n, D.EndsAfter max s n := by
    intro n
    induction n with
    | zero => exact fun _ => .inl fun k hk => absurd hk (Nat.not_lt_zero k)
    | succ n ih =>
        intro hn
        refine (ih (by omega)).elim (fun hreaches => ?_) .inr
        by_cases haccepts : D.Accepts s n
        · by_cases hsmall : D.small (D.iter s n) = true
          · exact .inr (.inr ⟨n, by omega, hreaches, haccepts, .inl hsmall⟩)
          · exact .inl (hreaches.succ haccepts (eq_false_of_ne_true hsmall))
        · exact .inr (.inl ⟨n, by omega, hreaches, haccepts⟩)
  rcases hturns max le_rfl with hreaches | h
  · obtain ⟨n, rfl⟩ := Nat.exists_eq_succ_of_ne_zero hmax.ne'
    exact .inr ⟨n, by omega, hreaches.of_succ, (hreaches n (by omega)).1, .inr rfl⟩
  · exact h

/-! ## The error at the end -/

/-- The errors accepted on the way do not grow. -/
lemma noGreater_of_reaches (hreaches : D.Reaches s n) (h : D.Accepts s n) :
    NoGreater (D.error (D.iter s n)) (D.error s) := by
  induction n with
  | zero => exact noGreater_refl _
  | succ n ih =>
      intro x hx y hy
      obtain ⟨e, e', he, he', hle⟩ := h
      obtain rfl : x = e' := Option.mem_unique hx he'
      exact hle.trans (ih hreaches.of_succ (hreaches n (by omega)).1 e he y hy)

/-- **The error of the result.**  It does not exceed that of the first state exactly when the step
the loop stops after, if there is one, does not lead above it. -/
theorem descend_noGreater_iff (D : Descent σ β) (s : σ) (hmax : 0 < max) :
    NoGreater (D.error (D.descend max s)) (D.error s) ↔
      ∀ n, D.EndsAfter max s n → NoGreater (D.error (D.iter s (n + 1))) (D.error s) := by
  constructor
  · intro h n hn
    rwa [← hn.descend]
  · intro h
    rcases reject_or_endsAfter D s hmax with ⟨n, hlt, hreaches, hreject⟩ | ⟨n, hn⟩
    · rw [descend_of_reject hreaches hlt hreject]
      cases n with
      | zero => exact noGreater_refl _
      | succ n => exact noGreater_of_reaches hreaches.of_succ (hreaches n (by omega)).1
    · rw [hn.descend]
      exact h n hn

/-! ## What the loop looks at -/

/-- The same steps on other errors. -/
def withError (D : Descent σ β) (error : σ → Option β) : Descent σ β := { D with error := error }

/-- Errors that are the loop's own wherever it looks. -/
def SeenAs (D : Descent σ β) (max : ℕ) (s : σ) (error : σ → Option β) : Prop :=
  ∀ n < max, D.Reaches s n → error (D.iter s n) = D.error (D.iter s n)

/-- A step the loop stops after leads back to a state it has looked at. -/
def Judged (D : Descent σ β) (max : ℕ) (s : σ) : Prop :=
  ∀ n, D.EndsAfter max s n → ∃ k ≤ n, D.iter s (n + 1) = D.iter s k

section SeenAs

variable {error : σ → Option β}

omit [LinearOrder β] in
lemma withError_iter (D : Descent σ β) (error : σ → Option β) (s : σ) (n : ℕ) :
    (D.withError error).iter s n = D.iter s n := rfl

lemma SeenAs.accepts_iff (h : D.SeenAs max s error) (hlt : n < max) (hreaches : D.Reaches s n) :
    (D.withError error).Accepts s n ↔ D.Accepts s n := by
  have hn : (D.withError error).error (D.iter s n) = D.error (D.iter s n) := h n hlt hreaches
  cases n with
  | zero => exact exists_congr fun e => by rw [← iter_zero (D := D) s, hn]
  | succ n =>
      have hbefore : (D.withError error).error (D.iter s n) = D.error (D.iter s n) :=
        h n (by omega) hreaches.of_succ
      simp only [Accepts, withError_iter, hn, hbefore]

lemma SeenAs.reaches_iff (h : D.SeenAs max s error) (hle : n ≤ max) :
    (D.withError error).Reaches s n ↔ D.Reaches s n := by
  induction n with
  | zero => exact ⟨fun _ k hk => absurd hk (Nat.not_lt_zero k), fun _ k hk =>
      absurd hk (Nat.not_lt_zero k)⟩
  | succ n ih =>
      have hlt : n < max := by omega
      constructor
      · intro hreaches
        have hr := (ih hlt.le).mp hreaches.of_succ
        obtain ⟨haccepts, hsmall⟩ := hreaches n (Nat.lt_succ_self n)
        exact hr.succ ((h.accepts_iff hlt hr).mp haccepts) hsmall
      · intro hreaches
        have hr := hreaches.of_succ
        obtain ⟨haccepts, hsmall⟩ := hreaches n (Nat.lt_succ_self n)
        exact ((ih hlt.le).mpr hr).succ ((h.accepts_iff hlt hr).mpr haccepts) hsmall

lemma SeenAs.endsAfter_iff (h : D.SeenAs max s error) :
    (D.withError error).EndsAfter max s n ↔ D.EndsAfter max s n := by
  constructor
  · intro he
    have hr := (h.reaches_iff he.lt.le).mp he.reaches
    exact ⟨he.lt, hr, (h.accepts_iff he.lt hr).mp he.accepts, he.ends⟩
  · intro he
    have hr := (h.reaches_iff he.lt.le).mpr he.reaches
    exact ⟨he.lt, hr, (h.accepts_iff he.lt he.reaches).mpr he.accepts, he.ends⟩

end SeenAs

/-- A loop that stops looks no farther than the turn it stops after. -/
lemma EndsAfter.le_of_reaches {k : ℕ} (h : D.EndsAfter max s n) (hk : k < max)
    (hreaches : D.Reaches s k) : k ≤ n := by
  by_contra hgt
  rcases h.ends with hsmall | hlast
  · rw [(hreaches n (by omega)).2] at hsmall
    cases hsmall
  · omega

/-- A step that leads back to a state the loop has looked at leads to no larger error. -/
lemma Judged.noGreater (h : D.Judged max s) (hmax : 0 < max) :
    NoGreater (D.error (D.descend max s)) (D.error s) := by
  refine (D.descend_noGreater_iff s hmax).mpr fun n hn => ?_
  obtain ⟨k, hk, heq⟩ := h n hn
  rw [heq]
  rcases hk.lt_or_eq with hlt | rfl
  · exact noGreater_of_reaches (fun j hj => hn.reaches j (hj.trans hlt)) (hn.reaches k hlt).1
  · exact noGreater_of_reaches hn.reaches hn.accepts

/-- **What the loop knows.**  Whatever the errors are where the loop does not look, the result is no
worse than the first state, exactly when the step the loop stops after, if there is one, leads back
to a state it has looked at. -/
theorem forall_noGreater_iff [NoMaxOrder β] (D : Descent σ β) (s : σ) (hmax : 0 < max) :
    (∀ error, D.SeenAs max s error →
        NoGreater (error ((D.withError error).descend max s)) (error s)) ↔ D.Judged max s := by
  classical
  constructor
  · intro h n hn
    by_contra hnone
    push Not at hnone
    obtain ⟨e, he⟩ : ∃ e, D.error s = some e := by
      rcases Nat.eq_zero_or_pos n with rfl | hpos
      · exact hn.accepts
      · exact (hn.reaches 0 hpos).1
    obtain ⟨e', hlt⟩ := exists_gt e
    let error := Function.update D.error (D.iter s (n + 1)) (some e')
    have hseen : D.SeenAs max s error := by
      intro k hk hreaches
      exact Function.update_of_ne (hnone k (hn.le_of_reaches hk hreaches)).symm _ _
    have hlast : error ((D.withError error).descend max s) = some e' := by
      rw [(hseen.endsAfter_iff.mpr hn).descend]
      exact Function.update_self _ _ _
    have hfirst : error s = some e :=
      (hseen 0 hmax fun k hk => absurd hk (Nat.not_lt_zero k)).trans he
    exact absurd (h error hseen e' hlast e hfirst) (not_le.mpr hlt)
  · intro h error hseen
    have hjudged : (D.withError error).Judged max s := fun n hn =>
      h n (hseen.endsAfter_iff.mp hn)
    exact hjudged.noGreater hmax

end Descent

end FastLivo2
