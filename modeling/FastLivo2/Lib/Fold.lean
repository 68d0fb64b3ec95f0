import Mathlib

/-!
# Loops over a list

Rules for loops written as folds.  What a loop keeps may speak of the elements it has still to
visit, so that a fact about each of them can be used up in its turn (`foldlM_rule`, and
`foldl_rule` where no turn faults).  A loop that may fault is followed along a run that does not.
-/

namespace FastLivo2

variable {α σ φ : Type*}

/-- **Loop rule.**  What each turn carries from the elements ahead to those ahead of the next is
carried to the end of a loop that returns. -/
theorem foldlM_rule {P : List α → σ → Prop} {f : σ → α → Except φ σ}
    (hstep : ∀ a l s t, P (a :: l) s → f s a = .ok t → P l t) :
    ∀ {l : List α} {s t : σ}, l.foldlM f s = .ok t → P l s → P [] t
  | [], s, t, h, hs => by
      obtain rfl : s = t := by simpa [pure, Except.pure] using h
      exact hs
  | a :: l, s, t, h, hs => by
      rw [List.foldlM_cons] at h
      cases hf : f s a with
      | error e => simp [hf, bind, Except.bind] at h
      | ok u =>
          rw [hf] at h
          exact foldlM_rule hstep h (hstep a l s u hs hf)

/-- What every turn keeps, a loop that returns keeps. -/
theorem foldlM_invariant {I : σ → Prop} {f : σ → α → Except φ σ} {l : List α} {s t : σ}
    (hstep : ∀ a ∈ l, ∀ s t, I s → f s a = .ok t → I t) (h : l.foldlM f s = .ok t) (hs : I s) :
    I t := by
  refine (foldlM_rule (P := fun l' s => (∀ a ∈ l', a ∈ l) ∧ I s) ?_ h ⟨fun a ha => ha, hs⟩).2
  rintro a l' s t ⟨hsub, hI⟩ ht
  exact ⟨fun b hb => hsub b (List.mem_cons_of_mem a hb), hstep a (hsub a (by simp)) s t hI ht⟩

/-- A loop follows another one turn by turn. -/
theorem foldlM_simulation {τ : Type*} {R : σ → τ → Prop} {f : σ → α → Except φ σ}
    {g : τ → α → Except φ τ}
    (hstep : ∀ a s s' t, R s t → f s a = .ok s' → ∃ t', g t a = .ok t' ∧ R s' t') :
    ∀ {l : List α} {s s' : σ} {t : τ}, l.foldlM f s = .ok s' → R s t →
      ∃ t', l.foldlM g t = .ok t' ∧ R s' t'
  | [], s, s', t, h, hR => by
      obtain rfl : s = s' := by simpa [pure, Except.pure] using h
      exact ⟨t, rfl, hR⟩
  | a :: l, s, s', t, h, hR => by
      rw [List.foldlM_cons] at h
      cases hf : f s a with
      | error e => simp [hf, bind, Except.bind] at h
      | ok u =>
          rw [hf] at h
          obtain ⟨t₁, ht₁, hR₁⟩ := hstep a s u t hR hf
          obtain ⟨t', ht', hR'⟩ := foldlM_simulation hstep h hR₁
          refine ⟨t', ?_, hR'⟩
          rw [List.foldlM_cons, ht₁]
          exact ht'

/-- A loop returns when no turn faults. -/
theorem foldlM_returns {f : σ → α → Except φ σ} :
    ∀ {l : List α} (s : σ), (∀ a ∈ l, ∀ s, ∃ t, f s a = .ok t) → ∃ t, l.foldlM f s = .ok t
  | [], s, _ => ⟨s, rfl⟩
  | a :: l, s, h => by
      obtain ⟨u, hu⟩ := h a (by simp) s
      obtain ⟨t, ht⟩ := foldlM_returns (l := l) u fun b hb => h b (List.mem_cons_of_mem a hb)
      refine ⟨t, ?_⟩
      rw [List.foldlM_cons, hu]
      exact ht

/-- The fault of a loop is that of one of its turns. -/
theorem exists_of_foldlM_error {f : σ → α → Except φ σ} {e : φ} :
    ∀ {l : List α} {s : σ}, l.foldlM f s = .error e → ∃ a ∈ l, ∃ u, f u a = .error e
  | [], s, h => by simp [pure, Except.pure] at h
  | a :: l, s, h => by
      rw [List.foldlM_cons] at h
      cases hf : f s a with
      | error e' =>
          obtain rfl : e' = e := by simpa [hf, bind, Except.bind] using h
          exact ⟨a, List.mem_cons_self, s, hf⟩
      | ok u =>
          rw [hf] at h
          obtain ⟨b, hb, v, hv⟩ := exists_of_foldlM_error (l := l) h
          exact ⟨b, List.mem_cons_of_mem a hb, v, hv⟩

/-- **Loop rule**, where no turn faults. -/
theorem foldl_rule {P : List α → σ → Prop} {f : σ → α → σ}
    (hstep : ∀ a l s, P (a :: l) s → P l (f s a)) :
    ∀ {l : List α} {s : σ}, P l s → P [] (l.foldl f s)
  | [], _, hs => hs
  | a :: l, s, hs => foldl_rule (l := l) hstep (hstep a l s hs)

/-- What every turn keeps, the loop keeps. -/
theorem foldl_invariant {I : σ → Prop} {f : σ → α → σ} (hstep : ∀ a s, I s → I (f s a))
    (l : List α) {s : σ} (hs : I s) : I (l.foldl f s) :=
  foldl_rule (P := fun _ s => I s) (fun a _ s => hstep a s) hs

/-- A map that may fault returns when no element faults. -/
theorem mapM_returns_iff {f : α → Except φ σ} :
    ∀ {l : List α}, (∃ r, l.mapM f = .ok r) ↔ ∀ a ∈ l, ∃ b, f a = .ok b
  | [] => by simp [pure, Except.pure]
  | a :: l => by
      have ih := mapM_returns_iff (f := f) (l := l)
      rw [List.mapM_cons, List.forall_mem_cons, ← ih]
      cases f a with
      | error e => simp [bind, Except.bind]
      | ok b => cases l.mapM f <;> simp [bind, Except.bind, pure, Except.pure]

end FastLivo2
