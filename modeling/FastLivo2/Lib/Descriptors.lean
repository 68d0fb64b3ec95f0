import FastLivo2.Lib.Ledger

/-!
# Descriptors of a process

The descriptors that a component has opened and not closed, and those it has closed without having
them.  `openFd` fails when the kernel is said to hand out a descriptor that is open: no kernel does.
A component keeps its descriptors in fields, where a negative value stands for none; closing all its
fields leaves nothing open and closes nothing else exactly when the fields hold what is open, each
descriptor once (`closeAll_iff`).
-/

namespace FastLivo2

/-- The descriptors a component has open, and those it has closed that were not. -/
structure Descriptors where
  live : Finset ℤ
  stray : List ℤ
  deriving DecidableEq

/-- The kernel does not hand out a descriptor that is open. -/
inductive DescriptorFault
  | inUse
  deriving DecidableEq, Repr

namespace Descriptors

/-- `open`, which returns `r`. -/
def openFd (r : ℤ) (w : Descriptors) : Except DescriptorFault Descriptors :=
  if r < 0 then .ok w
  else if r ∈ w.live then .error .inUse
  else .ok { w with live := insert r w.live }

/-- `close`. -/
def close (fd : ℤ) (w : Descriptors) : Descriptors :=
  if fd ∈ w.live then { w with live := w.live.erase fd }
  else { w with stray := w.stray ++ [fd] }

/-- `if (fd >= 0) close(fd)`. -/
def closeFd (w : Descriptors) (fd : ℤ) : Descriptors := if 0 ≤ fd then w.close fd else w

/-- The fields are closed one after the other. -/
def closeAll (fds : List ℤ) (w : Descriptors) : Descriptors := fds.foldl closeFd w

/-- The descriptor that a field holds. -/
def held (fd : ℤ) : List ℤ := if 0 ≤ fd then [fd] else []

@[simp] lemma held_neg {fd : ℤ} (h : fd < 0) : held fd = [] := if_neg (not_le.mpr h)

lemma held_nonneg {fd : ℤ} (h : 0 ≤ fd) : held fd = [fd] := if_pos h

lemma ownedBy_held_cons (fd : ℤ) (fds : List ℤ) :
    ownedBy held (fd :: fds) = (held fd : Multiset ℤ) + ownedBy held fds := by
  rw [ownedBy, List.flatMap_cons, ← Multiset.coe_add, ownedBy]

variable {w w' : Descriptors} {owned leaked : Multiset ℤ} {r : ℤ}

/-! ## Opening -/

/-- A descriptor that is opened is owned by the field it is stored in. -/
lemma books_openFd (h : Books w.live owned leaked) (ho : openFd r w = .ok w') :
    Books w'.live (owned + (held r : Multiset ℤ)) leaked ∧ w'.stray = w.stray := by
  unfold openFd at ho
  by_cases hneg : r < 0
  · rw [if_pos hneg] at ho
    obtain rfl := Except.ok.inj ho
    rw [held_neg hneg, Multiset.coe_nil, add_zero]
    exact ⟨h, rfl⟩
  · rw [if_neg hneg] at ho
    by_cases hmem : r ∈ w.live
    · rw [if_pos hmem] at ho
      cases ho
    · rw [if_neg hmem] at ho
      obtain rfl := Except.ok.inj ho
      rw [held_nonneg (not_lt.mp hneg), Multiset.coe_singleton, add_comm, Multiset.singleton_add]
      exact ⟨(h.acquire hmem).attach, rfl⟩

/-- Several descriptors are opened, each into a field of its own. -/
lemma books_openAll : ∀ {rs : List ℤ} {w w' : Descriptors} {owned : Multiset ℤ},
    Books w.live owned leaked → rs.foldlM (fun w r => openFd r w) w = .ok w' →
      Books w'.live (owned + ownedBy held rs) leaked ∧ w'.stray = w.stray
  | [], w, w', owned, h, ho => by
      obtain rfl : w = w' := by simpa [pure, Except.pure] using ho
      exact ⟨by simpa [ownedBy] using h, rfl⟩
  | r :: rs, w, w', owned, h, ho => by
      rw [List.foldlM_cons] at ho
      cases hr : openFd r w with
      | error f => simp [hr, bind, Except.bind] at ho
      | ok u =>
          rw [hr] at ho
          obtain ⟨hu, hstray⟩ := books_openFd h hr
          obtain ⟨hw', hstray'⟩ := books_openAll hu ho
          rw [ownedBy_held_cons, ← add_assoc]
          exact ⟨hw', hstray'.trans hstray⟩

/-! ## Closing -/

/-- A field that is closed owned its descriptor. -/
lemma books_closeFd {fd : ℤ} (h : Books w.live (owned + (held fd : Multiset ℤ)) leaked) :
    Books (w.closeFd fd).live owned leaked ∧ (w.closeFd fd).stray = w.stray := by
  unfold closeFd
  by_cases hfd : 0 ≤ fd
  · rw [held_nonneg hfd] at h
    have hlive : fd ∈ w.live := h.mem_live.mpr (.inl (by simp))
    have hrelease := h.release
    rw [if_pos hfd, close, if_pos hlive]
    refine ⟨?_, rfl⟩
    rwa [List.toFinset_cons, List.toFinset_nil, insert_empty_eq,
      Finset.sdiff_singleton_eq_erase] at hrelease
  · rw [if_neg hfd]
    rw [held_neg (not_le.mp hfd), Multiset.coe_nil, add_zero] at h
    exact ⟨h, rfl⟩

lemma stray_closeFd (w : Descriptors) (fd : ℤ) :
    (w.closeFd fd).stray = w.stray ∨ (w.closeFd fd).stray = w.stray ++ [fd] := by
  unfold closeFd close
  split_ifs <;> simp

/-- What has been closed astray stays so. -/
lemma stray_closeAll_ne_nil : ∀ {fds : List ℤ} {w : Descriptors}, w.stray ≠ [] →
    (closeAll fds w).stray ≠ []
  | [], _, h => h
  | fd :: fds, w, h => by
      have hfd : (w.closeFd fd).stray ≠ [] → (closeAll fds (w.closeFd fd)).stray ≠ [] :=
        stray_closeAll_ne_nil
      apply hfd
      obtain heq | heq := stray_closeFd w fd
      · rwa [heq]
      · rw [heq]
        simp

/-- **Closing rule.**  Closing the fields leaves nothing open and closes nothing else, if and only
if the fields hold what is open, each descriptor once. -/
theorem closeAll_iff : ∀ {fds : List ℤ} {w : Descriptors},
    (closeAll fds w).stray = [] ∧ (closeAll fds w).live = ∅ ↔
      w.stray = [] ∧ Books w.live (ownedBy held fds) 0
  | [], w => by
      have hempty : w.live.val = ownedBy held [] + 0 ↔ w.live = ∅ := by
        simp [ownedBy]
      rw [Books, hempty]
      exact Iff.rfl
  | fd :: fds, w => by
      have hall : closeAll (fd :: fds) w = closeAll fds (w.closeFd fd) := rfl
      rw [hall, closeAll_iff, ownedBy_held_cons, Books, Books, add_zero, add_zero]
      by_cases hfd : 0 ≤ fd
      · rw [closeFd, if_pos hfd, held_nonneg hfd, Multiset.coe_singleton, Multiset.singleton_add,
          close]
        by_cases hlive : fd ∈ w.live
        · rw [if_pos hlive, Finset.erase_val]
          have hmem : fd ∈ w.live.val := hlive
          apply and_congr_right'
          constructor
          · intro h
            rw [← h, Multiset.cons_erase hmem]
          · intro h
            rw [h, Multiset.erase_cons_head]
        · rw [if_neg hlive]
          constructor
          · rintro ⟨hstray, -⟩
            simp at hstray
          · rintro ⟨-, h⟩
            have hmem : fd ∈ w.live.val := h ▸ Multiset.mem_cons_self fd _
            exact absurd hmem hlive
      · rw [closeFd, if_neg hfd, held_neg (not_le.mp hfd), Multiset.coe_nil, zero_add]

end Descriptors

end FastLivo2
