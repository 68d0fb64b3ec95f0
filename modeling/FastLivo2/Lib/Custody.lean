import FastLivo2.Lib.Exec

/-!
# Things that are in one place at a time

A machine holds things.  Some come with a turn, some change their place and some leave.  Where their
order says nothing, `Exec.custody` is the conservation rule: what came over a run is what left and
what is still held, each thing as often.

A thing is looked for and taken out of a list by `find?` and `eraseP` (`perm_find_append_eraseP`).
-/

namespace FastLivo2

/-- What is found, and the others. -/
lemma perm_find_append_eraseP {α : Type*} (p : α → Bool) :
    ∀ l : List α, l.Perm ((l.find? p).toList ++ l.eraseP p)
  | [] => by simp
  | a :: l => by
      by_cases ha : p a
      · simp [ha]
      · rw [List.find?_cons_of_neg (by simpa using ha), List.eraseP_cons_of_neg ha]
        exact ((perm_find_append_eraseP p l).cons a).trans List.perm_middle.symm

lemma perm_cons_eraseP {α : Type*} {p : α → Bool} {l : List α} {a : α} (h : l.find? p = some a) :
    l.Perm (a :: l.eraseP p) := by
  have hperm := perm_find_append_eraseP p l
  rwa [h, Option.toList_some, List.singleton_append] at hperm

namespace Exec

variable {σ ε ω φ α : Type*} {step : σ → ε → Except φ (σ × ω)} {s t : σ}
  {tr : List (Turn σ ε ω)}

/-- **Custody rule.**  If each turn balances what is held, so does a run. -/
theorem custody (held : σ → List α) (came left : Turn σ ε ω → List α)
    (hstep : ∀ x : Turn σ ε ω, x.Taken step →
      (held x.pre ++ came x).Perm (left x ++ held x.post))
    (h : Exec step s tr t) :
    (held s ++ tr.flatMap came).Perm (tr.flatMap left ++ held t) := by
  refine history (P := fun tr t => (held s ++ tr.flatMap came).Perm (tr.flatMap left ++ held t))
    (C := fun _ => True) (by simp) ?_ h fun _ _ => trivial
  intro tr x _ hx _ ih
  simp only [List.flatMap_append, List.flatMap_singleton]
  rw [← List.append_assoc, List.append_assoc (tr.flatMap left)]
  refine (ih.append_right (came x)).trans ?_
  rw [List.append_assoc]
  exact (hstep x hx).append_left _

end Exec

end FastLivo2
