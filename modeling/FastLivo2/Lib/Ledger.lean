import Mathlib

/-!
# The books of an allocator

Resources are allocated and freed; in between each is *live*.  A live resource is *owned* when some
record still refers to it, and *leaked* otherwise.  `Books live owned leaked` is the conservation
law: what is live is what is owned and what is leaked, every resource counted once.  So nothing is
owned twice, nothing owned has been freed, and the books are exact when nothing is leaked.

A resource just allocated is leaked until it is attached to a record; a resource that is detached
and freed at once leaves the leaked ones alone.  Nothing here ever frees a leaked resource.

The last section is about records kept in a list: replacing one of them exchanges what it owned for
what its successor owns.
-/

namespace FastLivo2

variable {α β : Type*}

/-- The live resources are the owned ones and the leaked ones, each once. -/
def Books (live : Finset α) (owned leaked : Multiset α) : Prop := live.val = owned + leaked

namespace Books

variable {live : Finset α} {owned leaked : Multiset α} {a : α}

lemma empty : Books (∅ : Finset α) 0 0 := by simp [Books]

lemma nodup (h : Books live owned leaked) : (owned + leaked).Nodup := by
  have hlive := live.nodup
  rwa [show live.val = owned + leaked from h] at hlive

lemma mem_live (h : Books live owned leaked) : a ∈ live ↔ a ∈ owned ∨ a ∈ leaked := by
  rw [← Finset.mem_val, show live.val = owned + leaked from h, Multiset.mem_add]

/-- The books are exact when nothing is leaked. -/
lemma exact_iff (h : Books live owned leaked) : (∀ a, a ∈ live ↔ a ∈ owned) ↔ leaked = 0 := by
  constructor
  · intro hex
    refine Multiset.eq_zero_of_forall_notMem fun a ha => ?_
    have howned : a ∈ owned := (hex a).mp (h.mem_live.mpr (.inr ha))
    exact (Multiset.disjoint_left.mp (Multiset.nodup_add.mp h.nodup).2.2 howned) ha
  · rintro rfl a
    rw [h.mem_live]
    simp

/-- A leaked resource finds an owner. -/
lemma attach (h : Books live owned (a ::ₘ leaked)) : Books live (a ::ₘ owned) leaked := by
  rw [Books, show live.val = owned + (a ::ₘ leaked) from h, Multiset.add_cons, Multiset.cons_add]

variable [DecidableEq α]

/-- An allocation: the new resource has no owner yet. -/
lemma acquire (h : Books live owned leaked) (ha : a ∉ live) :
    Books (insert a live) owned (a ::ₘ leaked) := by
  have hins : (insert a live).val = a ::ₘ live.val := Finset.insert_val_of_notMem ha
  rw [Books, hins, show live.val = owned + leaked from h, Multiset.add_cons]

/-- Owned resources are detached and freed. -/
lemma release {freed : List α} (h : Books live (owned + (freed : Multiset α)) leaked) :
    Books (live \ freed.toFinset) owned leaked := by
  have hlive : live.val = owned + freed + leaked := h
  have hnodup : (freed : Multiset α).Nodup :=
    (Multiset.nodup_add.mp (Multiset.nodup_add.mp h.nodup).1).2.1
  have hfreed : freed.toFinset.val = (freed : Multiset α) := by
    rw [List.toFinset_val, List.dedup_eq_self.mpr (Multiset.coe_nodup.mp hnodup)]
  have hsub : (live \ freed.toFinset).val = live.val - freed.toFinset.val := Finset.sdiff_val ..
  rw [Books, hsub, hlive, hfreed, add_right_comm, Multiset.add_sub_cancel_right]

end Books

/-! ## Records in a list -/

/-- What the records of a list own. -/
def ownedBy (f : β → List α) (l : List β) : Multiset α := (l.flatMap f : List α)

lemma mem_ownedBy {f : β → List α} {l : List β} {a : α} :
    a ∈ ownedBy f l ↔ ∃ x ∈ l, a ∈ f x := by
  rw [ownedBy, Multiset.mem_coe, List.mem_flatMap]

/-- A new record brings what it owns. -/
lemma ownedBy_append (f : β → List α) (l : List β) (y : β) :
    ownedBy f (l ++ [y]) = ownedBy f l + (f y : Multiset α) := by
  rw [ownedBy, List.flatMap_append, List.flatMap_singleton, ← Multiset.coe_add, ownedBy]

/-- Replacing a record exchanges what it owned for what its successor owns. -/
lemma ownedBy_set (f : β → List α) {l : List β} {k : ℕ} {x : β} (h : l[k]? = some x) :
    ∃ rest : Multiset α, ownedBy f l = rest + (f x : Multiset α) ∧
      ∀ y, ownedBy f (l.set k y) = rest + (f y : Multiset α) := by
  obtain ⟨hk, hx⟩ := List.getElem?_eq_some_iff.mp h
  refine ⟨ownedBy f (l.take k) + ownedBy f (l.drop (k + 1)), ?_, fun y => ?_⟩
  · have hsplit : l = l.take k ++ x :: l.drop (k + 1) := by
      rw [← hx, List.cons_getElem_drop_succ, List.take_append_drop]
    calc ownedBy f l = ownedBy f (l.take k ++ x :: l.drop (k + 1)) := by rw [← hsplit]
      _ = ownedBy f (l.take k) + ((f x : Multiset α) + ownedBy f (l.drop (k + 1))) := by
          simp only [ownedBy, List.flatMap_append, List.flatMap_cons, ← Multiset.coe_add]
      _ = _ := by rw [add_comm (f x : Multiset α), add_assoc]
  · calc ownedBy f (l.set k y) = ownedBy f (l.take k ++ y :: l.drop (k + 1)) := by
          rw [List.set_eq_take_cons_drop y hk]
      _ = ownedBy f (l.take k) + ((f y : Multiset α) + ownedBy f (l.drop (k + 1))) := by
          simp only [ownedBy, List.flatMap_append, List.flatMap_cons, ← Multiset.coe_add]
      _ = _ := by rw [add_comm (f y : Multiset α), add_assoc]

end FastLivo2
