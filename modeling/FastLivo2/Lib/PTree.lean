import Mathlib

/-!
# Trees of pointers

`PTree κ α` is what a pointer to a tree node can be: null, or a node holding an `α` and one
pointer per slot in `κ`.  The null pointer is a constructor, so an operation that fills an empty
slot and one that walks into an occupied one are told apart by a pattern match, as in the code
that follows the pointers.

`Everywhere P` says that `P` holds of every node together with its slots, and `Any Q` that some
node's content satisfies `Q`.  An operation changes one slot of a node at a time: the rule
`everywhere_update` reduces an invariant of the new slots to the old ones and the slot written.
-/

namespace FastLivo2

/-- A null pointer, or a node with one pointer per slot. -/
inductive PTree (κ α : Type*)
  | nullptr
  | node (a : α) (kids : κ → PTree κ α)

namespace PTree

variable {κ α : Type*}

/-- The pointer is null. -/
def isNull : PTree κ α → Bool
  | nullptr => true
  | node _ _ => false

@[simp] lemma isNull_nullptr : (nullptr : PTree κ α).isNull = true := rfl

@[simp] lemma isNull_node (a : α) (kids : κ → PTree κ α) : (node a kids).isNull = false := rfl

lemma node_ne_nullptr {a : α} {kids : κ → PTree κ α} : node a kids ≠ nullptr := by
  intro h
  cases h

lemma isNull_iff {t : PTree κ α} : t.isNull = true ↔ t = nullptr := by
  cases t <;> simp

/-! ## Every node -/

/-- Every node of the tree and its slots satisfy `P`. -/
def Everywhere (P : α → (κ → PTree κ α) → Prop) : PTree κ α → Prop
  | nullptr => True
  | node a kids => P a kids ∧ ∀ i, (kids i).Everywhere P

section Everywhere

variable {P Q : α → (κ → PTree κ α) → Prop} {t : PTree κ α} {a : α} {kids : κ → PTree κ α}

@[simp] lemma everywhere_nullptr : (nullptr : PTree κ α).Everywhere P := trivial

@[simp] lemma everywhere_node :
    (node a kids).Everywhere P ↔ P a kids ∧ ∀ i, (kids i).Everywhere P := Iff.rfl

lemma Everywhere.mono (hPQ : ∀ a kids, P a kids → Q a kids) (h : t.Everywhere P) :
    t.Everywhere Q := by
  induction t with
  | nullptr => trivial
  | node a kids ih => exact ⟨hPQ _ _ h.1, fun i => ih i (h.2 i)⟩

/-- What `P` says of every node can be used while proving `Q` of every node. -/
lemma Everywhere.imp (hP : t.Everywhere P)
    (h : t.Everywhere fun a kids => P a kids → Q a kids) : t.Everywhere Q := by
  induction t with
  | nullptr => trivial
  | node a kids ih => exact ⟨h.1 hP.1, fun i => ih i (hP.2 i) (h.2 i)⟩

/-- Writing one slot keeps an invariant of all slots when the tree written has it. -/
lemma everywhere_update [DecidableEq κ] (hkids : ∀ i, (kids i).Everywhere P) (j : κ)
    (ht : t.Everywhere P) (i : κ) : (Function.update kids j t i).Everywhere P := by
  rcases eq_or_ne i j with rfl | hij
  · rwa [Function.update_self]
  · rw [Function.update_of_ne hij]
    exact hkids i

end Everywhere

/-! ## Some node -/

/-- Some node of the tree holds content satisfying `Q`. -/
def Any (Q : α → Prop) : PTree κ α → Prop
  | nullptr => False
  | node a kids => Q a ∨ ∃ i, (kids i).Any Q

@[simp] lemma any_nullptr {Q : α → Prop} : ¬(nullptr : PTree κ α).Any Q := id

@[simp] lemma any_node {Q : α → Prop} {a : α} {kids : κ → PTree κ α} :
    (node a kids).Any Q ↔ Q a ∨ ∃ i, (kids i).Any Q := Iff.rfl

/-- What holds of every node excludes a node it rules out. -/
lemma Everywhere.not_any {P : α → (κ → PTree κ α) → Prop} {Q : α → Prop} {t : PTree κ α}
    (h : t.Everywhere P) (hPQ : ∀ a kids, P a kids → ¬Q a) : ¬t.Any Q := by
  induction t with
  | nullptr => exact any_nullptr
  | node a kids ih =>
      rintro (ha | ⟨i, hi⟩)
      · exact hPQ a kids h.1 ha
      · exact ih i (h.2 i) hi

/-! ## Later trees -/

/-- Every node of the first tree is in its place in the second, with related content. -/
def Extends (R : α → α → Prop) : PTree κ α → PTree κ α → Prop
  | nullptr, _ => True
  | node _ _, nullptr => False
  | node a kids, node b kids' => R a b ∧ ∀ i, (kids i).Extends R (kids' i)

section Extends

variable {R : α → α → Prop} {t u v : PTree κ α} {kids : κ → PTree κ α}

@[simp] lemma nullptr_extends : (nullptr : PTree κ α).Extends R t := by
  cases t <;> trivial

lemma Extends.refl (hR : ∀ a, R a a) (t : PTree κ α) : t.Extends R t := by
  induction t with
  | nullptr => trivial
  | node a kids ih => exact ⟨hR a, ih⟩

lemma Extends.trans (hR : ∀ a b c, R a b → R b c → R a c) (htu : t.Extends R u)
    (huv : u.Extends R v) : t.Extends R v := by
  induction t generalizing u v with
  | nullptr => exact nullptr_extends
  | node a kids ih =>
      cases u with
      | nullptr => exact htu.elim
      | node b kids' =>
          cases v with
          | nullptr => exact huv.elim
          | node c kids'' =>
              exact ⟨hR a b c htu.1 huv.1, fun i => ih i (htu.2 i) (huv.2 i)⟩

/-- Writing one slot extends the slots when the tree written extends the one it replaces. -/
lemma extends_update [DecidableEq κ] (hR : ∀ a, R a a) (j : κ) (hj : (kids j).Extends R t)
    (i : κ) : (kids i).Extends R (Function.update kids j t i) := by
  rcases eq_or_ne i j with rfl | hij
  · rwa [Function.update_self]
  · rw [Function.update_of_ne hij]
    exact Extends.refl hR (kids i)

end Extends

end PTree

end FastLivo2
