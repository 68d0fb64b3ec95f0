import Mathlib

/-!
# Queues between two threads

One thread stores items in a queue and another takes them, and neither waits for the other.  To
store takes several steps: the slots are prepared, the queue tested for room, the slot written and
the counter raised.  So does to take: the item is read, then dropped.  A `HandoffQueue` has these
functions, the items that the queue holds for the two threads, and laws that are right whatever the
other thread does between two steps.

`HandoffQueue.locked` is a list behind a lock.
-/

namespace FastLivo2

/-- A queue of items of type `β`, which are kept for items of type `α`. -/
structure HandoffQueue (Q α β : Type*) where
  init : Q
  absent : Q → Bool
  prepare : Q → Q
  full : Q → Bool
  write : Q → α → Q
  advance : Q → Q
  empty : Q → Bool
  used : Q → ℕ
  peek : Q → Option β
  drop : Q → Q
  kept : α → β
  /-- The queue holds these items. -/
  Holds : Q → List β → Prop
  /-- Another item is in its slot, and only the counter lacks. -/
  Written : Q → List β → β → Prop
  holds_init : Holds init []
  absent_nil : ∀ {q l}, Holds q l → absent q = true → l = []
  holds_prepare : ∀ {q l}, Holds q l → Holds (prepare q) l
  absent_prepare : ∀ {q l}, Holds q l → absent (prepare q) = false
  written : ∀ {q l a}, Holds q l → absent q = false → full q = false →
    Written (write q a) l (kept a)
  holds_written : ∀ {q l b}, Written q l b → Holds q l
  advance_holds : ∀ {q l b}, Written q l b → Holds (advance q) (l ++ [b])
  empty_iff : ∀ {q l}, Holds q l → (empty q = true ↔ l = [])
  used_eq : ∀ {q l}, Holds q l → used q = l.length
  peek_eq : ∀ {q b l}, Holds q (b :: l) → peek q = some b
  drop_holds : ∀ {q b l}, Holds q (b :: l) → Holds (drop q) l
  drop_written : ∀ {q b l b'}, Written q (b :: l) b' → Written (drop q) l b'
  drop_absent : ∀ {q b l}, Holds q (b :: l) → absent (drop q) = false
  drop_full : ∀ {q b l}, Holds q (b :: l) → full q = false → full (drop q) = false

namespace HandoffQueue

/-- A list behind a lock: it always has room, and an item is stored when it is written. -/
def locked (α : Type*) : HandoffQueue (List α × Option α) α α where
  init := ([], none)
  absent := fun _ => false
  prepare := fun q => q
  full := fun _ => false
  write := fun q a => (q.1, some a)
  advance := fun q => (q.1 ++ q.2.toList, none)
  empty := fun q => q.1.isEmpty
  used := fun q => q.1.length
  peek := fun q => q.1.head?
  drop := fun q => (q.1.tail, q.2)
  kept := fun a => a
  Holds := fun q l => q.1 = l
  Written := fun q l b => q.1 = l ∧ q.2 = some b
  holds_init := rfl
  absent_nil := nofun
  holds_prepare := fun h => h
  absent_prepare := fun _ => rfl
  written := fun h _ _ => ⟨h, rfl⟩
  holds_written := fun h => h.1
  advance_holds := by
    rintro q l b ⟨rfl, hb⟩
    show q.1 ++ q.2.toList = q.1 ++ [b]
    rw [hb, Option.toList_some]
  empty_iff := by
    rintro q l rfl
    exact List.isEmpty_iff
  used_eq := by
    rintro q l rfl
    rfl
  peek_eq := by
    intro q b l h
    show q.1.head? = some b
    rw [h, List.head?_cons]
  drop_holds := by
    intro q b l h
    show q.1.tail = l
    rw [h, List.tail_cons]
  drop_written := by
    rintro q b l b' ⟨h, hb⟩
    refine ⟨?_, hb⟩
    show q.1.tail = l
    rw [h, List.tail_cons]
  drop_absent := fun _ => rfl
  drop_full := fun _ _ => rfl

end HandoffQueue

end FastLivo2
