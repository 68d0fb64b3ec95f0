import Mathlib.Data.List.Flatten
import Mathlib.Data.List.GetD
import Mathlib.Data.List.Range

/-!
# Values derived from records

A program computes values from the records of a recording.  A derived value comes with the positions
that it is computed from, and a proof that the records at all others do not matter.  What is
computed of derived values reads what they read.
-/

namespace FastLivo2

variable {ρ α β γ : Type*}

/-- A value computed from the records at some positions of a recording. -/
structure Derived (ρ α : Type*) where
  reads : List ℕ
  value : List ρ → α
  determined : ∀ {g g' : List ρ}, (∀ i ∈ reads, g[i]? = g'[i]?) → value g = value g'

namespace Derived

variable {g g' : List ρ}

/-! ## What can be computed -/

lemma read_determined [Inhabited ρ] {i : ℕ} {f : ρ → α} (h : ∀ j ∈ [i], g[j]? = g'[j]?) :
    f (g.getD i default) = f (g'.getD i default) := by
  rw [List.getD_eq_getElem?_getD, List.getD_eq_getElem?_getD, h i (List.mem_singleton_self i)]

/-- A value of one record. -/
def read [Inhabited ρ] (i : ℕ) (f : ρ → α) : Derived ρ α where
  reads := [i]
  value g := f (g.getD i default)
  determined := read_determined

/-- A value of no record. -/
def const (a : α) : Derived ρ α where
  reads := []
  value _ := a
  determined _ := rfl

lemma map_determined {f : α → β} {d : Derived ρ α} (h : ∀ i ∈ d.reads, g[i]? = g'[i]?) :
    f (d.value g) = f (d.value g') := congrArg f (d.determined h)

def map (f : α → β) (d : Derived ρ α) : Derived ρ β where
  reads := d.reads
  value g := f (d.value g)
  determined := map_determined

lemma map₂_determined {f : α → β → γ} {d : Derived ρ α} {e : Derived ρ β}
    (h : ∀ i ∈ d.reads ++ e.reads, g[i]? = g'[i]?) :
    f (d.value g) (e.value g) = f (d.value g') (e.value g') := by
  rw [d.determined fun i hi => h i (List.mem_append_left _ hi),
    e.determined fun i hi => h i (List.mem_append_right _ hi)]

def map₂ (f : α → β → γ) (d : Derived ρ α) (e : Derived ρ β) : Derived ρ γ where
  reads := d.reads ++ e.reads
  value g := f (d.value g) (e.value g)
  determined := map₂_determined

lemma all_determined {l : List (Derived ρ α)}
    (h : ∀ i ∈ l.flatMap reads, g[i]? = g'[i]?) : l.map (value · g) = l.map (value · g') :=
  List.map_congr_left fun d hd => d.determined fun i hi => h i (List.mem_flatMap.mpr ⟨d, hd, hi⟩)

/-- The values of a list together. -/
def all (l : List (Derived ρ α)) : Derived ρ (List α) where
  reads := l.flatMap reads
  value g := l.map (value · g)
  determined := all_determined

/-! ## Which records are read -/

/-- The records that are read have a property. -/
def From (g : List ρ) (P : ρ → Prop) (d : Derived ρ α) : Prop := ∀ i ∈ d.reads, ∃ r ∈ g[i]?, P r

variable {P : ρ → Prop}

/-- **Only what is read matters.**  Records without the property can be replaced. -/
theorem From.value_eq {d : Derived ρ α} (h : d.From g P)
    (hkeep : ∀ (i : ℕ), ∀ r ∈ g[i]?, P r → g'[i]? = some r) : d.value g = d.value g' := by
  refine d.determined fun i hi => ?_
  obtain ⟨r, hr, hP⟩ := h i hi
  rw [hkeep i r hr hP]
  exact hr

@[simp] lemma from_read [Inhabited ρ] {i : ℕ} {f : ρ → α} :
    (read i f).From g P ↔ ∃ r ∈ g[i]?, P r := by
  simp [From, read]

@[simp] lemma from_const {a : α} : (const a).From g P := nofun

@[simp] lemma from_map {f : α → β} {d : Derived ρ α} : (d.map f).From g P ↔ d.From g P := Iff.rfl

@[simp] lemma from_map₂ {f : α → β → γ} {d : Derived ρ α} {e : Derived ρ β} :
    (map₂ f d e).From g P ↔ d.From g P ∧ e.From g P := by
  simp only [From, map₂, List.mem_append, or_imp, forall_and]

@[simp] lemma from_all {l : List (Derived ρ α)} : (all l).From g P ↔ ∀ d ∈ l, d.From g P := by
  simp only [From, all, List.mem_flatMap, forall_exists_index, and_imp]
  exact ⟨fun h d hd i hi => h i d hd hi, fun h i d hd hi => h d hd i hi⟩

/-- A property of the records of a recording is one of its positions. -/
lemma forall_lt_exists_iff : (∀ i < g.length, ∃ r ∈ g[i]?, P r) ↔ ∀ r ∈ g, P r := by
  constructor
  · intro h r hr
    obtain ⟨i, hi, rfl⟩ := List.getElem_of_mem hr
    obtain ⟨r, hr, hP⟩ := h i hi
    rw [List.getElem?_eq_getElem hi] at hr
    exact Option.some.inj hr ▸ hP
  · exact fun h i hi => ⟨g[i], List.getElem?_eq_getElem hi, h _ (List.getElem_mem hi)⟩

/-! ## Columns -/

variable [Inhabited ρ]

/-- A value of each of `n` records. -/
def each (n : ℕ) (f : ρ → α) : List (Derived ρ α) := (List.range n).map fun i => read i f

/-- A value of each two consecutive ones of `n` records. -/
def between (n : ℕ) (f : ρ → ρ → α) : List (Derived ρ α) :=
  (List.range (n - 1)).map fun i => map₂ f (read i id) (read (i + 1) id)

lemma forall_each_from {f : ρ → α} :
    (∀ d ∈ each g.length f, d.From g P) ↔ ∀ r ∈ g, P r := by
  rw [← forall_lt_exists_iff (g := g) (P := P)]
  simp [each]

/-- A recording with two records has each of them in a pair. -/
lemma forall_between_from {f : ρ → ρ → α} :
    (∀ d ∈ between g.length f, d.From g P) ↔ g.length < 2 ∨ ∀ r ∈ g, P r := by
  rw [← forall_lt_exists_iff (g := g) (P := P)]
  simp only [between, List.forall_mem_map, List.mem_range, from_map₂, from_read]
  constructor
  · refine fun h => or_iff_not_imp_left.mpr fun hlen i hi => ?_
    rcases Nat.lt_or_ge i (g.length - 1) with hlt | hge
    · exact (h i hlt).1
    · obtain rfl : i = g.length - 2 + 1 := by omega
      exact (h (g.length - 2) (by omega)).2
  · rintro (hlen | h) i hi
    · omega
    · exact ⟨h i (by omega), h (i + 1) (by omega)⟩

end Derived

end FastLivo2
