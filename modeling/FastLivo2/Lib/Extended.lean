import Mathlib

/-!
# Numbers, infinities and not-a-number

The values of a floating-point type but for rounding: an exact number, one of the two infinities, or
not-a-number.  Zero has one sign, the positive one.  Not-a-number is what an invalid operation gives
(`∞ - ∞`, `0 * ∞`, `0 / 0`, `∞ / ∞`), it spoils every operation it enters, and every comparison with
it is false: `¬x < y` and `y ≤ x` are different tests.

They are the same test for two values neither of which is not-a-number (`not_lt_iff`), and a sum of
three squares is one of those exactly when its terms are (`sumSquares_eq_nan_iff`).
-/

namespace FastLivo2

inductive Extended (α : Type)
  | num (a : α)
  | posInf
  | negInf
  | nan
  deriving DecidableEq, Repr

namespace Extended

variable {α : Type}

instance : Coe α (Extended α) := ⟨num⟩

instance (n : ℕ) [OfNat α n] : OfNat (Extended α) n := ⟨num (OfNat.ofNat n)⟩

/-! ## Comparisons -/

section Order

variable [LT α] [DecidableLT α]

/-- Whether a value is below another one; not-a-number is neither below nor above any. -/
def below : Extended α → Extended α → Bool
  | num a, num b => decide (a < b)
  | num _, posInf => true
  | negInf, num _ => true
  | negInf, posInf => true
  | _, _ => false

instance : LT (Extended α) := ⟨fun x y => below x y = true⟩

instance : LE (Extended α) := ⟨fun x y => x < y ∨ x = y ∧ x ≠ nan⟩

instance : DecidableLT (Extended α) := fun x y => inferInstanceAs (Decidable (below x y = true))

instance [DecidableEq α] : DecidableLE (Extended α) := fun x y =>
  inferInstanceAs (Decidable (x < y ∨ x = y ∧ x ≠ nan))

end Order

/-! ## Arithmetic -/

section Arithmetic

variable [Field α] [LinearOrder α]

protected def neg : Extended α → Extended α
  | num a => num (-a)
  | posInf => negInf
  | negInf => posInf
  | nan => nan

protected def add : Extended α → Extended α → Extended α
  | num a, num b => num (a + b)
  | num _, y => y
  | x, num _ => x
  | posInf, posInf => posInf
  | negInf, negInf => negInf
  | _, _ => nan

/-- An infinity times a number. -/
def scale (a : α) (x : Extended α) : Extended α :=
  if 0 < a then x else if a < 0 then x.neg else nan

protected def mul : Extended α → Extended α → Extended α
  | num a, num b => num (a * b)
  | num a, y => scale a y
  | x, num b => scale b x
  | nan, _ => nan
  | _, nan => nan
  | posInf, y => y
  | negInf, y => y.neg

/-- The quotient of infinities and of zeros is not-a-number; what is not zero is infinite when it is
divided by zero. -/
protected def div : Extended α → Extended α → Extended α
  | num a, num b => if b = 0 then scale a posInf else num (a / b)
  | nan, _ => nan
  | _, nan => nan
  | num _, _ => num 0
  | x, num b => if b < 0 then x.neg else x
  | _, _ => nan

protected def abs : Extended α → Extended α
  | num a => num |a|
  | nan => nan
  | _ => posInf

instance : Neg (Extended α) := ⟨Extended.neg⟩

instance : Add (Extended α) := ⟨Extended.add⟩

instance : Sub (Extended α) := ⟨fun x y => x + -y⟩

instance : Mul (Extended α) := ⟨Extended.mul⟩

instance : Div (Extended α) := ⟨Extended.div⟩

end Arithmetic

/-! ## Numbers among themselves -/

@[simp] lemma num_lt [LT α] [DecidableLT α] {a b : α} : (num a : Extended α) < num b ↔ a < b :=
  decide_eq_true_iff

@[simp] lemma num_le [LinearOrder α] {a b : α} : (num a : Extended α) ≤ num b ↔ a ≤ b := by
  show num a < num b ∨ num a = num b ∧ num a ≠ nan ↔ _
  rw [num_lt, num.injEq, le_iff_lt_or_eq]
  simp

@[simp] lemma num_add [Field α] (a b : α) : (num a + num b : Extended α) = num (a + b) := rfl

@[simp] lemma num_sub [Field α] (a b : α) : (num a - num b : Extended α) = num (a - b) := by
  rw [sub_eq_add_neg a b]
  rfl

@[simp] lemma num_mul [Field α] [LinearOrder α] (a b : α) :
    (num a * num b : Extended α) = num (a * b) := rfl

@[simp] lemma num_abs [Field α] [LinearOrder α] (a : α) :
    (num a : Extended α).abs = num |a| := rfl

/-! ## Not-a-number -/

section LinearOrder

variable [LinearOrder α] {x y : Extended α}

lemma not_le_nan : ¬x ≤ nan := by
  rintro (h | ⟨rfl, h⟩)
  · cases x <;> exact Bool.false_ne_true h
  · exact h rfl

lemma lt_asymm (h : x < y) : ¬y < x := by
  cases x <;> cases y <;> simp_all [LT.lt, below]
  exact le_of_lt h

lemma not_nan_lt : ¬nan < x := by
  cases x <;> exact Bool.false_ne_true

lemma ne_nan_of_le (h : x ≤ y) : y ≠ nan := by
  rintro rfl
  exact not_le_nan h

lemma num_lt_of_le {a b : α} (hab : a ≤ b) (h : num b < x) : num a < x := by
  cases x with
  | num c => exact num_lt.mpr (hab.trans_lt (num_lt.mp h))
  | posInf => rfl
  | negInf => cases h
  | nan => cases h

lemma num_lt_of_lt {a b : α} (hab : a < b) (h : num b ≤ x) : num a < x := by
  obtain h | ⟨rfl, -⟩ := h
  · exact num_lt_of_le hab.le h
  · exact num_lt.mpr hab

/-- The two ways to test that a value is not below another one differ at not-a-number alone. -/
theorem not_lt_iff (hx : x ≠ nan) (hy : y ≠ nan) : ¬x < y ↔ y ≤ x := by
  cases x <;> cases y <;> simp_all [LT.lt, LE.le, below, le_iff_lt_or_eq, eq_comm]

end LinearOrder

@[simp] lemma nan_add [Field α] (x : Extended α) : nan + x = nan := by
  cases x <;> rfl

@[simp] lemma add_nan [Field α] (x : Extended α) : x + nan = nan := by
  cases x <;> rfl

/-! ## Sums of squares -/

section Squares

variable [Field α] [LinearOrder α]

@[simp] lemma nan_mul_nan : (nan * nan : Extended α) = nan := rfl

/-- The squared length of a vector. -/
def sumSquares (x y z : Extended α) : Extended α := x * x + y * y + z * z

variable [IsStrictOrderedRing α] {x y z : Extended α}

lemma zero_le_mul_self (hx : x ≠ nan) : 0 ≤ x * x := by
  cases x with
  | num a => exact num_le.mpr (mul_self_nonneg a)
  | posInf => exact .inl rfl
  | negInf => exact .inl rfl
  | nan => exact absurd rfl hx

lemma zero_le_add (hx : 0 ≤ x) (hy : 0 ≤ y) : 0 ≤ x + y := by
  match x, y with
  | num a, num b => exact num_le.mpr (add_nonneg (num_le.mp hx) (num_le.mp hy))
  | num _, posInf => exact .inl rfl
  | posInf, num _ => exact .inl rfl
  | posInf, posInf => exact .inl rfl
  | nan, _ => exact absurd hx not_le_nan
  | _, nan => exact absurd hy not_le_nan
  | negInf, _ => obtain h | ⟨h, -⟩ := hx <;> cases h
  | _, negInf => obtain h | ⟨h, -⟩ := hy <;> cases h

lemma zero_le_sumSquares (hx : x ≠ nan) (hy : y ≠ nan) (hz : z ≠ nan) : 0 ≤ sumSquares x y z :=
  zero_le_add (zero_le_add (zero_le_mul_self hx) (zero_le_mul_self hy)) (zero_le_mul_self hz)

/-- A sum of squares is a number, or infinite, when its terms are. -/
theorem sumSquares_eq_nan_iff : sumSquares x y z = nan ↔ x = nan ∨ y = nan ∨ z = nan := by
  constructor
  · intro h
    by_contra hnot
    push Not at hnot
    exact ne_nan_of_le (zero_le_sumSquares hnot.1 hnot.2.1 hnot.2.2) h
  · unfold sumSquares
    rintro (rfl | rfl | rfl) <;> simp

end Squares

end Extended

end FastLivo2
