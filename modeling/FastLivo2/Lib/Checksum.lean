import Mathlib

/-!
# Exclusive-or checksums

The checksum of a byte string is the exclusive or of its bytes.  It turns concatenation into
exclusive or (`xorSum_append`), so a string whose checksum is known can be cut off either end.
-/

namespace FastLivo2

/-- The exclusive or of the bytes of a string. -/
def xorSum (l : List UInt8) : UInt8 := l.foldl (· ^^^ ·) 0

lemma foldl_xor (a : UInt8) (l : List UInt8) : l.foldl (· ^^^ ·) a = a ^^^ xorSum l := by
  induction l generalizing a with
  | nil => simp [xorSum]
  | cons b l ih =>
      have hb : xorSum (b :: l) = b ^^^ xorSum l := by
        show l.foldl (· ^^^ ·) (0 ^^^ b) = _
        rw [ih, UInt8.zero_xor]
      rw [List.foldl_cons, ih, hb, UInt8.xor_assoc]

@[simp] lemma xorSum_nil : xorSum [] = 0 := rfl

@[simp] lemma xorSum_cons (b : UInt8) (l : List UInt8) : xorSum (b :: l) = b ^^^ xorSum l := by
  show l.foldl (· ^^^ ·) (0 ^^^ b) = _
  rw [foldl_xor, UInt8.zero_xor]

@[simp] lemma xorSum_append (l l' : List UInt8) :
    xorSum (l ++ l') = xorSum l ^^^ xorSum l' := by
  induction l with
  | nil => simp
  | cons b l ih => rw [List.cons_append, xorSum_cons, ih, xorSum_cons, UInt8.xor_assoc]

/-- A checksum agrees with one of its summands exactly when the other vanishes. -/
lemma xor_eq_right_iff {a b : UInt8} : a ^^^ b = b ↔ a = 0 := by
  constructor
  · intro h
    apply (UInt8.xor_left_inj b).mp
    rw [h, UInt8.zero_xor]
  · rintro rfl
    exact UInt8.zero_xor

end FastLivo2
