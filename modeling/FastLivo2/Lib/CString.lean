import Mathlib.Data.List.Infix
import Mathlib.Data.UInt
import Mathlib.Tactic.NormNum

/-!
# Strings of C

A pointer into a string is what is left of the string from there on.  The module has the functions
of the standard library that parsers are written with, and what they do on text that is laid out in
cells: a search for a key that ends in a mark, and the reading of a number.
-/

namespace FastLivo2

namespace CString

/-! ## The functions -/

/-- `isspace`. -/
def isSpace (c : Char) : Bool := c == ' ' || ('\t' ≤ c && c ≤ '\r')

def isDigit (c : Char) : Bool := '0' ≤ c && c ≤ '9'

/-- `strstr`, with the needle first. -/
def strstr (needle : List Char) : List Char → Option (List Char)
  | [] => if needle = [] then some [] else none
  | c :: s => if needle <+: c :: s then some (c :: s) else strstr needle s

/-- The number that digits stand for. -/
def numeral (digits : List Char) : ℕ :=
  digits.foldl (fun n c => 10 * n + (c.toNat - '0'.toNat)) 0

/-- An optional sign: whether it is a minus, and what follows. -/
def sign : List Char → Bool × List Char
  | '-' :: s => (true, s)
  | '+' :: s => (false, s)
  | s => (false, s)

/-- The result of a conversion: the largest number stands for those out of range. -/
def toULL (minus : Bool) (n : ℕ) : UInt64 :=
  if 2 ^ 64 ≤ n then 0xFFFFFFFFFFFFFFFF
  else if minus then -UInt64.ofNat n else UInt64.ofNat n

/-- `strtoull` in base ten: the number and the end of it, or `none` if the end is the beginning. -/
def strtoull (s : List Char) : Option (UInt64 × List Char) :=
  let signed := sign (s.dropWhile isSpace)
  let digits := signed.2.takeWhile isDigit
  if digits = [] then none
  else some (toULL signed.1 (numeral digits), signed.2.dropWhile isDigit)

/-! ## Search -/

variable {needle s t : List Char}

lemma strstr_of_prefix (h : needle <+: s) : strstr needle s = some s := by
  cases s with
  | nil => simp [strstr, List.prefix_nil.mp h]
  | cons c s => rw [strstr, if_pos h]

/-- A text in which the needle does not begin is skipped. -/
lemma strstr_append (pre : List Char)
    (h : ∀ u v, pre = u ++ v → v ≠ [] → ¬needle <+: v ++ s) :
    strstr needle (pre ++ s) = strstr needle s := by
  induction pre with
  | nil => rfl
  | cons c pre ih =>
    have hc : ¬needle <+: c :: (pre ++ s) := h [] (c :: pre) rfl (List.cons_ne_nil c pre)
    rw [List.cons_append, strstr, if_neg hc]
    exact ih fun u v huv hv => h (c :: u) v (congrArg (c :: ·) huv) hv

/-! ## Keys that end in a mark -/

variable {m : Char} {f : List Char}

lemma key_prefix_iff {b : List Char} (hf : m ∉ f) (hb : m ∉ b) :
    f ++ [m] <+: b ++ m :: s ↔ f = b := by
  induction f generalizing b with
  | nil =>
    cases b with
    | nil => simp
    | cons c b =>
      have hne : m ≠ c := fun h => hb (h ▸ List.mem_cons_self)
      simp [hne]
  | cons a f ih =>
    cases b with
    | nil =>
      have hne : a ≠ m := fun h => hf (h ▸ List.mem_cons_self)
      simp [hne]
    | cons c b =>
      have hf' : m ∉ f := fun h => hf (List.mem_cons_of_mem a h)
      have hb' : m ∉ b := fun h => hb (List.mem_cons_of_mem c h)
      rw [List.cons_append, List.cons_append, List.cons_prefix_cons, ih hf' hb', List.cons.injEq]

/-- Where the mark first stands, the key is found if what stands before it ends in the rest of the
key; else the search goes on behind the mark. -/
lemma strstr_key {b : List Char} (hf : m ∉ f) (hb : m ∉ b) :
    strstr (f ++ [m]) (b ++ m :: s) =
      if f <:+ b then some (f ++ m :: s) else strstr (f ++ [m]) s := by
  induction b with
  | nil =>
    have hpre : f ++ [m] <+: m :: s ↔ f = [] := key_prefix_iff hf List.not_mem_nil
    rw [List.nil_append, strstr]
    by_cases hnil : f = []
    · rw [if_pos (hpre.mpr hnil), if_pos (List.suffix_nil.mpr hnil), hnil]
      rfl
    · rw [if_neg (mt hpre.mp hnil), if_neg (mt List.suffix_nil.mp hnil)]
  | cons c b ih =>
    have hb' : m ∉ b := fun h => hb (List.mem_cons_of_mem c h)
    have hpre : f ++ [m] <+: c :: (b ++ m :: s) ↔ f = c :: b := key_prefix_iff hf hb
    rw [List.cons_append, strstr, ih hb']
    by_cases heq : f = c :: b
    · rw [if_pos (hpre.mpr heq), if_pos (List.suffix_cons_iff.mpr (.inl heq)), heq]
      rfl
    · have hsuffix : f <:+ c :: b ↔ f <:+ b := by rw [List.suffix_cons_iff, or_iff_right heq]
      rw [if_neg (mt hpre.mp heq)]
      simp only [hsuffix]

/-- Without the mark there is no key. -/
lemma strstr_key_eq_none (hs : m ∉ s) : strstr (f ++ [m]) s = none := by
  induction s with
  | nil => simp [strstr]
  | cons c s ih =>
    have hnot : ¬f ++ [m] <+: c :: s := fun h =>
      hs (h.subset (List.mem_append_right f (List.mem_singleton_self m)))
    rw [strstr, if_neg hnot]
    exact ih fun h => hs (List.mem_cons_of_mem c h)

/-! ## Numbers -/

/-- A number as it stands in a text. -/
structure Numeral where
  minus : Bool
  digits : List Char
  ne_nil : digits ≠ []
  digit : ∀ c ∈ digits, isDigit c = true
  lt : numeral digits < 2 ^ 64

def Numeral.text (n : Numeral) : List Char := (if n.minus then ['-'] else []) ++ n.digits

/-- The number as one of 64 bits. -/
def Numeral.value (n : Numeral) : UInt64 :=
  if n.minus then -UInt64.ofNat (numeral n.digits) else UInt64.ofNat (numeral n.digits)

/-- A character that does not go on a number. -/
def Ends (s : List Char) : Prop := ∀ c ∈ s.head?, isDigit c = false

lemma dropWhile_append_of_ends {p : Char → Bool} (hs : ∀ c ∈ s, p c = true)
    (ht : ∀ c ∈ t.head?, p c = false) : (s ++ t).dropWhile p = t := by
  rw [List.dropWhile_append_of_pos hs]
  cases t with
  | nil => rfl
  | cons c t => rw [List.dropWhile_cons_of_neg (Bool.eq_false_iff.mp (ht c rfl))]

lemma takeWhile_append_of_ends {p : Char → Bool} (hs : ∀ c ∈ s, p c = true)
    (ht : ∀ c ∈ t.head?, p c = false) : (s ++ t).takeWhile p = s := by
  rw [List.takeWhile_append_of_pos hs]
  cases t with
  | nil => simp
  | cons c t => simp [ht c rfl]

lemma isDigit_iff {c : Char} : isDigit c = true ↔ 48 ≤ c.toNat ∧ c.toNat ≤ 57 := by
  unfold isDigit
  rw [Bool.and_eq_true_iff, decide_eq_true_iff, decide_eq_true_iff]
  exact Iff.rfl

lemma isSpace_eq_false_of_lt {c : Char} (h : 32 < c.toNat) : isSpace c = false := by
  unfold isSpace
  rw [Bool.or_eq_false_iff, Bool.and_eq_false_iff, beq_eq_false_iff_ne]
  refine ⟨fun hc => ?_, .inr (decide_eq_false fun hle => ?_)⟩
  · subst hc
    exact absurd h (by decide)
  · have hle : c.toNat ≤ 13 := hle
    omega

variable {n : Numeral}

lemma Numeral.text_ne_nil (n : Numeral) : n.text ≠ [] :=
  List.append_ne_nil_of_right_ne_nil _ n.ne_nil

lemma head_digits (n : Numeral) : ∃ c ds, n.digits = c :: ds ∧ isDigit c = true := by
  obtain ⟨c, ds, hds⟩ := List.exists_cons_of_ne_nil n.ne_nil
  exact ⟨c, ds, hds, n.digit c (hds ▸ List.mem_cons_self)⟩

/-- The text of a number is its sign and its digits. -/
lemma sign_text (n : Numeral) (t : List Char) :
    sign (n.text ++ t) = (n.minus, n.digits ++ t) := by
  obtain ⟨c, ds, hds, hc⟩ := head_digits n
  have hminus : c ≠ '-' := by
    rintro rfl
    exact absurd hc (by decide)
  have hplus : c ≠ '+' := by
    rintro rfl
    exact absurd hc (by decide)
  unfold Numeral.text
  cases n.minus with
  | true => rfl
  | false =>
    rw [hds]
    simp only [Bool.false_eq_true, if_false, List.nil_append, List.cons_append]
    unfold sign
    split
    · exact absurd (List.cons.inj ‹_›).1 hminus
    · exact absurd (List.cons.inj ‹_›).1 hplus
    · rfl

lemma not_mem_text {d : Char} (hsign : d ≠ '-') (hdigit : isDigit d = false) (n : Numeral) :
    d ∉ n.text := by
  intro hmem
  rcases List.mem_append.mp hmem with hminus | hmem
  · split at hminus
    · exact hsign (List.mem_singleton.mp hminus)
    · exact List.not_mem_nil hminus
  · exact Bool.false_ne_true (hdigit.symm.trans (n.digit d hmem))

/-- The first character of a number is not a space. -/
lemma head_text (n : Numeral) (t : List Char) : ∀ c ∈ (n.text ++ t).head?, isSpace c = false := by
  obtain ⟨c, ds, hds, hc⟩ := head_digits n
  unfold Numeral.text
  cases n.minus with
  | true => simpa using isSpace_eq_false_of_lt (by decide : 32 < '-'.toNat)
  | false =>
    have hlt : 32 < c.toNat := by have := isDigit_iff.mp hc; omega
    simpa [hds] using isSpace_eq_false_of_lt hlt

/-- **Reading a number.**  After any spaces, a number is read up to its end. -/
theorem strtoull_text (n : Numeral) {sp t : List Char} (hsp : ∀ c ∈ sp, isSpace c = true)
    (ht : Ends t) : strtoull (sp ++ (n.text ++ t)) = some (n.value, t) := by
  have hspaces : (sp ++ (n.text ++ t)).dropWhile isSpace = n.text ++ t :=
    dropWhile_append_of_ends hsp (head_text n t)
  have hvalue : toULL n.minus (numeral n.digits) = n.value := by
    rw [toULL, if_neg (Nat.not_le.mpr n.lt)]
    rfl
  simp only [strtoull, hspaces, sign_text]
  rw [takeWhile_append_of_ends n.digit ht, dropWhile_append_of_ends n.digit ht, if_neg n.ne_nil,
    hvalue]

/-! ## Rows -/

/-- Some blanks. -/
def blanks (k : ℕ) : List Char := List.replicate k ' '

lemma blanks_spaces (k : ℕ) : ∀ c ∈ blanks k, isSpace c = true := by
  intro c hc
  rw [List.eq_of_mem_replicate hc]
  rfl

/-- Numbers, each behind at least one blank. -/
def numbers (l : List (ℕ × Numeral)) : List Char :=
  l.flatMap fun c => blanks (c.1 + 1) ++ c.2.text

lemma numbers_cons (c : ℕ × Numeral) (l : List (ℕ × Numeral)) :
    numbers (c :: l) = blanks (c.1 + 1) ++ (c.2.text ++ numbers l) := by
  rw [numbers, List.flatMap_cons, List.append_assoc]
  rfl

lemma ends_numbers (l : List (ℕ × Numeral)) (ht : Ends t) : Ends (numbers l ++ t) := by
  cases l with
  | nil => exact ht
  | cons c l =>
    rw [numbers_cons]
    intro d hd
    obtain rfl : d = ' ' := (Option.some.inj hd).symm
    rfl

/-- The first number of a row. -/
lemma strtoull_numbers (c : ℕ × Numeral) (l : List (ℕ × Numeral)) (ht : Ends t) :
    strtoull (numbers (c :: l) ++ t) = some (c.2.value, numbers l ++ t) := by
  rw [numbers_cons, List.append_assoc, List.append_assoc]
  exact strtoull_text c.2 (blanks_spaces _) (ends_numbers l ht)

/-- Characters that no number has are not in a row. -/
lemma not_mem_numbers {d : Char} (hd : d ≠ ' ') (hsign : d ≠ '-') (hdigit : isDigit d = false)
    (l : List (ℕ × Numeral)) : d ∉ numbers l := by
  intro hmem
  obtain ⟨c, -, hc⟩ := List.mem_flatMap.mp hmem
  rcases List.mem_append.mp hc with hblank | htext
  · exact hd (List.eq_of_mem_replicate hblank)
  · exact not_mem_text hsign hdigit c.2 htext

end CString

end FastLivo2
