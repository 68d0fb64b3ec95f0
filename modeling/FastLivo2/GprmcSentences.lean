import FastLivo2.GprmcRecogniser

/-!
# Sentences before the recogniser

The recogniser over a stream.  A sentence that finds it still looking for a header is recognised at
its last byte.  One that comes after a header without its checksum is swallowed with it
(`RmcSentence.fires_iff`): either the buffer fills up, or the checksum is tested against everything
since that header, which succeeds only by the coincidence that the earlier bytes and the second `$`
cancel.
-/

namespace FastLivo2

/-! ## Sentences -/

/-- The value of two hexadecimal digits. -/
def hexByte (c d : UInt8) : Option UInt8 :=
  (hexValue c).bind fun a => (hexValue d).map fun b => 16 * a + b

/-- A complete sentence: a header, and a `*` with the two digits of the checksum at the end. -/
def CompleteSentence (text : List UInt8) : Prop :=
  Synchro.AtHeader text ∧
    ∃ l c d, text = l ++ [star, c, d] ∧ hexByte c d = some (xorSum l.tail)

/-- A text that ends one character after a `*` is not complete. -/
lemma not_completeSentence (l : List UInt8) (c : UInt8) : ¬ CompleteSentence (l ++ [star, c]) := by
  rintro ⟨-, l', a, b, htext, hsum⟩
  have hlast : l ++ [star, c] = (l' ++ [star]) ++ [a, b] := by
    rw [htext]
    simp
  have ha : star = a := by
    have h := (List.append_inj' hlast (by simp)).2
    simp only [List.cons.injEq] at h
    exact h.1
  rw [← ha, hexByte, show hexValue star = none from rfl] at hsum
  simp at hsum

lemma kGPRMC_header : kGPRMC = kGPRMC ∨ kGPRMC = kGNRMC := .inl rfl

/-- A well-formed sentence with a correct checksum, of a length that fits the buffer. -/
structure RmcSentence where
  header : List UInt8
  body : List UInt8
  high : UInt8
  low : UInt8
  header_eq : header = kGPRMC ∨ header = kGNRMC
  star_notMem : star ∉ body
  dollar_notMem : dollar ∉ body
  checksum_eq : hexByte high low = some (xorSum (header ++ body).tail)
  fits : body.length ≤ 119

namespace RmcSentence

variable (w : RmcSentence)

/-- The sentence without its last digit. -/
def front : List UInt8 := w.header ++ w.body ++ [star, w.high]

def text : List UInt8 := w.front ++ [w.low]

lemma length_header : w.header.length = 6 := by
  obtain h | h := w.header_eq <;> rw [h] <;> rfl

lemma length_front : w.front.length = w.body.length + 8 := by
  simp [front, w.length_header]
  omega

lemma length_text : w.text.length = w.body.length + 9 := by
  simp [text, w.length_front]

lemma dollar_ne_high : w.high ≠ dollar := by
  intro h
  have hsum := w.checksum_eq
  rw [hexByte, h, show hexValue dollar = none from rfl] at hsum
  simp at hsum

/-- The header is the only place of a `$`. -/
lemma exists_header : ∃ l, w.header = dollar :: l ∧ dollar ∉ l := by
  obtain h | h := w.header_eq
  · exact ⟨ascii ['G', 'P', 'R', 'M', 'C'], h, by decide⟩
  · exact ⟨ascii ['G', 'N', 'R', 'M', 'C'], h, by decide⟩

lemma star_notMem_header : star ∉ w.header := by
  obtain h | h := w.header_eq <;> rw [h] <;> decide

end RmcSentence

/-- A hexadecimal digit is neither the end of a text, nor blank, nor a sign. -/
lemma hexValue_plain {c v : UInt8} (h : hexValue c = some v) :
    c ≠ 0 ∧ isSpace c = false ∧ c ≠ 45 ∧ c ≠ 43 := by
  have hall : ∀ n < 256, (hexValue (UInt8.ofNat n)).isSome = true →
      UInt8.ofNat n ≠ 0 ∧ isSpace (UInt8.ofNat n) = false ∧ UInt8.ofNat n ≠ 45 ∧
        UInt8.ofNat n ≠ 43 := by
    decide +kernel
  have hc := hall c.toNat (UInt8.toNat_lt c)
  rw [UInt8.ofNat_toNat] at hc
  exact hc (by rw [h]; rfl)

/-- On two digits `sscanf` reads what they spell. -/
lemma scanHex_of_hexByte {c d v : UInt8} (h : hexByte c d = some v) :
    (scanHex (crcText c d)).toUInt8 = v := by
  cases hc : hexValue c with
  | none => simp [hexByte, hc] at h
  | some a =>
      cases hd : hexValue d with
      | none => simp [hexByte, hc, hd] at h
      | some b =>
          obtain rfl : 16 * a + b = v := by simpa [hexByte, hc, hd] using h
          obtain ⟨hc₀, hcs, hcm, hcp⟩ := hexValue_plain hc
          obtain ⟨hd₀, -, -, -⟩ := hexValue_plain hd
          have htext : crcText c d = [c, d] := by simp [crcText, hc₀, hd₀]
          rw [htext, scanHex, List.dropWhile_cons_of_neg (by simp [hcs])]
          simp only [hcm, hcp, if_false, scanDigits, hc, hd]
          simp

/-! ## The machine over a stream -/

/-- The bytes held after some more. -/
def feed (cb : Bool) (held l : List UInt8) : List UInt8 :=
  l.foldl (fun held b => (recognise cb held b).1) held

lemma feed_cons (cb : Bool) (held : List UInt8) (b : UInt8) (l : List UInt8) :
    feed cb held (b :: l) = feed cb (recognise cb held b).1 l := rfl

lemma feed_append (cb : Bool) (held l l' : List UInt8) :
    feed cb held (l ++ l') = feed cb (feed cb held l) l' := List.foldl_append

/-- The machine reports something at a byte. -/
def Fires (held : List UInt8) (b : UInt8) : Prop :=
  6 ≤ held.length ∧ held.length < 128 ∧ Completes held b

/-- What is reported is what was held, and the byte. -/
lemma recognise_obs (cb : Bool) (held : List UInt8) (b : UInt8) (text : List UInt8) :
    (recognise cb held b).2 = some text ↔ (cb = true ∧ Fires held b) ∧ text = held ++ [b] := by
  unfold recognise Fires
  split_ifs with h₁ h₂ h₃ h₄ h₅ <;> grind

/-- What is held is the end of the stream, and starts with a header when there is room for one. -/
def HeldOf (stream held : List UInt8) : Prop :=
  held <:+ stream ∧ (6 ≤ held.length → Synchro.AtHeader held)

/-- A header stays where it is. -/
lemma atHeader_append {held : List UInt8} (h : Synchro.AtHeader held) (hlen : 6 ≤ held.length)
    (b : UInt8) : Synchro.AtHeader (held ++ [b]) := by
  unfold Synchro.AtHeader at h ⊢
  rwa [List.take_append_of_le_length hlen]

/-- The machine never skips a byte of what it holds. -/
lemma recognise_heldOf {stream held : List UInt8} (h : HeldOf stream held) (b : UInt8) :
    HeldOf (stream ++ [b]) (recognise true held b).1 := by
  obtain ⟨hsuffix, hheader⟩ := h
  have hnext : held ++ [b] <:+ stream ++ [b] := by
    obtain ⟨p, rfl⟩ := hsuffix
    exact ⟨p, by simp⟩
  have hnil : HeldOf (stream ++ [b]) [] := ⟨List.nil_suffix, by simp⟩
  unfold recognise
  by_cases hshort : held.length < 5
  · rw [if_pos hshort]
    refine ⟨hnext, fun hlen => ?_⟩
    rw [List.length_append, List.length_singleton] at hlen
    omega
  rw [if_neg hshort]
  by_cases hfive : held.length = 5
  · rw [if_pos hfive]
    by_cases hat : Synchro.AtHeader (held ++ [b])
    · rw [if_pos hat]
      exact ⟨hnext, fun _ => hat⟩
    · rw [if_neg hat]
      refine ⟨(List.tail_suffix _).trans hnext, fun hlen => ?_⟩
      rw [List.length_tail, List.length_append, List.length_singleton] at hlen
      omega
  rw [if_neg hfive]
  have hat := atHeader_append (hheader (by omega)) (by omega) b
  rw [if_pos (rfl : true = true)]
  split_ifs
  · exact hnil
  · exact hnil
  · exact ⟨hnext, fun _ => hat⟩

/-- Once nothing is held, a stream without a `$` brings no report. -/
lemma not_fires_of_searching {held : List UInt8} (hlen : held.length < 6) (hd : dollar ∉ held)
    {l : List UInt8} (hl : dollar ∉ l) (b : UInt8) : ¬ Fires (feed true held l) b := by
  induction l generalizing held with
  | nil =>
      rintro ⟨hlo, -, -⟩
      have h : 6 ≤ held.length := hlo
      omega
  | cons c l ih =>
      rw [feed_cons]
      have hc : dollar ∉ held ++ [c] := by simpa [hd] using fun h => hl (by simp [h])
      have hat : ¬ Synchro.AtHeader (held ++ [c]) := by
        have hmem : ∀ h : List UInt8, dollar ∈ h → (held ++ [c]).take 6 ≠ h := by
          rintro h hh rfl
          exact hc (List.mem_of_mem_take hh)
        rintro (h | h)
        · exact hmem _ (by decide) h
        · exact hmem _ (by decide) h
      apply ih
      · unfold recognise
        split_ifs <;> simp <;> omega
      · unfold recognise
        split_ifs with h₁ h₂
        · exact hc
        · exact fun h => hc (List.mem_of_mem_tail h)
        · omega
        · omega
        · omega
        · omega
      · exact fun h => hl (List.mem_cons_of_mem _ h)

lemma kGPRMC_eq : kGPRMC = [36, 71, 80, 82, 77, 67] := rfl

lemma kGNRMC_eq : kGNRMC = [36, 71, 78, 82, 77, 67] := rfl

/-- A header is found whatever was held while it was sought. -/
lemma feed_header {held : List UInt8} (hlen : held.length < 6) (w : RmcSentence) :
    feed true held w.header = w.header := by
  match held, hlen with
  | [], _ | [_], _ | [_, _], _ | [_, _, _], _ | [_, _, _, _], _ | [_, _, _, _, _], _ =>
      obtain h | h := w.header_eq
      all_goals
        rw [h]
        simp [feed, recognise, Synchro.AtHeader, kGPRMC_eq, kGNRMC_eq]

lemma exists_last_two {l : List UInt8} (hlen : 2 ≤ l.length) : ∃ p s d, l = p ++ [s, d] := by
  obtain rfl | ⟨l, d, rfl⟩ := List.eq_nil_or_concat' l
  · simp at hlen
  · obtain rfl | ⟨p, s, rfl⟩ := List.eq_nil_or_concat' l
    · simp at hlen
    · exact ⟨p, s, d, by simp⟩

/-- A checksum is completed after a `*` two places back. -/
lemma Completes.star_mem {held l : List UInt8} {b : UInt8} (h : Completes (held ++ l) b)
    (hlen : 2 ≤ l.length) : star ∈ l.dropLast := by
  obtain ⟨p, s, d, rfl⟩ := exists_last_two hlen
  rw [← List.append_assoc, completes_append] at h
  rw [show p ++ [s, d] = (p ++ [s]) ++ [d] by simp, List.dropLast_concat, h.1]
  simp

/-- Where no checksum is completed the machine holds on to what comes. -/
lemma feed_extend {held l : List UInt8} (hlo : 6 ≤ held.length)
    (hhi : held.length + l.length ≤ 128)
    (hquiet : ∀ l₁ c l₂, l = l₁ ++ c :: l₂ → ¬ Completes (held ++ l₁) c) :
    feed true held l = held ++ l := by
  induction l generalizing held with
  | nil => exact (List.append_nil held).symm
  | cons c l ih =>
      rw [List.length_cons] at hhi
      have hc : ¬ Completes held c := by simpa using hquiet [] c l rfl
      have hstep : recognise true held c = (held ++ [c], none) := by
        rw [recognise, if_neg (by omega), if_neg (by omega), if_neg (by omega), if_neg hc]
      rw [feed_cons, hstep, ih]
      · simp
      · simp
        omega
      · simp
        omega
      · intro l₁ d l₂ hl
        simpa using hquiet (c :: l₁) d l₂ (by rw [hl]; rfl)

/-- After a header, with no `$` but at the start of what comes next, the machine reports at a byte
exactly when everything up to it fits and it is the first to complete a checksum. -/
lemma fires_feed_iff {held l : List UInt8} (b : UInt8) (hlo : 6 ≤ held.length)
    (hhi : held.length ≤ 128) (hl : dollar ∉ l.tail) :
    Fires (feed true held l) b ↔ held.length + l.length < 128 ∧
      (∀ l₁ c l₂, l = l₁ ++ c :: l₂ → ¬ Completes (held ++ l₁) c) ∧ Completes (held ++ l) b := by
  induction l generalizing held with
  | nil => simp [feed, Fires, hlo]
  | cons c l ih =>
      rw [List.tail_cons] at hl
      by_cases hfull : held.length = 128
      · have hstep : (recognise true held c).1 = [] := by
          rw [recognise, if_neg (by omega), if_neg (by omega), if_pos (by omega)]
        rw [feed_cons, hstep]
        constructor
        · intro h
          exact absurd h (not_fires_of_searching (by simp) (by simp) hl b)
        · rintro ⟨h, -⟩
          rw [List.length_cons] at h
          omega
      by_cases hc : Completes held c
      · have hstep : (recognise true held c).1 = [] := by
          rw [recognise, if_neg (by omega), if_neg (by omega), if_neg (by omega), if_pos hc]
          rfl
        rw [feed_cons, hstep]
        constructor
        · intro h
          exact absurd h (not_fires_of_searching (by simp) (by simp) hl b)
        · rintro ⟨-, h, -⟩
          have hnot := h [] c l rfl
          rw [List.append_nil] at hnot
          exact absurd hc hnot
      have hstep : (recognise true held c).1 = held ++ [c] := by
        rw [recognise, if_neg (by omega), if_neg (by omega), if_neg (by omega), if_neg hc]
      rw [feed_cons, hstep, ih (by simp; omega) (by simp; omega)
        fun h => hl (List.mem_of_mem_tail h)]
      have hquiet : (∀ l₁ d l₂, l = l₁ ++ d :: l₂ → ¬ Completes (held ++ [c] ++ l₁) d) ↔
          ∀ l₁ d l₂, c :: l = l₁ ++ d :: l₂ → ¬ Completes (held ++ l₁) d := by
        constructor
        · intro h l₁ d l₂ hsplit
          cases l₁ with
          | nil =>
              obtain ⟨rfl, -⟩ : c = d ∧ l = l₂ := by simpa using hsplit
              simpa using hc
          | cons e l₁ =>
              obtain ⟨rfl, hl'⟩ : c = e ∧ l = l₁ ++ d :: l₂ := by simpa using hsplit
              simpa using h l₁ d l₂ hl'
        · intro h l₁ d l₂ hsplit
          simpa using h (c :: l₁) d l₂ (by rw [hsplit]; rfl)
      rw [hquiet]
      simp
      omega

/-! ## When a sentence is recognised -/

namespace RmcSentence

variable (w : RmcSentence)

/-- The sentence up to its `*`. -/
def beforeStar : List UInt8 := w.header ++ w.body

lemma front_eq : w.front = w.beforeStar ++ [star, w.high] := rfl

lemma star_notMem_beforeStar : star ∉ w.beforeStar := by
  simp [beforeStar, w.star_notMem_header, w.star_notMem]

lemma dollar_notMem_tail : dollar ∉ w.front.tail := by
  obtain ⟨l, hl, hd⟩ := w.exists_header
  have hstar : dollar ≠ star := by decide
  rw [front, hl]
  simp [hd, w.dollar_notMem, hstar, w.dollar_ne_high.symm]

/-- No `*` stands among the bytes two or more before a byte of the sentence, its last one apart. -/
lemma star_notMem_dropLast {l₁ l₂ : List UInt8} {c : UInt8} (h : w.front = l₁ ++ c :: l₂) :
    star ∉ l₁.dropLast := by
  have hstart : l₁ <+: w.beforeStar ++ [star] := by
    refine ⟨(c :: l₂).dropLast, ?_⟩
    have hdrop := congrArg List.dropLast h
    rw [List.dropLast_append_of_ne_nil (by simp)] at hdrop
    rw [← hdrop, front_eq, show w.beforeStar ++ [star, w.high] =
      (w.beforeStar ++ [star]) ++ [w.high] by simp, List.dropLast_concat]
  have hsub : l₁.dropLast <+: w.beforeStar := by
    have hle : l₁.dropLast <+: w.beforeStar ++ [star] := ( List.dropLast_prefix l₁).trans hstart
    apply List.prefix_of_prefix_length_le hle (List.prefix_append _ _)
    have hlen := hstart.length_le
    simp only [List.length_append, List.length_singleton] at hlen
    rw [List.length_dropLast]
    omega
  intro hmem
  exact w.star_notMem_beforeStar (hsub.subset hmem)

/-- After bytes that end nothing, the sentence completes a checksum exactly when those bytes and
its own `$` cancel. -/
lemma completes_iff {held : List UInt8} (hne : held ≠ []) :
    Completes (held ++ w.front) w.low ↔ xorSum held.tail = dollar := by
  obtain ⟨l, hl, -⟩ := w.exists_header
  have hsum : (scanHex (crcText w.high w.low)).toUInt8 = xorSum (l ++ w.body) := by
    rw [scanHex_of_hexByte w.checksum_eq, hl]
    rfl
  rw [front_eq, ← List.append_assoc, completes_append, List.tail_append_of_ne_nil hne, hsum,
    beforeStar, hl]
  simp only [true_and, List.cons_append, xorSum_append, xorSum_cons, ← UInt8.xor_assoc]
  rw [UInt8.xor_assoc, xor_eq_right_iff, UInt8.xor_eq_zero_iff]

/-- `*`, and a control character that `sscanf` does not read and that turns it into a `$`. -/
def mask : List UInt8 := [star, 14]

/-- What `sscanf` makes of a character followed by a `$`. -/
lemma scanHex_dollar {c : UInt8}
    (h : star ^^^ c ^^^ (scanHex (crcText c dollar)).toUInt8 = dollar) :
    c = 14 := by
  have hall : ∀ n < 256, star ^^^ UInt8.ofNat n ^^^
      (scanHex (crcText (UInt8.ofNat n) dollar)).toUInt8 = dollar → UInt8.ofNat n = 14 := by
    decide +kernel
  have hc := hall c.toNat (UInt8.toNat_lt c)
  rw [UInt8.ofNat_toNat] at hc
  exact hc h

/-- No number starts with a `$`. -/
lemma scanHex_of_dollar (c : UInt8) : scanHex (crcText dollar c) = 0 := by
  by_cases hc : c = 0
  · rw [hc]
    rfl
  · have htext : crcText dollar c = [dollar, c] := by
      simp [crcText, hc]
      decide
    rw [htext]
    rfl

/-- Where earlier bytes and the `$` cancel, an earlier checksum is completed only at the `$`
itself, by the mask. -/
lemma quiet_iff {held : List UInt8} (hlen : 6 ≤ held.length) (hsum : xorSum held.tail = dollar) :
    (∀ l₁ c l₂, w.front = l₁ ++ c :: l₂ → ¬ Completes (held ++ l₁) c) ↔ ¬ mask <:+ held := by
  obtain ⟨l, hl, -⟩ := w.exists_header
  have hfront : w.front = dollar :: (l ++ w.body ++ [star, w.high]) := by
    rw [front, hl]
    rfl
  constructor
  · rintro hquiet ⟨p, rfl⟩
    have hp : p ≠ [] := by
      rintro rfl
      simp [mask] at hlen
    apply hquiet [] dollar _ hfront
    rw [List.append_nil, mask, completes_append]
    refine ⟨rfl, ?_⟩
    rw [List.tail_append_of_ne_nil hp, xorSum_append, show xorSum mask = dollar from rfl,
      xor_eq_right_iff] at hsum
    rw [hsum]
    rfl
  · intro hmask l₁ c l₂ hsplit hcomp
    match l₁ with
    | [] =>
        -- the byte is the `$`, and the `*` stood before the last byte held
        obtain ⟨rfl, -⟩ : dollar = c ∧ _ = l₂ := by simpa [hfront] using hsplit
        obtain ⟨p, s, d, rfl⟩ := exists_last_two (show 2 ≤ held.length by omega)
        have hp : p ≠ [] := by
          rintro rfl
          simp at hlen
        rw [List.append_nil, completes_append] at hcomp
        obtain ⟨rfl, hscan⟩ := hcomp
        rw [List.tail_append_of_ne_nil hp, xorSum_append, hscan, UInt8.xor_comm] at hsum
        have hd : d = 14 := scanHex_dollar (by simpa using hsum)
        exact hmask ⟨p, by rw [hd, mask]⟩
    | [e] =>
        -- the `*` was the last byte held, and the number would start with the `$`
        obtain ⟨rfl, -⟩ : dollar = e ∧ _ = c :: l₂ := by simpa [hfront] using hsplit
        obtain ⟨p, r, s, rfl⟩ := exists_last_two (show 2 ≤ held.length by omega)
        rw [show p ++ [r, s] ++ [dollar] = (p ++ [r]) ++ [s, dollar] by simp, completes_append,
          scanHex_of_dollar] at hcomp
        obtain ⟨rfl, hscan⟩ := hcomp
        rw [show p ++ [r, star] = (p ++ [r]) ++ [star] by simp,
          List.tail_append_of_ne_nil (by simp), xorSum_append, hscan] at hsum
        exact absurd hsum (by decide)
    | e :: e' :: l₁ => exact w.star_notMem_dropLast hsplit (hcomp.star_mem (by simp))

/-- What the bytes held must be for a sentence of `n` bytes to be recognised after them: no header
among them, or else room for the sentence and a sum that its `$` cancels. -/
def Receptive (held : List UInt8) (n : ℕ) : Prop :=
  held.length < 6 ∨ held.length + n ≤ 128 ∧ xorSum held.tail = dollar ∧ ¬ mask <:+ held

/-- A machine that holds no header reads a sentence up to its last digit. -/
lemma feed_front {held : List UInt8} (hlen : held.length < 6) :
    feed true held w.front = w.front := by
  rw [front, List.append_assoc, feed_append, feed_header hlen, feed_extend]
  · rw [w.length_header]
  · have hfits := w.fits
    rw [w.length_header]
    simp
    omega
  · intro l₁ c l₂ hsplit hcomp
    have hfront : w.front = (w.header ++ l₁) ++ c :: l₂ := by
      rw [front, List.append_assoc, hsplit, List.append_assoc]
    have hnil : Completes ([] ++ (w.header ++ l₁)) c := hcomp
    apply w.star_notMem_dropLast hfront
    apply hnil.star_mem
    rw [List.length_append, w.length_header]
    omega

/-- The last digit completes the checksum. -/
lemma fires_front : Fires w.front w.low := by
  have hfront := w.length_front
  have hfits := w.fits
  refine ⟨by omega, by omega, ?_⟩
  rw [front_eq, completes_append]
  exact ⟨rfl, (scanHex_of_hexByte w.checksum_eq).symm⟩

/-- A machine that holds no header holds nothing after a sentence. -/
lemma feed_text {held : List UInt8} (hlen : held.length < 6) : feed true held w.text = [] := by
  obtain ⟨hlo, hhi, hcomp⟩ := w.fires_front
  rw [text, feed_append, w.feed_front hlen, feed_cons, recognise, if_neg (by omega),
    if_neg (by omega), if_neg (by omega), if_pos hcomp]
  rfl

/-- The machine reports something at the last byte of a sentence exactly when it is receptive. -/
theorem fires_iff {held : List UInt8} (hlen : held.length ≤ 128) :
    Fires (feed true held w.front) w.low ↔ Receptive held w.text.length := by
  by_cases hsearch : held.length < 6
  · rw [w.feed_front hsearch]
    constructor
    · intro
      exact .inl hsearch
    · intro
      exact w.fires_front
  · have hne : held ≠ [] := by
      rintro rfl
      simp at hsearch
    rw [fires_feed_iff _ (by omega) hlen w.dollar_notMem_tail, w.completes_iff hne, Receptive,
      or_iff_right hsearch, w.length_text, w.length_front]
    constructor
    · rintro ⟨hroom, hquiet, hsum⟩
      exact ⟨by omega, hsum, (w.quiet_iff (by omega) hsum).mp hquiet⟩
    · rintro ⟨hroom, hsum, hmask⟩
      exact ⟨by omega, (w.quiet_iff (by omega) hsum).mpr hmask, hsum⟩

end RmcSentence

end FastLivo2
