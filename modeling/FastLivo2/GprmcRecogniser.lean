import FastLivo2.Synchro

/-!
# What the GPRMC recogniser recognises

Behind its buffer and index, `ParseGps` is a machine over the bytes it *holds*: up to five bytes
that could be the start of a header, or a header and what came after it.  `recognise` is that
machine, and `decodeByte_recognise` says that the code is it, without ever leaving the buffer.

A byte is tested against the checksum when the one two places before it is a `*`.  Nothing else ends
a sentence that has begun: the machine holds on to what it has until a checksum matches or 128 bytes
are full.
-/

namespace FastLivo2

/-! ## The machine over the bytes held -/

/-- The two bytes after a `*` spell, for `sscanf`, the checksum of what stands between the first
byte and the `*`. -/
def Completes (held : List UInt8) (b : UInt8) : Prop :=
  held[held.length - 2]? = some star ∧
    xorSum (held.take (held.length - 2)).tail = (scanHex (crcText (held.getLastD 0) b)).toUInt8

instance (held : List UInt8) (b : UInt8) : Decidable (Completes held b) :=
  inferInstanceAs (Decidable (_ ∧ _))

/-- A byte taken: the bytes held from then on, and a text recognised. -/
def recognise (cb : Bool) (held : List UInt8) (b : UInt8) : List UInt8 × Option (List UInt8) :=
  if held.length < 5 then (held ++ [b], none)
  else if held.length = 5 then
    (if Synchro.AtHeader (held ++ [b]) then held ++ [b] else (held ++ [b]).tail, none)
  else if 128 ≤ held.length then ([], none)
  else if Completes held b then
    if cb then ([], some (held ++ [b])) else (held, none)
  else (held ++ [b], none)

lemma completes_append {l : List UInt8} {s c b : UInt8} :
    Completes (l ++ [s, c]) b ↔
      s = star ∧ xorSum l.tail = (scanHex (crcText c b)).toUInt8 := by
  have hlen : (l ++ [s, c]).length - 2 = l.length := by simp
  have hlast : (l ++ [s, c]).getLastD 0 = c := by
    rw [show l ++ [s, c] = (l ++ [s]) ++ [c] by simp, List.getLastD_concat]
  rw [Completes, hlen, hlast, List.take_left']
  · simp
  · rfl

/-! ## The buffer accesses -/

namespace RmcBuffer

variable {buf : RmcBuffer} {i : ℕ} {b : UInt8}

lemma read_eq_ok (h : buf.bytes[i]? = some b) : buf.read i = .ok b := by
  simp [read, h]

lemma write_eq_ok (buf : RmcBuffer) (b : UInt8) (hi : i < 128) :
    ∃ t, buf.write i b = .ok t ∧ t.bytes = buf.bytes.set i b :=
  ⟨⟨buf.bytes.set i b, buf.length_set i b⟩, if_pos hi, rfl⟩

end RmcBuffer

namespace Synchro

open RmcBuffer

/-- The header window moves on without leaving the buffer. -/
lemma shiftIn_eq_ok (buf : RmcBuffer) (b : UInt8) : ∃ t, shiftIn buf b = .ok t ∧
    t.bytes = (buf.bytes.take 6).tail ++ b :: buf.bytes.drop 6 := by
  obtain ⟨bytes, hsize⟩ := buf
  match bytes, hsize with
  | b₀ :: b₁ :: b₂ :: b₃ :: b₄ :: b₅ :: l, hsize => exact ⟨⟨_, by simpa using hsize⟩, rfl, rfl⟩

/-- The checksum loop stays inside the buffer. -/
lemma xorLoop_eq_ok (buf : RmcBuffer) {n : ℕ} (hn : n < 128) :
    xorLoop buf (n + 1) = .ok (xorSum (buf.bytes.take (n + 1)).tail) := by
  induction n with
  | zero =>
      have htake : (buf.bytes.take 1).tail = [] := by
        apply List.eq_nil_of_length_eq_zero
        simp [buf.size_eq]
      show Except.ok 0 = _
      rw [htake, xorSum_nil]
  | succ n ih =>
      have hlt : n + 1 < buf.bytes.length := by
        rw [buf.size_eq]
        exact hn
      have hread : buf.read (n + 1) = .ok buf.bytes[n + 1] :=
        read_eq_ok (List.getElem?_eq_getElem hlt)
      have htail : (buf.bytes.take (n + 1 + 1)).tail =
          (buf.bytes.take (n + 1)).tail ++ [buf.bytes[n + 1]] := by
        rw [List.take_succ_eq_append_getElem hlt, List.tail_append_of_ne_nil]
        intro hnil
        simpa [buf.size_eq] using congrArg List.length hnil
      have ih' := ih (by omega)
      simp only [xorLoop, Nat.add_sub_cancel] at ih' ⊢
      rw [List.range'_1_concat, List.foldlM_append, ih', Nat.add_comm 1 n]
      simp [bind, Except.bind, pure, Except.pure, hread, Except.map, htail]

/-- A place in the buffer with the two bytes before it. -/
lemma exists_cut {buf : RmcBuffer} {n : ℕ} {b : UInt8} (hlo : 6 ≤ n) (hhi : n < 128)
    (hb : buf.bytes[n]? = some b) :
    ∃ l s c rest, l.length = n - 2 ∧ buf.bytes = l ++ s :: c :: b :: rest := by
  have hsize := buf.size_eq
  have hcons : ∀ i < 128, buf.bytes.drop i = buf.bytes.getD i 0 :: buf.bytes.drop (i + 1) := by
    intro i hi
    rw [List.drop_eq_getElem_cons (by omega), List.getD_eq_getElem?_getD,
      List.getElem?_eq_getElem (by omega)]
    rfl
  have hbD : buf.bytes.getD n 0 = b := by
    rw [List.getD_eq_getElem?_getD, hb]
    rfl
  have hdrop : buf.bytes.drop (n - 2) =
      buf.bytes.getD (n - 2) 0 :: buf.bytes.getD (n - 1) 0 :: b :: buf.bytes.drop (n + 1) := by
    rw [hcons _ (by omega), show n - 2 + 1 = n - 1 by omega, hcons _ (by omega),
      show n - 1 + 1 = n by omega, hcons _ hhi, hbD]
  refine ⟨buf.bytes.take (n - 2), buf.bytes.getD (n - 2) 0, buf.bytes.getD (n - 1) 0,
    buf.bytes.drop (n + 1), ?_, ?_⟩
  · rw [List.length_take]
    omega
  · rw [← hdrop, List.take_append_drop]

/-- The checksum test stays inside the buffer, and is the test of the machine. -/
lemma checksumMatches_eq_ok {buf : RmcBuffer} {n : ℕ} {b : UInt8} (hlo : 6 ≤ n) (hhi : n < 128)
    (hb : buf.bytes[n]? = some b) :
    checksumMatches buf n = .ok (decide (Completes (buf.bytes.take n) b)) := by
  obtain ⟨l, s, c, rest, hl, hbytes⟩ := exists_cut hlo hhi hb
  have htake : buf.bytes.take n = l ++ [s, c] := by
    rw [hbytes, show n = l.length + 2 by omega, List.take_length_add_append]
    rfl
  have hs : buf.read (n - 2) = .ok s := by
    apply read_eq_ok
    rw [hbytes, ← hl, List.getElem?_append_right le_rfl]
    simp
  have hc : buf.read (n - 1) = .ok c := by
    apply read_eq_ok
    rw [hbytes, show n - 1 = l.length + 1 by omega, List.getElem?_append_right (by omega)]
    simp
  have hxor : xorLoop buf (n - 2) = .ok (xorSum l.tail) := by
    have h := xorLoop_eq_ok buf (n := n - 3) (by omega)
    rwa [show n - 3 + 1 = n - 2 by omega, ← hl, hbytes, List.take_left' rfl, hl] at h
  have hcomp : Completes (buf.bytes.take n) b ↔
      s = star ∧ xorSum l.tail = (scanHex (crcText c b)).toUInt8 := by
    rw [htake, completes_append]
  -- without a first character there is no second one to look at
  have hcrc : c = 0 → crcText c b = [] := by
    rintro rfl
    rfl
  unfold checksumMatches
  rw [hs, hxor, hc, read_eq_ok hb]
  by_cases hstar : s = star
  · by_cases hzero : c = 0
    · simp [bind, Except.bind, pure, Except.pure, hstar, hzero, hcomp, ← hcrc]
    · simp [bind, Except.bind, pure, Except.pure, Except.map, hstar, hzero, hcomp]
  · simp [bind, Except.bind, pure, Except.pure, hstar, hcomp]

/-! ## The code is the machine -/

/-- The bytes the recogniser holds: the end of the header window, or all that is in the buffer. -/
def held (s : Synchro) : List UInt8 :=
  if s.curLen < 6 then (s.rmcBuff.bytes.take 6).drop (6 - s.curLen)
  else s.rmcBuff.bytes.take s.curLen

lemma held_length {s : Synchro} (hs : s.curLen ≤ 128) : s.held.length = s.curLen := by
  unfold held
  split_ifs with h
  · rw [List.length_drop, List.length_take, s.rmcBuff.size_eq]
    omega
  · rw [List.length_take, s.rmcBuff.size_eq]
    omega

@[simp] lemma held_cleared (cb : Bool) : (cleared cb).held = [] := rfl

@[simp] lemma held_clear (s : Synchro) : s.clear.held = [] := rfl

/-- A held byte sequence one byte on. -/
lemma held_advance {s : Synchro} {t : RmcBuffer} {b : UInt8} (hs : s.curLen < 6)
    (ht : t.bytes = (s.rmcBuff.bytes.take 6).tail ++ b :: s.rmcBuff.bytes.drop 6) :
    t.bytes.take 6 = (s.rmcBuff.bytes.take 6).tail ++ [b] ∧
      s.held ++ [b] = (t.bytes.take 6).drop (5 - s.curLen) := by
  have hlen : (s.rmcBuff.bytes.take 6).tail.length = 5 := by
    rw [List.length_tail, List.length_take, s.rmcBuff.size_eq]
    rfl
  have htake : t.bytes.take 6 = (s.rmcBuff.bytes.take 6).tail ++ [b] := by
    have hcut : ∀ l l' : List UInt8, l.length = 5 → (l ++ b :: l').take 6 = l ++ [b] := by
      intro l l' hl
      rw [show 6 = l.length + 1 by omega, List.take_length_add_append]
      rfl
    rw [ht, hcut _ _ hlen]
  refine ⟨htake, ?_⟩
  rw [held, if_pos hs, htake, List.drop_append_of_le_length (by omega), List.drop_tail]
  congr 2
  omega

end Synchro

/-- The text a report is about: what the callback is told to read, and the byte after it. -/
def Report.sentence (r : Report) : List UInt8 := r.rmc.bytes.take (r.rmcLength + 1)

namespace Synchro

/-- The code takes a byte as the machine does, without an access outside the buffer.  The length it
reports is one short of the text recognised. -/
def TakesByte (s : Synchro) (b : UInt8) : Prop :=
  ∃ t o, s.decodeByte b = .ok (t, o) ∧ t.curLen ≤ 128 ∧ t.syncTimerCb = s.syncTimerCb ∧
    (t.held, o.map Report.sentence) = recognise s.syncTimerCb s.held b ∧
    ∀ r ∈ o, r.text = s.held

lemma length_kGPRMC : kGPRMC.length = 6 := rfl

/-- A byte while a header is sought. -/
lemma takesByte_of_searching {s : Synchro} (hs : s.curLen < 6) (b : UInt8) : s.TakesByte b := by
  obtain ⟨buf, hbuf, hbytes⟩ := shiftIn_eq_ok s.rmcBuff b
  obtain ⟨-, happ⟩ := held_advance hs hbytes
  have hlen : s.held.length = s.curLen := held_length (by omega)
  unfold TakesByte recognise
  rw [hlen]
  by_cases hfive : s.curLen = 5
  · have hheld : s.held ++ [b] = buf.bytes.take 6 := by
      rw [happ, hfive]
      rfl
    have hat : AtHeader (s.held ++ [b]) ↔ AtHeader buf.bytes := by
      rw [hheld, AtHeader, AtHeader, List.take_take, min_self]
    rw [if_neg (by omega), if_pos hfive]
    by_cases hh : AtHeader buf.bytes
    · refine ⟨{ s with rmcBuff := buf, curLen := 6 }, none, ?_, by simp, rfl, ?_, by simp⟩
      · simp [decodeByte, parseGps, length_kGPRMC, hfive, hbuf, hh, bind, Except.bind, pure,
          Except.pure]
      · rw [if_pos (hat.mpr hh), hheld]
        rfl
    · refine ⟨{ s with rmcBuff := buf, curLen := 5 }, none, ?_, by simp, rfl, ?_, by simp⟩
      · simp [decodeByte, parseGps, length_kGPRMC, hfive, hbuf, hh, bind, Except.bind, pure,
          Except.pure]
      · rw [if_neg (hat.not.mpr hh), hheld, ← List.drop_one]
        rfl
  · rw [if_pos (by omega)]
    refine ⟨{ s with rmcBuff := buf, curLen := s.curLen + 1 }, none, ?_, ?_, rfl, ?_, by simp⟩
    · have hne : s.curLen + 1 ≠ 6 := by omega
      simp [decodeByte, parseGps, length_kGPRMC, hs, hne, hbuf, bind, Except.bind, pure,
        Except.pure]
    · show s.curLen + 1 ≤ 128
      omega
    · have hlt' : s.curLen + 1 < 6 := by omega
      rw [happ, held, if_pos hlt', show 6 - (s.curLen + 1) = 5 - s.curLen by omega]
      rfl

/-- A byte when the buffer is full: everything is dropped, the byte with it. -/
lemma takesByte_of_full {s : Synchro} (hs : s.curLen = 128) (b : UInt8) : s.TakesByte b := by
  have hlen : s.held.length = s.curLen := held_length (by omega)
  unfold TakesByte recognise
  rw [hlen, if_neg (by omega), if_neg (by omega), if_pos (by omega)]
  refine ⟨s.clear, none, ?_, by simp [clear], rfl, rfl, by simp⟩
  simp [decodeByte, parseGps, length_kGPRMC, hs, bind, Except.bind, pure, Except.pure]

/-- A byte after a header. -/
lemma takesByte_of_accumulating {s : Synchro} (hlo : 6 ≤ s.curLen) (hhi : s.curLen < 128)
    (b : UInt8) : s.TakesByte b := by
  have hlen : s.held.length = s.curLen := held_length (by omega)
  have hlt : ¬ s.curLen < 6 := by omega
  have hfull : ¬ 128 ≤ s.curLen := by omega
  obtain ⟨buf, hbuf, hbytes⟩ := s.rmcBuff.write_eq_ok b hhi
  have hb : buf.bytes[s.curLen]? = some b := by
    rw [hbytes, List.getElem?_set_self]
    rw [s.rmcBuff.size_eq]
    exact hhi
  have hheld : buf.bytes.take s.curLen = s.held := by
    rw [hbytes, List.take_set_of_le le_rfl, held, if_neg hlt]
  have hnext : buf.bytes.take (s.curLen + 1) = s.held ++ [b] := by
    rw [List.take_add_one, hheld, hb]
    rfl
  have hmatch := checksumMatches_eq_ok hlo hhi hb
  rw [hheld] at hmatch
  have hparse : s.parseGps b = .ok (if Completes s.held b then ({ s with rmcBuff := buf }, true)
      else ({ s with rmcBuff := buf, curLen := s.curLen + 1 }, false)) := by
    by_cases hcomp : Completes s.held b
    · simp [parseGps, length_kGPRMC, hlt, hfull, hbuf, hmatch, hcomp, bind, Except.bind, pure,
        Except.pure]
    · simp [parseGps, length_kGPRMC, hlt, hfull, hbuf, hmatch, hcomp, bind, Except.bind, pure,
        Except.pure]
  unfold TakesByte recognise decodeByte
  rw [hlen, if_neg (by omega), if_neg (by omega), if_neg hfull, hparse]
  by_cases hcomp : Completes s.held b
  · rw [if_pos hcomp, if_pos hcomp]
    by_cases hcb : s.syncTimerCb = true
    · refine ⟨({ s with rmcBuff := buf } : Synchro).clear, some ⟨buf, s.curLen⟩, ?_, ?_, rfl,
        ?_, ?_⟩
      · simp [hcb, bind, Except.bind, pure, Except.pure]
      · simp [clear]
      · rw [if_pos hcb, held_clear, Option.map_some, Report.sentence, hnext]
      · rintro r ⟨⟩
        exact hheld
    · refine ⟨{ s with rmcBuff := buf }, none, ?_, hhi.le, rfl, ?_, by simp⟩
      · simp [hcb, bind, Except.bind, pure, Except.pure]
      · rw [if_neg hcb, held, if_neg hlt, Option.map_none, hheld]
  · rw [if_neg hcomp, if_neg hcomp]
    refine ⟨{ s with rmcBuff := buf, curLen := s.curLen + 1 }, none, ?_, ?_, rfl, ?_, by simp⟩
    · simp [bind, Except.bind, pure, Except.pure]
    · show s.curLen + 1 ≤ 128
      omega
    · have hge : ¬ s.curLen + 1 < 6 := by omega
      rw [held, if_neg hge, Option.map_none, hnext]

/-- **The code is the machine** from every state a run can be in. -/
theorem takesByte {s : Synchro} (hs : s.curLen ≤ 128) (b : UInt8) : s.TakesByte b := by
  by_cases hlt : s.curLen < 6
  · exact takesByte_of_searching hlt b
  · by_cases hfull : s.curLen = 128
    · exact takesByte_of_full hfull b
    · exact takesByte_of_accumulating (by omega) (by omega) b

end Synchro

end FastLivo2
