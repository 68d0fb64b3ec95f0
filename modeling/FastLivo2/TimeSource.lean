import FastLivo2.GprmcCallback

/-!
# The STM32 time source

`stm32_timersync-open/HARDWARE/TIMER/timer.c`: the interrupt of the one-second timer `TIM3` counts
hours, minutes and seconds from power-on and prints a `$GPRMC` sentence with the count as its time.
The date is a constant of the format.  So every sentence is accepted by the host, and is one second
after the one before it, until the count starts over at midnight and the date does not move on
(`tickOk_iff`).

Two accesses of the source are undefined behaviour and are read as the hardware carries them out.
`gprmcStr` fills its seven bytes and has no terminator; the byte after it is taken to be zero.
`chckNumChar` has two bytes and `sprintf` puts a terminator after them.
-/

namespace FastLivo2

/-! ## The interrupt -/

/-- `hh`, `mm` and `ss`, zero at power-on. -/
structure Tim3 where
  hh : ℕ
  mm : ℕ
  ss : ℕ
  hh_lt : hh < 24
  mm_lt : mm < 60
  ss_lt : ss < 60

namespace Tim3

def powerOn : Tim3 := ⟨0, 0, 0, by decide, by decide, by decide⟩

/-- The carry chain of `TIM3_IRQHandler`. -/
def count (s : Tim3) : Tim3 :=
  if hss : s.ss < 59 then { s with ss := s.ss + 1, ss_lt := by omega }
  else if hmm : s.mm < 59 then
    { s with mm := s.mm + 1, mm_lt := by omega, ss := 0, ss_lt := by decide }
  else if hhh : s.hh < 23 then
    ⟨s.hh + 1, 0, 0, by omega, by decide, by decide⟩
  else ⟨0, 0, 0, by decide, by decide, by decide⟩

/-- A digit as `sprintf` prints it. -/
def digit (d : ℕ) : UInt8 := if d < 10 then 48 + UInt8.ofNat d else 55 + UInt8.ofNat d

/-- The digits of a number, in front of those there are. -/
def digits (base : ℕ) : ℕ → ℕ → List UInt8 → List UInt8
  | 0, _, l => l
  | fuel + 1, n, l =>
      if n < base then digit n :: l else digits base fuel (n / base) (digit (n % base) :: l)

/-- A number printed with at least two digits. -/
def padded (base n : ℕ) : List UInt8 :=
  let l := digits base (n + 1) n []
  List.replicate (2 - l.length) 48 ++ l

/-- The loop of `checkNum`, to the `*`; `none` at the end of the text. -/
def checkLoop (result : UInt8) : List UInt8 → Option UInt8
  | [] => none
  | c :: l => if c = star then some result else if c = 0 then none else checkLoop (result ^^^ c) l

/-- `checkNum`; `none` is its `-1`. -/
def checkNum (gprmcContext : List UInt8) : Option UInt8 :=
  checkLoop (gprmcContext.getD 1 0) (gprmcContext.drop 2)

def gprmcStr : List UInt8 := kGPRMC ++ ascii [',']

/-- What follows the time in the format, up to the `*`. -/
def fixedFields : List UInt8 :=
  ascii ['.', '0', '0', ',', 'A', ',', '2', '2', '3', '7', '.', '4', '9', '6', '4', '7', '4', ',',
    'N', ',', '1', '1', '3', '5', '6', '.', '0', '8', '9', '5', '1', '5', ',', 'E', ',', '0', '.',
    '0', ',', '2', '2', '5', '.', '5', ',', '2', '3', '0', '5', '2', '0', ',', '2', '.', '3', ',',
    'W', ',', 'A']

/-- `value_2`. -/
def value (s : Tim3) : List UInt8 :=
  gprmcStr ++ padded 10 s.hh ++ padded 10 s.mm ++ padded 10 s.ss ++ (fixedFields ++ [star])

/-- `chckNumChar`: `"%02X"` of the checksum, or of `-1`. -/
def chckNumChar (s : Tim3) : List UInt8 :=
  match checkNum s.value with
  | some result => padded 16 result.toNat
  | none => List.replicate 8 70

/-- `TIM3_IRQHandler`: the count, and what is printed. -/
def irqHandler (s : Tim3) : Tim3 × List UInt8 :=
  (s.count, s.count.value ++ s.count.chckNumChar ++ [10])

/-- The count after `n` ticks. -/
def after (n : ℕ) : Tim3 := (fun s => (irqHandler s).1)^[n] powerOn

/-- What the tick after `n` others prints. -/
def printed (n : ℕ) : List UInt8 := (irqHandler (after n)).2

/-! ### The count -/

lemma after_succ (n : ℕ) : after (n + 1) = (after n).count := by
  rw [after, Function.iterate_succ_apply']
  rfl

/-- The count is the time of day. -/
theorem after_eq (n : ℕ) :
    (after n).hh = n / 3600 % 24 ∧ (after n).mm = n / 60 % 60 ∧ (after n).ss = n % 60 := by
  induction n with
  | zero => exact ⟨rfl, rfl, rfl⟩
  | succ n ih =>
      obtain ⟨hh, hm, hs⟩ := ih
      have hhlt := (after n).hh_lt
      have hmlt := (after n).mm_lt
      have hslt := (after n).ss_lt
      rw [after_succ, count]
      split_ifs
      · refine ⟨?_, ?_, ?_⟩ <;> dsimp only <;> omega
      · refine ⟨?_, ?_, ?_⟩ <;> dsimp only <;> omega
      · refine ⟨?_, ?_, ?_⟩ <;> dsimp only <;> omega
      · refine ⟨?_, ?_, ?_⟩ <;> dsimp only <;> omega

/-! ### The text -/

/-- A number of two digits. -/
lemma padded_eq {base n : ℕ} (hn : n < base * base) :
    padded base n = [digit (n / base), digit (n % base)] := by
  have hbase : 0 < base := by
    by_contra h
    obtain rfl : base = 0 := by omega
    simp at hn
  by_cases hlt : n < base
  · have hdiv : n / base = 0 := Nat.div_eq_of_lt hlt
    rw [hdiv, Nat.mod_eq_of_lt hlt]
    simp only [padded, digits, if_pos hlt]
    rfl
  · have hdiv : n / base < base := Nat.div_lt_of_lt_mul hn
    obtain ⟨m, rfl⟩ : ∃ m, n = m + 1 := ⟨n - 1, by omega⟩
    simp only [padded, digits, if_neg hlt, if_pos hdiv]
    rfl

/-- Decimal digits are none of the bytes with a meaning of their own. -/
lemma digit_plain : ∀ d < 10, digit d ≠ 0 ∧ digit d ≠ star ∧ digit d ≠ dollar ∧ digit d ≠ 44 := by
  decide

/-- A decimal digit is read back. -/
lemma digit_number : ∀ d < 10, (48 ≤ digit d ∧ digit d ≤ 57) ∧ (digit d - 48).toNat = d := by
  decide

/-- A hexadecimal digit is read back. -/
lemma digit_hex : ∀ d < 16, hexValue (digit d) = some (UInt8.ofNat d) := by
  decide

lemma padded_plain {n : ℕ} (hn : n < 100) :
    ∀ c ∈ padded 10 n, c ≠ 0 ∧ c ≠ star ∧ c ≠ dollar ∧ c ≠ 44 := by
  have hhigh := digit_plain (n / 10) (by omega)
  have hlow := digit_plain (n % 10) (by omega)
  rw [padded_eq (by omega)]
  simpa using ⟨hhigh, hlow⟩

/-- Two hexadecimal digits spell what they print. -/
lemma padded_hex (b : UInt8) : ∃ c d, padded 16 b.toNat = [c, d] ∧ hexByte c d = some b := by
  have hb := UInt8.toNat_lt b
  refine ⟨_, _, padded_eq (by omega), ?_⟩
  rw [hexByte, digit_hex _ (by omega), digit_hex _ (by omega)]
  show some (16 * UInt8.ofNat (b.toNat / 16) + UInt8.ofNat (b.toNat % 16)) = some b
  congr 1
  apply UInt8.toNat_inj.mp
  simp only [UInt8.toNat_add, UInt8.toNat_mul, UInt8.toNat_ofNat', UInt8.reduceToNat]
  omega

/-- The text between the header and the `*`. -/
def body (s : Tim3) : List UInt8 :=
  ascii [','] ++ padded 10 s.hh ++ padded 10 s.mm ++ padded 10 s.ss ++ fixedFields

lemma value_eq (s : Tim3) : s.value = kGPRMC ++ s.body ++ [star] := by
  simp [value, body, gprmcStr]

/-- The checksum is the exclusive or of what stands before the `*`. -/
lemma checkLoop_eq {l : List UInt8} (hl : ∀ c ∈ l, c ≠ 0 ∧ c ≠ star) (result : UInt8) :
    checkLoop result (l ++ [star]) = some (result ^^^ xorSum l) := by
  induction l generalizing result with
  | nil => simp [checkLoop]
  | cons c l ih =>
      obtain ⟨hzero, hstar⟩ := hl c (by simp)
      rw [List.cons_append, checkLoop, if_neg hstar, if_neg hzero,
        ih fun d hd => hl d (List.mem_cons_of_mem c hd), xorSum_cons, UInt8.xor_assoc]

/-- What stands before the `*` has neither a terminator, nor a `*`, nor another `$`. -/
lemma body_plain (s : Tim3) : ∀ c ∈ s.body, c ≠ 0 ∧ c ≠ star ∧ c ≠ dollar := by
  have hhh := padded_plain (show s.hh < 100 by have h := s.hh_lt; omega)
  have hmm := padded_plain (show s.mm < 100 by have h := s.mm_lt; omega)
  have hss := padded_plain (show s.ss < 100 by have h := s.ss_lt; omega)
  have hcomma : ∀ c ∈ ascii [','], c ≠ 0 ∧ c ≠ star ∧ c ≠ dollar := by decide +kernel
  have hfixed : ∀ c ∈ fixedFields, c ≠ 0 ∧ c ≠ star ∧ c ≠ dollar := by decide +kernel
  intro c hc
  simp only [body, List.mem_append] at hc
  obtain (((hc | hc) | hc) | hc) | hc := hc
  · exact hcomma c hc
  · exact ⟨(hhh c hc).1, (hhh c hc).2.1, (hhh c hc).2.2.1⟩
  · exact ⟨(hmm c hc).1, (hmm c hc).2.1, (hmm c hc).2.2.1⟩
  · exact ⟨(hss c hc).1, (hss c hc).2.1, (hss c hc).2.2.1⟩
  · exact hfixed c hc

lemma length_body (s : Tim3) : s.body.length = 66 := by
  have hcomma : (ascii [',']).length = 1 := rfl
  have hfixed : fixedFields.length = 59 := rfl
  rw [body, padded_eq (by have h := s.hh_lt; omega), padded_eq (by have h := s.mm_lt; omega),
    padded_eq (by have h := s.ss_lt; omega)]
  simp only [List.length_append, List.length_cons, List.length_nil, hcomma, hfixed]

/-- The sum that `checkNum` forms. -/
def checksum (s : Tim3) : UInt8 := xorSum (kGPRMC ++ s.body).tail

lemma checkNum_eq (s : Tim3) : checkNum s.value = some s.checksum := by
  have hplain : ∀ c ∈ ascii ['P', 'R', 'M', 'C'] ++ s.body, c ≠ 0 ∧ c ≠ star := by
    have hhead : ∀ c ∈ ascii ['P', 'R', 'M', 'C'], c ≠ 0 ∧ c ≠ star := by decide +kernel
    intro c hc
    obtain hc | hc := List.mem_append.mp hc
    · exact hhead c hc
    · exact ⟨(s.body_plain c hc).1, (s.body_plain c hc).2.1⟩
  rw [value_eq]
  show checkLoop 71 ((ascii ['P', 'R', 'M', 'C'] ++ s.body) ++ [star]) = _
  rw [checkLoop_eq hplain]
  show _ = some (xorSum (71 :: (ascii ['P', 'R', 'M', 'C'] ++ s.body)))
  rw [xorSum_cons]

/-- The sentence printed is well-formed, and its checksum is correct. -/
def sentence (s : Tim3) : RmcSentence where
  header := kGPRMC
  body := s.body
  high := (padded 16 s.checksum.toNat).getD 0 0
  low := (padded 16 s.checksum.toNat).getD 1 0
  header_eq := kGPRMC_header
  star_notMem := fun h => (s.body_plain star h).2.1 rfl
  dollar_notMem := fun h => (s.body_plain dollar h).2.2 rfl
  checksum_eq := by
    obtain ⟨c, d, hdigits, hsum⟩ := padded_hex s.checksum
    rw [hdigits]
    exact hsum
  fits := by
    rw [s.length_body]
    decide

/-- What is printed is the sentence, and the end of the line. -/
lemma irqHandler_eq (s : Tim3) : (irqHandler s).2 = s.count.sentence.text ++ [10] := by
  have hdigits : padded 16 s.count.checksum.toNat =
      [s.count.sentence.high, s.count.sentence.low] := by
    obtain ⟨c, d, hcd, -⟩ := padded_hex s.count.checksum
    simp only [sentence, hcd]
    rfl
  show s.count.value ++ s.count.chckNumChar ++ [10] = _
  rw [chckNumChar, checkNum_eq]
  dsimp only
  rw [hdigits, value_eq]
  simp [RmcSentence.text, RmcSentence.front, sentence]

end Tim3

/-! ## The date and time of a sentence -/

/-- A field of a sentence, between commas. -/
def field : ℕ → List UInt8 → List UInt8
  | 0, text => text.takeWhile (· ≠ 44)
  | i + 1, text => field i (text.dropWhile (· ≠ 44)).tail

/-- A decimal number. -/
def number (l : List UInt8) : Option ℕ :=
  l.foldlM (fun acc c => if 48 ≤ c ∧ c ≤ 57 then some (10 * acc + (c - 48).toNat) else none) 0

/-- The date `ddmmyy` and the time `hhmmss` of a sentence. -/
structure Utc where
  day : ℕ
  month : ℕ
  year : ℕ
  hour : ℕ
  minute : ℕ
  second : ℕ

/-- The date and time encoded in a sentence: its fields 9 and 1. -/
def utcOf (text : List UInt8) : Option Utc := do
  let date := field 9 text
  let time := field 1 text
  let day ← number (date.take 2)
  let month ← number ((date.drop 2).take 2)
  let year ← number ((date.drop 4).take 2)
  let hour ← number (time.take 2)
  let minute ← number ((time.drop 2).take 2)
  let second ← number ((time.drop 4).take 2)
  return ⟨day, month, year, hour, minute, second⟩

namespace Utc

/-- The days of a month. -/
def monthLength (year month : ℕ) : ℕ :=
  if month = 2 then (if year % 4 = 0 ∧ (year % 100 ≠ 0 ∨ year % 400 = 0) then 29 else 28)
  else if month = 4 ∨ month = 6 ∨ month = 9 ∨ month = 11 then 30 else 31

/-- The number of a day in the calendar; the years are those of this century. -/
def dayNumber (u : Utc) : ℕ :=
  let before := 2000 + u.year - 1
  365 * before + before / 4 - before / 100 + before / 400 +
    ((List.range' 1 (u.month - 1)).map (monthLength (2000 + u.year))).sum + u.day

/-- The seconds up to a moment. -/
def seconds (u : Utc) : ℕ := 86400 * u.dayNumber + 3600 * u.hour + 60 * u.minute + u.second

end Utc

lemma field_zero {l : List UInt8} (hl : ∀ c ∈ l, c ≠ 44) (r : List UInt8) :
    field 0 (l ++ 44 :: r) = l := by
  rw [field, List.takeWhile_append_of_pos (by simpa using hl)]
  simp

lemma field_succ {l : List UInt8} (hl : ∀ c ∈ l, c ≠ 44) (i : ℕ) (r : List UInt8) :
    field (i + 1) (l ++ 44 :: r) = field i r := by
  rw [field, List.dropWhile_append_of_pos (by simpa using hl)]
  simp

namespace Tim3

/-- Two decimal digits are read back. -/
lemma padded_number {n : ℕ} (hn : n < 100) : number (padded 10 n) = some n := by
  obtain ⟨hhigh, hhigh'⟩ := digit_number (n / 10) (by omega)
  obtain ⟨hlow, hlow'⟩ := digit_number (n % 10) (by omega)
  rw [padded_eq (by omega), number]
  simp only [List.foldlM_cons, List.foldlM_nil, if_pos hhigh, if_pos hlow, hhigh', hlow',
    Option.bind_eq_bind, Option.bind_some, Option.pure_def, Option.some_inj]
  omega

/-- The time and the date, where the format puts them. -/
lemma field_fixedFields {time : List UInt8} (htime : ∀ c ∈ time, c ≠ 44) (x : List UInt8) :
    field 0 (time ++ (fixedFields ++ x)) = time ++ ascii ['.', '0', '0'] ∧
      field 8 (time ++ (fixedFields ++ x)) = ascii ['2', '3', '0', '5', '2', '0'] := by
  have hsplit : fixedFields ++ x = ascii ['.', '0', '0'] ++ 44 :: (ascii ['A'] ++ 44 ::
      (ascii ['2', '2', '3', '7', '.', '4', '9', '6', '4', '7', '4'] ++ 44 :: (ascii ['N'] ++ 44 ::
      (ascii ['1', '1', '3', '5', '6', '.', '0', '8', '9', '5', '1', '5'] ++ 44 ::
      (ascii ['E'] ++ 44 :: (ascii ['0', '.', '0'] ++ 44 :: (ascii ['2', '2', '5', '.', '5'] ++
      44 :: (ascii ['2', '3', '0', '5', '2', '0'] ++ 44 ::
      (ascii ['2', '.', '3', ',', 'W', ',', 'A'] ++ x))))))))) := rfl
  have hfirst : ∀ c ∈ time ++ ascii ['.', '0', '0'], c ≠ 44 := by
    have hfraction : ∀ c ∈ ascii ['.', '0', '0'], c ≠ 44 := by decide +kernel
    intro c hc
    obtain hc | hc := List.mem_append.mp hc
    · exact htime c hc
    · exact hfraction c hc
  rw [hsplit, ← List.append_assoc]
  constructor
  · exact field_zero hfirst _
  · rw [field_succ hfirst, field_succ (by decide +kernel), field_succ (by decide +kernel),
      field_succ (by decide +kernel), field_succ (by decide +kernel),
      field_succ (by decide +kernel), field_succ (by decide +kernel),
      field_succ (by decide +kernel), field_zero (by decide +kernel)]

/-- The date and time of a sentence: the count, on a day that is always the same. -/
theorem utcOf_irqHandler (s : Tim3) :
    utcOf (irqHandler s).2 = some ⟨23, 5, 20, s.count.hh, s.count.mm, s.count.ss⟩ := by
  have hhlt : s.count.hh < 100 := by have h := s.count.hh_lt; omega
  have hmlt : s.count.mm < 100 := by have h := s.count.mm_lt; omega
  have hslt : s.count.ss < 100 := by have h := s.count.ss_lt; omega
  have htext : (irqHandler s).2 = kGPRMC ++ 44 :: ((padded 10 s.count.hh ++ padded 10 s.count.mm ++
      padded 10 s.count.ss) ++ (fixedFields ++ ([star] ++ s.count.chckNumChar ++ [10]))) := by
    show s.count.value ++ s.count.chckNumChar ++ [10] = _
    simp only [value, gprmcStr, List.append_assoc]
    rfl
  have hcomma : ∀ c ∈ padded 10 s.count.hh ++ padded 10 s.count.mm ++ padded 10 s.count.ss,
      c ≠ 44 := by
    intro c hc
    simp only [List.mem_append] at hc
    obtain (hc | hc) | hc := hc
    · exact (padded_plain hhlt c hc).2.2.2
    · exact (padded_plain hmlt c hc).2.2.2
    · exact (padded_plain hslt c hc).2.2.2
  have hheader : ∀ c ∈ kGPRMC, c ≠ 44 := by decide +kernel
  obtain ⟨htime, hdate⟩ := field_fixedFields hcomma ([star] ++ s.count.chckNumChar ++ [10])
  rw [utcOf, htext, field_succ hheader, field_succ hheader, htime, hdate]
  have htake : ∀ a b c l : List UInt8, a.length = 2 → b.length = 2 → c.length = 2 →
      ((a ++ b ++ c ++ l).take 2 = a ∧ ((a ++ b ++ c ++ l).drop 2).take 2 = b) ∧
        ((a ++ b ++ c ++ l).drop 4).take 2 = c := by
    intro a b c l ha hb hc
    obtain ⟨a₀, a₁, rfl⟩ := List.length_eq_two.mp ha
    obtain ⟨b₀, b₁, rfl⟩ := List.length_eq_two.mp hb
    obtain ⟨c₀, c₁, rfl⟩ := List.length_eq_two.mp hc
    exact ⟨⟨rfl, rfl⟩, rfl⟩
  have hlen : ∀ n < 100, (padded 10 n).length = 2 := by
    intro n hn
    rw [padded_eq (by omega)]
    rfl
  obtain ⟨⟨hfirst, hsecond⟩, hthird⟩ := htake _ _ _ (ascii ['.', '0', '0']) (hlen _ hhlt)
    (hlen _ hmlt) (hlen _ hslt)
  have hday : number ((ascii ['2', '3', '0', '5', '2', '0']).take 2) = some 23 := by decide
  have hmonth : number (((ascii ['2', '3', '0', '5', '2', '0']).drop 2).take 2) = some 5 := by
    decide
  have hyear : number (((ascii ['2', '3', '0', '5', '2', '0']).drop 4).take 2) = some 20 := by
    decide
  rw [hfirst, hsecond, hthird, padded_number hhlt, padded_number hmlt, padded_number hslt, hday,
    hmonth, hyear]
  rfl

/-! ## The host -/

open Synchro

/-- The host, reading the line from power-on, accepts what tick `n + 1` prints: it invokes the
callback at the last digit of the checksum. -/
def HostAccepts (n : ℕ) : Prop :=
  ∃ tr s tr' t x, decode ((List.range n).flatMap printed) (cleared true) = .ok (tr, s) ∧
    decode (printed n) s = .ok (tr', t) ∧ tr'[(printed n).length - 2]? = some x ∧
    x.obs.isSome = true

/-- A sentence encodes the second after the one of another. -/
def OneSecondLater (text text' : List UInt8) : Prop :=
  ∃ u v, utcOf text = some u ∧ utcOf text' = some v ∧ v.seconds = u.seconds + 1

/-- Tick `n + 1` prints a sentence the host accepts, one second after that of the tick before. -/
def TickOk : ℕ → Prop
  | 0 => HostAccepts 0
  | n + 1 => HostAccepts (n + 1) ∧ OneSecondLater (printed n) (printed (n + 1))

/-- Between two sentences the recogniser holds at most the end of a line. -/
lemma feed_printed (n : ℕ) : (feed true [] ((List.range n).flatMap printed)).length < 6 := by
  induction n with
  | zero => decide
  | succ n ih =>
      rw [List.range_succ, List.flatMap_append, feed_append, List.flatMap_singleton, printed,
        irqHandler_eq, feed_append, RmcSentence.feed_text _ ih]
      decide

/-- **The host accepts every sentence**, for runs of any length. -/
theorem hostAccepts (n : ℕ) : HostAccepts n := by
  obtain ⟨tr, s, hs, hlen, hcb, hheld⟩ := decode_returns ((List.range n).flatMap printed)
    (s := cleared true) (Nat.zero_le 128) rfl
  have hsearch : s.held.length < 6 := by
    rw [hheld]
    exact feed_printed n
  obtain ⟨tr₂, x, u, hu, hulen, hlen₂, -, hiff⟩ := decode_sentence (after n).count.sentence hlen hcb
  obtain ⟨v, o, hv, -⟩ := takesByte hulen 10
  refine ⟨tr, s, tr₂ ++ [x] ++ [⟨u, 10, o, v⟩], v, x, hs, ?_, ?_, ?_⟩
  · rw [decode] at hu ⊢
    rw [printed, irqHandler_eq, run_append, hu]
    simp [Except.bind, Except.map, run, hv]
  · have hindex : (printed n).length - 2 = tr₂.length := by
      rw [printed, irqHandler_eq, hlen₂, RmcSentence.text]
      simp
    rw [hindex, List.append_assoc, List.getElem?_append_right le_rfl]
    simp
  · apply hiff.mpr
    left
    rwa [held_length hlen] at hsearch

/-- The moment that tick `n + 1` encodes. -/
lemma utcOf_printed (n : ℕ) : utcOf (printed n) =
    some ⟨23, 5, 20, (n + 1) / 3600 % 24, (n + 1) / 60 % 60, (n + 1) % 60⟩ := by
  obtain ⟨hh, hm, hs⟩ := after_eq (n + 1)
  rw [printed, utcOf_irqHandler, ← after_succ, hh, hm, hs]

/-- **The clock.**  Every sentence is accepted, and is one second after the one before it except
at midnight, where the count starts over on the same day. -/
theorem tickOk_iff (n : ℕ) : TickOk n ↔ ¬ 86400 ∣ n + 1 := by
  cases n with
  | zero =>
      constructor
      · intro
        decide
      · intro
        exact hostAccepts 0
  | succ n =>
      have hlater : OneSecondLater (printed n) (printed (n + 1)) ↔ ¬ 86400 ∣ n + 1 + 1 := by
        unfold OneSecondLater
        rw [utcOf_printed, utcOf_printed]
        constructor
        · rintro ⟨u, v, hu, hv, hsucc⟩
          obtain rfl := Option.some.inj hu
          obtain rfl := Option.some.inj hv
          simp only [Utc.seconds, Utc.dayNumber] at hsucc
          omega
        · intro hday
          refine ⟨_, _, rfl, rfl, ?_⟩
          simp only [Utc.seconds, Utc.dayNumber]
          omega
      rw [TickOk, hlater]
      exact and_iff_right (hostAccepts (n + 1))

/-- A day after power-on the clock goes back. -/
theorem midnight : ¬ TickOk 86399 := by
  rintro ⟨-, u, v, hu, hv, hsucc⟩
  rw [utcOf_printed] at hu hv
  obtain rfl := Option.some.inj hu
  obtain rfl := Option.some.inj hv
  simp only [Utc.seconds, Utc.dayNumber] at hsucc
  omega

end Tim3

end FastLivo2
