import FastLivo2.Lib.CString
import Mathlib.Data.List.TakeWhile

/-!
# Fields of `/proc`

`parse_snmp_tcp` finds the columns of two counters in a header line, and reads them from the line of
values below it; the kernel may order the columns as it likes.  `parse_proc_stat` reads two numbers
behind the name of a process, which may contain anything, closing parentheses among it.

Both are loops over the words of a line.  The module follows them on every text of the two layouts.
-/

namespace FastLivo2

open CString

namespace ProcFields

/-! ## `/proc/net/snmp` -/

structure SnmpTcp where
  out : UInt64 := 0
  retrans : UInt64 := 0
  ok : Bool := false
  deriving DecidableEq, Repr

def tcpKey : List Char := "Tcp: ".toList

def outSegs : List Char := "OutSegs".toList

def retransSegs : List Char := "RetransSegs".toList

/-- The words of a line. -/
def words (line : List Char) : List (List Char) := (line.splitOn ' ').filter (· ≠ [])

/-- The loop over the words of the header: `idx_out` and `idx_retrans`, where `none` is `-1`. -/
def columns : ℕ → List (List Char) → Option ℕ → Option ℕ → Option ℕ × Option ℕ
  | _, [], idxOut, idxRetrans => (idxOut, idxRetrans)
  | col, t :: ts, idxOut, idxRetrans =>
    if t = outSegs then columns (col + 1) ts (some col) idxRetrans
    else if t = retransSegs then columns (col + 1) ts idxOut (some col)
    else columns (col + 1) ts idxOut idxRetrans

/-- `while (*p == ' ') { ++p; }` -/
def skipBlanks (p : List Char) : List Char := p.dropWhile (· = ' ')

/-- The loop over the values, `k` of them from the `i`-th on. -/
def values (idxOut idxRetrans : ℕ) : ℕ → ℕ → List Char → SnmpTcp → SnmpTcp
  | 0, _, _, r => { r with ok := true }
  | k + 1, i, v, r =>
    match strtoull (skipBlanks v) with
    | none => r
    | some (val, v) =>
      let r := if i = idxOut then { r with out := val } else r
      let r := if i = idxRetrans then { r with retrans := val } else r
      values idxOut idxRetrans k (i + 1) v r

def parseSnmpTcp (buf : List Char) : SnmpTcp :=
  match strstr tcpKey buf with
  | none => {}
  | some h =>
    let p := h.drop 5
    let rest := p.dropWhile (· ≠ '\n')
    if rest = [] then {}
    else
      match columns 0 (words (p.takeWhile (· ≠ '\n'))) none none with
      | (some idxOut, some idxRetrans) =>
        match strstr tcpKey rest with
        | none => {}
        | some v => values idxOut idxRetrans (max idxOut idxRetrans + 1) 0 (v.drop 5) {}
      | _ => {}

/-! ## `/proc/[pid]/stat` -/

structure ProcStat where
  utime : UInt64 := 0
  stime : UInt64 := 0
  ok : Bool := false
  deriving DecidableEq, Repr

/-- What stands behind the last closing parenthesis; the first character is not looked at. -/
def afterClose : List Char → Option (List Char)
  | [] => none
  | _ :: s => if ')' ∈ s then some (s.reverse.takeWhile (· ≠ ')')).reverse else none

/-- The loop over the fields, `k` of them from the `i`-th on. -/
def statFields : ℕ → ℕ → List Char → ProcStat → ProcStat
  | 0, _, _, r => { r with ok := true }
  | k + 1, i, p, r =>
    if i = 0 then
      -- the state is one character
      statFields k (i + 1) ((skipBlanks p).drop 1) r
    else
      match strtoull (skipBlanks p) with
      | none => r
      | some (v, p) =>
        let r :=
          if i = 11 then { r with utime := v } else if i = 12 then { r with stime := v } else r
        statFields k (i + 1) p r

def parseProcStat (buf : List Char) : ProcStat :=
  match afterClose buf with
  | none => {}
  | some p => statFields 13 0 p {}

/-! ## The words of a header -/

/-- A word: not empty, and without blanks and ends of lines. -/
structure Word where
  chars : List Char
  ne_nil : chars ≠ []
  noBlank : ' ' ∉ chars
  noEnd : '\n' ∉ chars

/-- A column: its name and its value, and the blanks before them beyond the first. -/
structure Column where
  nameGap : ℕ
  name : Word
  valueGap : ℕ
  value : Numeral

/-- The names, each behind at least one blank. -/
def names (cols : List Column) : List Char :=
  cols.flatMap fun c => blanks (c.nameGap + 1) ++ c.name.chars

lemma words_nil : words [] = [] := by
  rw [words, List.splitOn_nil]
  rfl

lemma words_blank (s : List Char) : words (' ' :: s) = words s := by
  have hsplit : (' ' :: s).splitOn ' ' = [] :: s.splitOn ' ' :=
    List.splitOn_append_cons_self_of_not_mem List.not_mem_nil s
  rw [words, hsplit]
  rfl

lemma words_blanks (k : ℕ) (s : List Char) : words (blanks k ++ s) = words s := by
  induction k with
  | zero => rfl
  | succ k ih => exact (words_blank _).trans ih

lemma words_word (w : Word) {s : List Char} (hs : ∀ c ∈ s.head?, c = ' ') :
    words (w.chars ++ s) = w.chars :: words s := by
  cases s with
  | nil =>
    rw [List.append_nil, words, List.splitOn_eq_singleton w.noBlank]
    simp [w.ne_nil, words]
  | cons c s =>
    obtain rfl := hs c rfl
    rw [words_blank, words, List.splitOn_append_cons_self_of_not_mem w.noBlank]
    simp [w.ne_nil, words]

lemma head?_names (cols : List Column) (k : ℕ) : ∀ c ∈ (names cols ++ blanks k).head?, c = ' ' := by
  intro c hc
  cases cols with
  | nil =>
    cases k with
    | zero => exact absurd hc (Option.not_mem_none c)
    | succ k => exact (Option.some.inj hc).symm
  | cons col cols => exact (Option.some.inj hc).symm

lemma words_names (cols : List Column) (k : ℕ) :
    words (names cols ++ blanks k) = cols.map fun c => c.name.chars := by
  induction cols with
  | nil => simpa [names, words_nil] using words_blanks k []
  | cons c cols ih =>
    have htext : names (c :: cols) ++ blanks k =
        blanks (c.nameGap + 1) ++ (c.name.chars ++ (names cols ++ blanks k)) := by
      simp [names]
    rw [htext, words_blanks, words_word c.name (head?_names cols k), ih]
    rfl

/-! ## The columns looked for -/

/-- The last column with a name, or what was found before. -/
def lastColumn (name : List Char) : ℕ → List (List Char) → Option ℕ → Option ℕ
  | _, [], idx => idx
  | col, t :: ts, idx => lastColumn name (col + 1) ts (if t = name then some col else idx)

/-- The two columns are looked for apart. -/
lemma columns_eq (ts : List (List Char)) (col : ℕ) (idxOut idxRetrans : Option ℕ) :
    columns col ts idxOut idxRetrans =
      (lastColumn outSegs col ts idxOut, lastColumn retransSegs col ts idxRetrans) := by
  induction ts generalizing col idxOut idxRetrans with
  | nil => rfl
  | cons t ts ih =>
    have hne : outSegs ≠ retransSegs := by decide
    rw [columns, lastColumn, lastColumn]
    by_cases hout : t = outSegs
    · rw [if_pos hout, if_pos hout, if_neg (hout ▸ hne), ih]
    · by_cases hretrans : t = retransSegs
      · rw [if_neg hout, if_pos hretrans, if_neg hout, if_pos hretrans, ih]
      · rw [if_neg hout, if_neg hretrans, if_neg hout, if_neg hretrans, ih]

lemma lastColumn_of_not_mem {name : List Char} {ts : List (List Char)} (h : name ∉ ts) (col : ℕ)
    (idx : Option ℕ) : lastColumn name col ts idx = idx := by
  induction ts generalizing col with
  | nil => rfl
  | cons t ts ih =>
    have hne : t ≠ name := fun heq => h (heq ▸ List.mem_cons_self)
    rw [lastColumn, if_neg hne]
    exact ih (fun hmem => h (List.mem_cons_of_mem t hmem)) (col + 1)

lemma lastColumn_eq_some {name : List Char} {ts : List (List Char)} (honce : ts.count name ≤ 1)
    {i : ℕ} (hi : ts[i]? = some name) (col : ℕ) (idx : Option ℕ) :
    lastColumn name col ts idx = some (col + i) := by
  induction ts generalizing col i idx with
  | nil => exact absurd hi (by simp)
  | cons t ts ih =>
    rw [lastColumn]
    cases i with
    | zero =>
      obtain rfl : t = name := Option.some.inj hi
      rw [List.count_cons_self] at honce
      have hnot : t ∉ ts := List.count_eq_zero.mp (by omega)
      rw [if_pos rfl, lastColumn_of_not_mem hnot]
      rfl
    | succ i =>
      have hrest : ts.count name ≤ 1 := List.count_le_count_cons.trans honce
      rw [ih hrest hi, Nat.add_right_comm]
      rfl

/-! ## The values read -/

/-- The value with an index among values from the `i`-th on, or what was there before. -/
def pick (idx : ℕ) : ℕ → List UInt64 → UInt64 → UInt64
  | _, [], d => d
  | i, v :: vs, d => pick idx (i + 1) vs (if i = idx then v else d)

lemma pick_of_lt {idx i : ℕ} (h : idx < i) (vs : List UInt64) (d : UInt64) :
    pick idx i vs d = d := by
  induction vs generalizing i with
  | nil => rfl
  | cons v vs ih =>
    rw [pick, if_neg (by omega)]
    exact ih (by omega)

lemma pick_eq {vs : List UInt64} {j : ℕ} {v : UInt64} (hv : vs[j]? = some v) (i : ℕ) (d : UInt64) :
    pick (i + j) i vs d = v := by
  induction vs generalizing i j d with
  | nil => exact absurd hv (by simp)
  | cons w vs ih =>
    rw [pick]
    cases j with
    | zero =>
      obtain rfl : w = v := Option.some.inj hv
      rw [if_pos (Nat.add_zero i).symm, pick_of_lt (by omega)]
    | succ j =>
      rw [Nat.add_comm j 1, ← Nat.add_assoc]
      exact ih hv (i + 1) _

lemma skipBlanks_blanks (k : ℕ) (s : List Char) : skipBlanks (blanks k ++ s) = skipBlanks s := by
  unfold skipBlanks
  rw [List.dropWhile_append_of_pos]
  intro c hc
  rw [List.eq_of_mem_replicate hc]
  rfl

/-- A number is read behind skipped blanks. -/
lemma strtoull_skipBlanks (c : ℕ × Numeral) (l : List (ℕ × Numeral)) {t : List Char} (ht : Ends t) :
    strtoull (skipBlanks (numbers (c :: l) ++ t)) = some (c.2.value, numbers l ++ t) := by
  have hhead : ∀ d ∈ (c.2.text ++ (numbers l ++ t)).head?, decide (d = ' ') = false := by
    intro d hd
    refine decide_eq_false fun hblank => ?_
    have hspace := head_text c.2 _ d hd
    rw [hblank] at hspace
    exact absurd hspace (by decide)
  have hnone : ∀ d ∈ ([] : List Char), isSpace d = true := fun d hd => absurd hd List.not_mem_nil
  rw [numbers_cons, List.append_assoc, List.append_assoc, skipBlanks_blanks]
  have hskip : skipBlanks (c.2.text ++ (numbers l ++ t)) = c.2.text ++ (numbers l ++ t) :=
    dropWhile_append_of_ends (fun d hd => absurd hd List.not_mem_nil) hhead
  rw [hskip]
  exact strtoull_text c.2 hnone (ends_numbers l ht)

/-- The numbers of a row, as values. -/
def rowValues (l : List (ℕ × Numeral)) : List UInt64 := l.map fun c => c.2.value

lemma values_numbers (idxOut idxRetrans : ℕ) {k : ℕ} {l : List (ℕ × Numeral)} (hk : k ≤ l.length)
    {t : List Char} (ht : Ends t) (i : ℕ) (r : SnmpTcp) :
    values idxOut idxRetrans k i (numbers l ++ t) r =
      ⟨pick idxOut i ((rowValues l).take k) r.out,
        pick idxRetrans i ((rowValues l).take k) r.retrans,
        true⟩ := by
  induction k generalizing l i r with
  | zero => rfl
  | succ k ih =>
    cases l with
    | nil => exact absurd hk (by simp)
    | cons c l =>
      have hk' : k ≤ l.length := by simpa using hk
      rw [values, strtoull_skipBlanks c l ht]
      simp only [ih hk', rowValues, List.map_cons, List.take_succ_cons, pick]
      by_cases hout : i = idxOut
      · by_cases hretrans : i = idxRetrans
        · simp only [if_pos hout, if_pos hretrans]
        · simp only [if_pos hout, if_neg hretrans]
      · by_cases hretrans : i = idxRetrans
        · simp only [if_neg hout, if_pos hretrans]
        · simp only [if_neg hout, if_neg hretrans]

/-- The loop of `parse_proc_stat` behind the state. -/
lemma statFields_numbers {k : ℕ} {l : List (ℕ × Numeral)} (hk : k ≤ l.length) {t : List Char}
    (ht : Ends t) {i : ℕ} (hi : i ≠ 0) (r : ProcStat) :
    statFields k i (numbers l ++ t) r =
      ⟨pick 11 i ((rowValues l).take k) r.utime, pick 12 i ((rowValues l).take k) r.stime,
        true⟩ := by
  induction k generalizing l i r with
  | zero => rfl
  | succ k ih =>
    cases l with
    | nil => exact absurd hk (by simp)
    | cons c l =>
      have hk' : k ≤ l.length := by simpa using hk
      rw [statFields, if_neg hi, strtoull_skipBlanks c l ht]
      simp only [ih hk' (Nat.succ_ne_zero i), rowValues, List.map_cons, List.take_succ_cons, pick]
      by_cases hutime : i = 11
      · simp only [if_pos hutime, if_neg (by omega : ¬i = 12)]
      · by_cases hstime : i = 12
        · simp only [if_neg hutime, if_pos hstime]
        · simp only [if_neg hutime, if_neg hstime]

/-! ## The line of a process -/

/-- A line of `/proc/[pid]/stat`: the name stands between parentheses, and behind it the state, at
least twelve numbers, and what follows them. -/
structure ProcStatLine where
  pid : Numeral
  comm : List Char
  gap : ℕ
  state : Char
  state_ne : state ≠ ' ' ∧ state ≠ ')'
  fields : List (ℕ × Numeral)
  twelve : 12 ≤ fields.length
  after : List Char
  after_ends : Ends after
  after_noClose : ')' ∉ after

namespace ProcStatLine

variable (l : ProcStatLine)

/-- What stands behind the name. -/
def row : List Char := blanks l.gap ++ l.state :: (numbers l.fields ++ l.after)

def text : List Char := l.pid.text ++ (' ' :: '(' :: (l.comm ++ ')' :: l.row))

/-- The fields from the fourth of the line on, as values. -/
def field (n : ℕ) : UInt64 := (rowValues l.fields).getD (n - 4) 0

lemma noClose_row : ')' ∉ l.row := by
  simp only [row, List.mem_append, List.mem_cons, not_or]
  refine ⟨fun h => absurd (List.eq_of_mem_replicate h) (by decide), l.state_ne.2.symm, ?_,
    l.after_noClose⟩
  exact not_mem_numbers (by decide) (by decide) (by decide) l.fields

/-- The last closing parenthesis is the one that ends the name. -/
lemma afterClose_text : afterClose l.text = some l.row := by
  obtain ⟨c, s, hs⟩ := List.exists_cons_of_ne_nil l.pid.text_ne_nil
  have hmem : ')' ∈ s ++ (' ' :: '(' :: (l.comm ++ ')' :: l.row)) := by simp
  have hrev : (s ++ (' ' :: '(' :: (l.comm ++ ')' :: l.row))).reverse =
      l.row.reverse ++ ')' :: (s ++ (' ' :: '(' :: l.comm)).reverse := by simp
  have htake : (l.row.reverse ++ ')' :: (s ++ (' ' :: '(' :: l.comm)).reverse).takeWhile
      (· ≠ ')') = l.row.reverse := by
    apply takeWhile_append_of_ends
    · intro d hd
      have hne : d ≠ ')' := fun h => l.noClose_row (h ▸ List.mem_reverse.mp hd)
      simpa using hne
    · intro d hd
      obtain rfl := Option.some.inj hd
      rfl
  rw [text, hs, List.cons_append, afterClose, if_pos hmem, hrev, htake, List.reverse_reverse]

/-- **The times of a process.**  Whatever its name, the fourteenth and the fifteenth field of the
line are returned. -/
theorem parseProcStat_text : parseProcStat l.text = ⟨l.field 14, l.field 15, true⟩ := by
  have hskip : skipBlanks l.row = l.state :: (numbers l.fields ++ l.after) := by
    rw [row, skipBlanks_blanks, skipBlanks, List.dropWhile_cons_of_neg]
    simpa using l.state_ne.1
  have hstart : statFields 13 0 l.row {} = statFields 12 1 (numbers l.fields ++ l.after) {} := by
    rw [statFields, if_pos rfl, hskip]
    rfl
  have hpick : ∀ j < 12, ((rowValues l.fields).take 12)[j]? = some (l.field (j + 4)) := by
    intro j hj
    have hlen : j < (rowValues l.fields).length := by
      have := l.twelve
      rw [rowValues, List.length_map]
      omega
    rw [List.getElem?_take_of_lt hj, field, Nat.add_sub_cancel, List.getD_eq_getElem?_getD,
      List.getElem?_eq_getElem hlen, Option.getD_some]
  unfold parseProcStat
  rw [l.afterClose_text]
  show statFields 13 0 l.row {} = _
  rw [hstart, statFields_numbers l.twelve l.after_ends one_ne_zero]
  have hutime := pick_eq (hpick 10 (by norm_num)) 1 0
  have hstime := pick_eq (hpick 11 (by norm_num)) 1 0
  rw [ProcStat.mk.injEq]
  exact ⟨hutime, hstime, rfl⟩

end ProcStatLine

/-! ## The two lines of the counters -/

/-- A text of `/proc/net/snmp`: what stands before the first place with the key, a header of columns
in which neither of the two names comes twice, a line with their values, and what follows that
line. -/
structure SnmpText where
  before : List Char
  noKey : ¬tcpKey <:+: before
  columns : List Column
  outOnce : (columns.map fun c => c.name.chars).count outSegs ≤ 1
  retransOnce : (columns.map fun c => c.name.chars).count retransSegs ≤ 1
  headerGap : ℕ
  valueGap : ℕ
  after : List Char
  after_ends : ∀ c ∈ after.head?, c = '\n'

namespace SnmpText

variable (t : SnmpText)

def cells : List (ℕ × Numeral) := t.columns.map fun c => (c.valueGap, c.value)

/-- The words of the header; the key ends in the blank before the first. -/
def header : List Char := (names t.columns ++ blanks t.headerGap).tail

def valueRow : List Char := (numbers t.cells ++ blanks t.valueGap).tail

def text : List Char :=
  t.before ++ (tcpKey ++ (t.header ++ '\n' :: (tcpKey ++ (t.valueRow ++ t.after))))

def columnNames : List (List Char) := t.columns.map fun c => c.name.chars

def columnValues : List UInt64 := t.columns.map fun c => c.value.value

lemma tcpKey_eq : tcpKey = ['T', 'c', 'p', ':', ' '] := by decide

/-- The key has no end that is a beginning of it, so its first place is where it is written
first. -/
lemma strstr_text : strstr tcpKey t.text =
    some (tcpKey ++ (t.header ++ '\n' :: (tcpKey ++ (t.valueRow ++ t.after)))) := by
  rw [text, strstr_append]
  · exact strstr_of_prefix (List.prefix_append _ _)
  · rintro u v huv hv hpre
    rw [tcpKey_eq] at hpre
    rcases v with _ | ⟨a, _ | ⟨b, _ | ⟨c, _ | ⟨d, _ | ⟨e, v⟩⟩⟩⟩⟩
    · exact hv rfl
    · simp at hpre
    · simp at hpre
    · simp at hpre
    · simp at hpre
    · refine t.noKey ⟨u, v, ?_⟩
      rw [tcpKey_eq, huv]
      simp at hpre
      obtain ⟨rfl, rfl, rfl, rfl, rfl⟩ := hpre
      simp

lemma strstr_rest (s : List Char) : strstr tcpKey ('\n' :: (tcpKey ++ s)) = some (tcpKey ++ s) := by
  have hnot : ¬tcpKey <+: '\n' :: (tcpKey ++ s) := by
    rw [tcpKey_eq]
    simp
  rw [strstr, if_neg hnot]
  exact strstr_of_prefix (List.prefix_append _ _)

lemma noEnd_header : '\n' ∉ t.header := by
  intro h
  rcases List.mem_append.mp (List.mem_of_mem_tail h) with hnames | hblanks
  · obtain ⟨c, -, hc⟩ := List.mem_flatMap.mp hnames
    rcases List.mem_append.mp hc with hblank | hname
    · exact absurd (List.eq_of_mem_replicate hblank) (by decide)
    · exact c.name.noEnd hname
  · exact absurd (List.eq_of_mem_replicate hblanks) (by decide)

lemma words_header : words t.header = t.columnNames := by
  have hwords := words_names t.columns t.headerGap
  have hhead := head?_names t.columns t.headerGap
  unfold header
  cases htext : names t.columns ++ blanks t.headerGap with
  | nil =>
    rw [htext] at hwords
    exact hwords
  | cons c s =>
    rw [htext] at hwords hhead
    obtain rfl := hhead c rfl
    rwa [words_blank] at hwords

lemma ends_valueGap : Ends (blanks t.valueGap ++ t.after) := by
  intro c hc
  cases hgap : t.valueGap with
  | zero =>
    rw [hgap] at hc
    obtain rfl := t.after_ends c hc
    rfl
  | succ k =>
    rw [hgap] at hc
    obtain rfl := Option.some.inj hc
    rfl

lemma rowValues_cells : rowValues t.cells = t.columnValues := by
  rw [rowValues, cells, List.map_map]
  rfl

/-- The blank before the first value is the one that ends the key. -/
lemma values_blank (idxOut idxRetrans k i : ℕ) (s : List Char) (r : SnmpTcp) :
    values idxOut idxRetrans (k + 1) i (' ' :: s) r = values idxOut idxRetrans (k + 1) i s r := by
  have hskip : skipBlanks (' ' :: s) = skipBlanks s := skipBlanks_blanks 1 s
  rw [values, values, hskip]

lemma values_valueRow {idxOut idxRetrans : ℕ} (hout : idxOut < t.columns.length)
    (hretrans : idxRetrans < t.columns.length) :
    values idxOut idxRetrans (max idxOut idxRetrans + 1) 0 (t.valueRow ++ t.after) {} =
      ⟨t.columnValues.getD idxOut 0, t.columnValues.getD idxRetrans 0, true⟩ := by
  have hlen : t.cells.length = t.columns.length := List.length_map _
  have hrow : ' ' :: (t.valueRow ++ t.after) =
      numbers t.cells ++ (blanks t.valueGap ++ t.after) := by
    unfold valueRow
    cases hcells : t.cells with
    | nil => simp [hcells] at hlen; omega
    | cons c l =>
      rw [numbers_cons]
      simp [blanks, List.replicate_succ]
  have hk : max idxOut idxRetrans + 1 ≤ t.cells.length := by omega
  have hpick : ∀ j < max idxOut idxRetrans + 1, ∀ d,
      pick j 0 ((rowValues t.cells).take (max idxOut idxRetrans + 1)) d =
        t.columnValues.getD j 0 := by
    intro j hj d
    have hvalues : j < t.columnValues.length := by
      rw [columnValues, List.length_map]
      omega
    have htake : (t.columnValues.take (max idxOut idxRetrans + 1))[j]? =
        some (t.columnValues.getD j 0) := by
      rw [List.getElem?_take_of_lt hj, List.getD_eq_getElem?_getD,
        List.getElem?_eq_getElem hvalues, Option.getD_some]
    have hpick := pick_eq htake 0 d
    rw [rowValues_cells]
    rwa [Nat.zero_add] at hpick
  rw [← values_blank, hrow, values_numbers idxOut idxRetrans hk t.ends_valueGap,
    hpick idxOut (by omega), hpick idxRetrans (by omega)]

/-- What is returned, by where the two names stand. -/
lemma parseSnmpTcp_eq : parseSnmpTcp t.text =
    match lastColumn outSegs 0 t.columnNames none, lastColumn retransSegs 0 t.columnNames none with
    | some idxOut, some idxRetrans =>
      values idxOut idxRetrans (max idxOut idxRetrans + 1) 0 (t.valueRow ++ t.after) {}
    | _, _ => {} := by
  have hdrop : ∀ s : List Char, (tcpKey ++ s).drop 5 = s := fun s => by
    rw [tcpKey_eq]
    rfl
  have hnoEnd : ∀ c ∈ t.header, decide (c ≠ '\n') = true := fun c hc =>
    decide_eq_true fun h => t.noEnd_header (h ▸ hc)
  have hend : ∀ s : List Char, ∀ c ∈ ('\n' :: s).head?, decide (c ≠ '\n') = false := by
    intro s c hc
    obtain rfl := Option.some.inj hc
    rfl
  unfold parseSnmpTcp
  rw [t.strstr_text]
  simp only [hdrop]
  rw [dropWhile_append_of_ends hnoEnd (hend _), takeWhile_append_of_ends hnoEnd (hend _),
    if_neg (List.cons_ne_nil _ _), t.words_header, columns_eq, strstr_rest]
  simp only [hdrop]
  cases lastColumn outSegs 0 t.columnNames none with
  | none => rfl
  | some idxOut =>
    cases lastColumn retransSegs 0 t.columnNames none with
    | none => rfl
    | some idxRetrans => rfl

/-- A name that the header has is in one column. -/
lemma lastColumn_columnNames {name : List Char} {i : ℕ} (honce : t.columnNames.count name ≤ 1)
    (hi : t.columnNames[i]? = some name) : lastColumn name 0 t.columnNames none = some i := by
  have hlast := lastColumn_eq_some honce hi 0 none
  rwa [Nat.zero_add] at hlast

/-- **The counters.**  The values in the two columns are returned. -/
lemma parseSnmpTcp_text {i j : ℕ} (hi : t.columnNames[i]? = some outSegs)
    (hj : t.columnNames[j]? = some retransSegs) :
    parseSnmpTcp t.text = ⟨t.columnValues.getD i 0, t.columnValues.getD j 0, true⟩ := by
  have hlen : t.columnNames.length = t.columns.length := List.length_map _
  have hi' := (List.getElem?_eq_some_iff.mp hi).1
  have hj' := (List.getElem?_eq_some_iff.mp hj).1
  rw [hlen] at hi' hj'
  rw [t.parseSnmpTcp_eq, t.lastColumn_columnNames t.outOnce hi,
    t.lastColumn_columnNames t.retransOnce hj]
  exact t.values_valueRow hi' hj'

/-- Without one of the names nothing is returned. -/
lemma parseSnmpTcp_of_missing (h : outSegs ∉ t.columnNames ∨ retransSegs ∉ t.columnNames) :
    parseSnmpTcp t.text = {} := by
  rw [t.parseSnmpTcp_eq]
  rcases h with hout | hretrans
  · rw [lastColumn_of_not_mem hout]
  · rw [lastColumn_of_not_mem hretrans]
    cases lastColumn outSegs 0 t.columnNames none with
    | none => rfl
    | some idxOut => rfl

end SnmpText

/-- **Fields of `/proc`.**  Of every text of counters the values in the columns named `OutSegs` and
`RetransSegs` are returned, and the parser fails exactly if one of them is missing; and of every
line of a process the fourteenth and the fifteenth field are. -/
theorem fields_extracted :
    (∀ t : SnmpText,
      (∀ i j, t.columnNames[i]? = some outSegs → t.columnNames[j]? = some retransSegs →
        parseSnmpTcp t.text = ⟨t.columnValues.getD i 0, t.columnValues.getD j 0, true⟩) ∧
      ((parseSnmpTcp t.text).ok = false ↔
        outSegs ∉ t.columnNames ∨ retransSegs ∉ t.columnNames)) ∧
    ∀ l : ProcStatLine, parseProcStat l.text = ⟨l.field 14, l.field 15, true⟩ := by
  refine ⟨fun t => ⟨fun i j hi hj => t.parseSnmpTcp_text hi hj, ?_⟩, fun l => l.parseProcStat_text⟩
  constructor
  · intro hfail
    by_contra hboth
    rw [not_or, not_not, not_not] at hboth
    obtain ⟨i, hi⟩ := List.mem_iff_getElem?.mp hboth.1
    obtain ⟨j, hj⟩ := List.mem_iff_getElem?.mp hboth.2
    rw [t.parseSnmpTcp_text hi hj] at hfail
    exact Bool.false_ne_true hfail.symm
  · intro hmissing
    rw [t.parseSnmpTcp_of_missing hmissing]

example : parseSnmpTcp "Ip: A\nIp: 1\nTcp: B RetransSegs OutSegs\nTcp: -1 7 90\nUdp: C\n".toList =
    ⟨90, 7, true⟩ := by decide +kernel

example : parseProcStat "42 (a) 1 2) (b) S 1 2 3 4 -1 6 7 8 9 10 11 12 13\n".toList =
    ⟨11, 12, true⟩ := by decide +kernel

end ProcFields

end FastLivo2
