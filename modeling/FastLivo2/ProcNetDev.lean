import FastLivo2.Lib.CString
import FastLivo2.ResourceRecords
import Mathlib.Data.List.TakeWhile

/-!
# The counters of the interfaces

`/proc/net/dev` has a line for each interface: its name, a colon, and sixteen numbers.
`parse_net_dev` looks for the name and the colon anywhere in the text, and reads the numbers behind
the first place where they stand.  That is the line of the interface only if no line before has a
name that ends in the name looked for.
-/

namespace FastLivo2

open CString

namespace ProcNetDev

/-! ## The parser -/

/-- Up to `k` numbers, as long as there is one. -/
def readFields : ℕ → List Char → List UInt64
  | 0, _ => []
  | k + 1, p =>
    match strtoull p with
    | none => []
    | some (v, p) => v :: readFields k p

/-- The bytes of a name in a slot; the rest of the sixteen are zero. -/
def slotName (iface : List Char) : List UInt8 := (iface.take 15).map fun c => c.toNat.toUInt8

/-- A turn of the loop of `parse_net_dev`. -/
def parseSlot (buf iface : List Char) : NetSlot :=
  let slot : NetSlot := { iface := slotName iface }
  match strstr (iface ++ [':']) buf with
  | none => slot
  | some p =>
    let fields := readFields 16 (p.drop (iface.length + 1))
    if fields.length < 12 then slot
    else
      { slot with
        rxBytes := fields.getD 0 0
        rxDrop := fields.getD 3 0
        txBytes := fields.getD 8 0
        txDrop := fields.getD 11 0 }

/-- `parse_net_dev`: the slots of the names, and those that are left as they were. -/
def parseNetDev (buf : List Char) (ifaceFilter : List (List Char)) (slot : Fin 4) : NetSlot :=
  match ifaceFilter[slot.val]? with
  | none => {}
  | some iface => parseSlot buf iface

/-! ## The text -/

/-- The name of an interface: neither a colon nor a space. -/
structure IfName where
  chars : List Char
  noColon : ':' ∉ chars
  noSpace : ∀ c ∈ chars, isSpace c = false

/-- A line: the name, perhaps behind blanks, and the numbers; there may be no blank behind the
colon. -/
structure NetLine where
  pad : ℕ
  name : IfName
  gap : ℕ
  first : Numeral
  rest : List (ℕ × Numeral)
  length_rest : rest.length = 15

namespace NetLine

def label (l : NetLine) : List Char := blanks l.pad ++ l.name.chars

/-- What stands behind the colon. -/
def row (l : NetLine) : List Char := blanks l.gap ++ (l.first.text ++ (numbers l.rest ++ ['\n']))

def values (l : NetLine) : List UInt64 := l.first.value :: l.rest.map fun c => c.2.value

end NetLine

/-- The bytes and the drops, received and sent. -/
structure Counters where
  rxBytes : UInt64
  rxDrop : UInt64
  txBytes : UInt64
  txDrop : UInt64
  deriving DecidableEq, Repr

instance : Zero Counters := ⟨⟨0, 0, 0, 0⟩⟩

def Counters.ofSlot (s : NetSlot) : Counters := ⟨s.rxBytes, s.rxDrop, s.txBytes, s.txDrop⟩

/-- The counters of a line are its first, fourth, ninth and twelfth number. -/
def NetLine.counters (l : NetLine) : Counters :=
  ⟨l.values.getD 0 0, l.values.getD 3 0, l.values.getD 8 0, l.values.getD 11 0⟩

def linesText (lines : List NetLine) : List Char :=
  lines.flatMap fun l => l.label ++ ':' :: l.row

/-- A well-formed text: a header without a colon, which ends its line, and a line for each of some
interfaces. -/
structure NetDevText where
  header : List Char
  noColon : ':' ∉ header
  ends : ∀ c ∈ header.getLast?, isSpace c = true
  lines : List NetLine

def NetDevText.text (t : NetDevText) : List Char := t.header ++ linesText t.lines

/-! ## What is found -/

/-- Behind a space, a name is a suffix of what stands before the colon if it is one of the name
there. -/
lemma suffix_append_iff {f x name : List Char} (hf : ∀ c ∈ f, isSpace c = false)
    (hx : ∀ c ∈ x.getLast?, isSpace c = true) : f <:+ x ++ name ↔ f <:+ name := by
  refine ⟨fun h => ?_, fun h => h.trans (List.suffix_append x name)⟩
  rcases List.suffix_or_suffix_of_suffix h (List.suffix_append x name) with hsub | ⟨g, hg⟩
  · exact hsub
  · obtain ⟨u, hu⟩ := h
    rw [← hg, ← List.append_assoc, List.append_cancel_right_eq] at hu
    rcases List.eq_nil_or_concat' g with rfl | ⟨g', c, rfl⟩
    · exact ⟨[], by rw [← hg, List.nil_append, List.nil_append]⟩
    · have hspace : isSpace c = true := hx c (by rw [← hu]; simp)
      have hmem : c ∈ f := by rw [← hg]; simp
      exact absurd (hf c hmem) (by rw [hspace]; exact Bool.false_ne_true.symm)

/-- The lines from the first whose name ends in a name on. -/
def fromName (f : List Char) (lines : List NetLine) : List NetLine :=
  lines.dropWhile fun l => !decide (f <:+ l.name.chars)

namespace NetLine

lemma noColon_label (l : NetLine) : ':' ∉ l.label := by
  intro h
  rcases List.mem_append.mp h with hblank | hname
  · exact absurd (List.eq_of_mem_replicate hblank) (by decide)
  · exact l.name.noColon hname

lemma noColon_row (l : NetLine) : ':' ∉ l.row := by
  simp only [row, List.mem_append, List.mem_singleton, not_or]
  refine ⟨fun h => absurd (List.eq_of_mem_replicate h) (by decide), ?_, ?_, by decide⟩
  · exact not_mem_text (by decide) (by decide) l.first
  · exact not_mem_numbers (by decide) (by decide) (by decide) l.rest

lemma ends_row (l : NetLine) : ∀ c ∈ l.row.getLast?, isSpace c = true := by
  intro c hc
  have hlast : l.row.getLast? = some '\n' := by simp [row]
  rw [hlast] at hc
  obtain rfl := Option.some.inj hc
  rfl

end NetLine

lemma getLast?_blanks {x : List Char} (hx : ∀ c ∈ x.getLast?, isSpace c = true) (k : ℕ) :
    ∀ c ∈ (x ++ blanks k).getLast?, isSpace c = true := by
  intro c hc
  cases k with
  | zero => exact hx c (by simpa [blanks] using hc)
  | succ k =>
    rw [List.getLast?_append_of_ne_nil _ (by simp [blanks])] at hc
    exact blanks_spaces _ c (List.mem_of_getLast? hc)

/-- **The search.**  Behind a text without a colon, the key is found in the first line whose name
ends in the name looked for, and the row of this line is read. -/
lemma strstr_linesText {f : List Char} (hcolon : ':' ∉ f) (hspace : ∀ c ∈ f, isSpace c = false)
    (lines : List NetLine) {x : List Char} (hx : ':' ∉ x)
    (hends : ∀ c ∈ x.getLast?, isSpace c = true) :
    (strstr (f ++ [':']) (x ++ linesText lines)).map (List.drop (f.length + 1)) =
      (fromName f lines).head?.map fun l => l.row ++ linesText (fromName f lines).tail := by
  induction lines generalizing x with
  | nil =>
    rw [linesText, List.flatMap_nil, List.append_nil, strstr_key_eq_none hx]
    rfl
  | cons l lines ih =>
    have htext : x ++ linesText (l :: lines) =
        (x ++ l.label) ++ ':' :: (l.row ++ linesText lines) := by
      simp [linesText]
    have hlabel : ':' ∉ x ++ l.label := by
      rw [List.mem_append, not_or]
      exact ⟨hx, l.noColon_label⟩
    have hsuffix : f <:+ x ++ l.label ↔ f <:+ l.name.chars := by
      rw [NetLine.label, ← List.append_assoc]
      exact suffix_append_iff hspace (getLast?_blanks hends l.pad)
    rw [htext, strstr_key hcolon hlabel]
    by_cases hname : f <:+ l.name.chars
    · rw [if_pos (hsuffix.mpr hname)]
      have hdrop : (f ++ ':' :: (l.row ++ linesText lines)).drop (f.length + 1) =
          l.row ++ linesText lines := by
        rw [List.drop_append]
        simp
      simp [fromName, hname, hdrop]
    · rw [if_neg (mt hsuffix.mp hname), ih l.noColon_row l.ends_row]
      simp [fromName, hname]

/-- The numbers of a row. -/
lemma readFields_numbers (l : List (ℕ × Numeral)) {t : List Char} (ht : Ends t) :
    readFields l.length (numbers l ++ t) = l.map fun c => c.2.value := by
  induction l with
  | nil => rfl
  | cons c l ih =>
    rw [List.length_cons, readFields, strtoull_numbers c l ht]
    exact congrArg (c.2.value :: ·) ih

lemma readFields_row (l : NetLine) (t : List Char) : readFields 16 (l.row ++ t) = l.values := by
  have hends : Ends ('\n' :: t) := fun c hc => Option.some.inj hc ▸ rfl
  have hrow : l.row ++ t =
      blanks l.gap ++ (l.first.text ++ (numbers l.rest ++ '\n' :: t)) := by
    simp [NetLine.row]
  rw [hrow, readFields, strtoull_text l.first (blanks_spaces _) (ends_numbers l.rest hends)]
  have hrest := readFields_numbers l.rest hends
  rw [l.length_rest] at hrest
  exact congrArg (l.first.value :: ·) hrest

lemma head?_fromName (f : List Char) (lines : List NetLine) :
    (fromName f lines).head? = lines.find? fun l => decide (f <:+ l.name.chars) :=
  (List.find?_eq_head?_dropWhile_not ..).symm

/-- **What a slot holds.**  The counters of the first line whose name ends in the name of the slot,
and zeros if there is none. -/
theorem counters_parseSlot (t : NetDevText) (f : IfName) :
    Counters.ofSlot (parseSlot t.text f.chars) =
      ((t.lines.find? fun l => decide (f.chars <:+ l.name.chars)).map NetLine.counters).getD 0 := by
  have hsearch := strstr_linesText f.noColon f.noSpace t.lines t.noColon t.ends
  rw [head?_fromName] at hsearch
  unfold parseSlot NetDevText.text
  cases hfind : t.lines.find? fun l => decide (f.chars <:+ l.name.chars) with
  | none =>
    rw [hfind] at hsearch
    rw [Option.map_eq_none_iff.mp hsearch]
    rfl
  | some l =>
    rw [hfind] at hsearch
    obtain ⟨p, hp, hdrop⟩ := Option.map_eq_some_iff.mp hsearch
    have hfields : readFields 16 (p.drop (f.chars.length + 1)) = l.values := by
      rw [hdrop, readFields_row]
    have hlen : ¬l.values.length < 12 := by simp [NetLine.values, l.length_rest]
    simp only [hp, hfields, if_neg hlen]
    rfl

/-! ## Attribution -/

/-- A slot carries the counters of the line with its name, and zeros exactly if there is none. -/
structure Attributed (t : NetDevText) (f : IfName) (s : NetSlot) : Prop where
  carries : ∀ l ∈ t.lines, l.name.chars = f.chars → Counters.ofSlot s = l.counters
  zeros : Counters.ofSlot s = 0 ↔ ∀ l ∈ t.lines, l.name.chars ≠ f.chars

/-- The first line whose name ends in a name has the counters of the line with the name, which are
not all zero; or, if no line has the name, it counts nothing. -/
structure FirstEndingIsNamed (t : NetDevText) (f : IfName) : Prop where
  named : ∀ l ∈ t.lines, l.name.chars = f.chars → l.counters ≠ 0 ∧
    ∀ l' ∈ t.lines.find? fun l => decide (f.chars <:+ l.name.chars), l'.counters = l.counters
  unnamed : (∀ l ∈ t.lines, l.name.chars ≠ f.chars) →
    ∀ l' ∈ t.lines.find? fun l => decide (f.chars <:+ l.name.chars), l'.counters = 0

lemma attributed_iff (t : NetDevText) (f : IfName) :
    Attributed t f (parseSlot t.text f.chars) ↔ FirstEndingIsNamed t f := by
  have hslot := counters_parseSlot t f
  by_cases hnone : ∀ l ∈ t.lines, l.name.chars ≠ f.chars
  · have hzero : Counters.ofSlot (parseSlot t.text f.chars) = 0 ↔
        ∀ l' ∈ t.lines.find? fun l => decide (f.chars <:+ l.name.chars), l'.counters = 0 := by
      rw [hslot]
      cases t.lines.find? fun l => decide (f.chars <:+ l.name.chars) with
      | none => simp
      | some l' => simp
    constructor
    · exact fun h => ⟨fun l hl hname => absurd hname (hnone l hl),
        fun _ => hzero.mp (h.zeros.mpr hnone)⟩
    · exact fun h => ⟨fun l hl hname => absurd hname (hnone l hl),
        iff_of_true (hzero.mpr (h.unnamed hnone)) hnone⟩
  · -- a line has the name, so some first line has a name that ends in it
    obtain ⟨l, hl, hname⟩ : ∃ l ∈ t.lines, l.name.chars = f.chars := by
      simpa using hnone
    obtain ⟨l', hl'⟩ :
        ∃ l', (t.lines.find? fun l => decide (f.chars <:+ l.name.chars)) = some l' := by
      refine Option.isSome_iff_exists.mp (List.find?_isSome.mpr ⟨l, hl, ?_⟩)
      exact decide_eq_true (hname ▸ List.suffix_rfl)
    have hfirst : Counters.ofSlot (parseSlot t.text f.chars) = l'.counters := by
      rw [hslot, hl']
      rfl
    constructor
    · refine fun h => ⟨fun k hk hkname => ⟨fun hzero => ?_, fun k' hk' => ?_⟩,
        fun hnot => absurd hname (hnot l hl)⟩
      · exact h.zeros.mp ((h.carries k hk hkname).trans hzero) l hl hname
      · obtain rfl := Option.some.inj (hl'.symm.trans hk')
        exact hfirst.symm.trans (h.carries k hk hkname)
    · refine fun h => ⟨fun k hk hkname => ?_, iff_of_false (fun hzero => ?_) hnone⟩
      · exact hfirst.trans ((h.named k hk hkname).2 l' hl')
      · have hsame := hfirst.trans ((h.named l hl hname).2 l' hl')
        exact (h.named l hl hname).1 (hsame.symm.trans hzero)

/-- **Attribution.**  Every slot of a filter carries the counters of its interface exactly when, for
every name in it, the first line whose name ends in it is the line with this name, or has the same
counters. -/
theorem parseNetDev_attributed_iff (t : NetDevText) (ifaceFilter : List IfName) :
    (∀ k : Fin 4, ∀ f ∈ ifaceFilter[k.val]?,
        Attributed t f (parseNetDev t.text (ifaceFilter.map IfName.chars) k)) ↔
      ∀ k : Fin 4, ∀ f ∈ ifaceFilter[k.val]?, FirstEndingIsNamed t f := by
  refine forall_congr' fun k => forall₂_congr fun f hf => ?_
  have hslot : parseNetDev t.text (ifaceFilter.map IfName.chars) k = parseSlot t.text f.chars := by
    unfold parseNetDev
    rw [List.getElem?_map, hf]
    rfl
  rw [hslot]
  exact attributed_iff t f

/-! ## Two interfaces -/

lemma digit_ok (d : Fin 10) : ∀ c ∈ [Char.ofNat (48 + d)], isDigit c = true := by
  have hdigit : ∀ d : Fin 10, isDigit (Char.ofNat (48 + d)) = true := by decide
  intro c hc
  rw [List.mem_singleton.mp hc]
  exact hdigit d

lemma digit_ne_nil (d : Fin 10) : [Char.ofNat (48 + d)] ≠ [] := List.cons_ne_nil _ _

lemma digit_lt (d : Fin 10) : numeral [Char.ofNat (48 + d)] < 2 ^ 64 := by
  revert d
  decide

/-- A number of one digit. -/
def oneDigit (d : Fin 10) : Numeral :=
  ⟨false, [Char.ofNat (48 + d)], digit_ne_nil d, digit_ok d, digit_lt d⟩

lemma length_same (d : Fin 10) : (List.replicate 15 (0, oneDigit d)).length = 15 :=
  List.length_replicate

/-- A line with the same number everywhere. -/
def sameLine (name : IfName) (d : Fin 10) : NetLine where
  pad := 2
  name := name
  gap := 1
  first := oneDigit d
  rest := List.replicate 15 (0, oneDigit d)
  length_rest := length_same d

lemma eth0_noColon : ':' ∉ "eth0".toList := by decide

lemma eth0_noSpace : ∀ c ∈ "eth0".toList, isSpace c = false :=
  List.forall_iff_forall_mem.mp (by decide)

lemma veth0_noColon : ':' ∉ "veth0".toList := by decide

lemma veth0_noSpace : ∀ c ∈ "veth0".toList, isSpace c = false :=
  List.forall_iff_forall_mem.mp (by decide)

def eth0 : IfName := ⟨"eth0".toList, eth0_noColon, eth0_noSpace⟩

def veth0 : IfName := ⟨"veth0".toList, veth0_noColon, veth0_noSpace⟩

def headerText : List Char := "Inter-|   Receive\n face |bytes    packets errs drop\n".toList

lemma headerText_noColon : ':' ∉ headerText := by decide

lemma headerText_ends : ∀ c ∈ headerText.getLast?, isSpace c = true := by
  have hlast : headerText.getLast? = some '\n' := by decide
  intro c hc
  rw [hlast] at hc
  rw [← Option.some.inj hc]
  decide

/-- A virtual interface before the one whose name ends its name. -/
def twoInterfaces : NetDevText :=
  ⟨headerText, headerText_noColon, headerText_ends, [sameLine veth0 7, sameLine eth0 1]⟩

/-- The slot of `eth0` carries the counters of `veth0`. -/
theorem twoInterfaces_not_attributed :
    ¬∀ k : Fin 4, ∀ f ∈ [eth0][k.val]?,
      Attributed twoInterfaces f (parseNetDev twoInterfaces.text ([eth0].map IfName.chars) k) := by
  intro h
  have hslot : Attributed twoInterfaces eth0 (parseSlot twoInterfaces.text eth0.chars) :=
    h 0 eth0 rfl
  have hfind : (twoInterfaces.lines.find? fun l => decide (eth0.chars <:+ l.name.chars)) =
      some (sameLine veth0 7) := List.find?_cons_of_pos (by decide)
  have hmem : sameLine eth0 1 ∈ twoInterfaces.lines :=
    List.mem_cons_of_mem _ (List.mem_singleton_self _)
  have hsame := (((attributed_iff _ _).mp hslot).named _ hmem rfl).2 _ hfind
  exact absurd hsame (by decide)

end ProcNetDev

end FastLivo2
