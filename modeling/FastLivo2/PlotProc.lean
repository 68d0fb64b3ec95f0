import FastLivo2.Lib.Derived
import FastLivo2.ResourceRecords

/-!
# The plot of the processes

`plot_proc` of `analyze_resource.py` draws the CPU percentage and the memory of each watched
process, and in a last row what the rest of the host has used: the busy time of the cores less what
the processes have used between the same samples.

The counters of a process are differences of `utime + stime`.  A process that has been restarted
counts from zero again, and its number changes; the plot looks at the sign of the difference, not at
the number.  So it breaks at a restart only when the new process has used less than the old one.
-/

namespace FastLivo2

/-- The watched processes. -/
inductive ProcSlot
  | kImage | kSlam | kLivox
  deriving DecidableEq, Repr

/-- The clock ticks of a second. -/
def clkTck : ℚ := 100

/-- The records of a file that have been written: `none` if there is no file, or an empty one. -/
def loadBin {ρ : Type} (seq : ρ → UInt64) (file : Option (List ρ)) : Option (List ρ) :=
  match file with
  | none | some [] => none
  | some arr => some (arr.filter fun r => 0 < seq r)

/-- The difference of two stamps, as numbers with a sign. -/
def stampDiff (a b : UInt64) : Int64 := b.toInt64 - a.toInt64

/-- The time between two stamps in seconds. -/
def dtS (a b : UInt64) : ℚ := (stampDiff a b).toInt / 1000000000

/-- `utime + stime`, as a number with a sign. -/
def ProcRecord.cpuRaw (r : ProcRecord) : Int64 := (r.utime + r.stime).toInt64

namespace PlotProc

/-! ## The rows of the processes -/

/-- `d_cpu` of two records. -/
def dCpu (a b : ProcRecord) : Int64 := b.cpuRaw - a.cpuRaw

/-- A percentage is drawn of two records. -/
def Drawn (a b : ProcRecord) : Prop := 0 < dtS a.tSampleNs b.tSampleNs ∧ 0 ≤ dCpu a b

instance (a b : ProcRecord) : Decidable (Drawn a b) := inferInstanceAs (Decidable (_ ∧ _))

/-- `cpu_pct` of two records; `none` is not a number, which breaks the line. -/
def cpuPct (a b : ProcRecord) : Option ℚ :=
  if Drawn a b then
    some (100 * ((dCpu a b).toInt / clkTck) / dtS a.tSampleNs b.tSampleNs)
  else none

/-- What is drawn of a process. -/
structure ProcRow where
  cpuPct : List (Derived ProcRecord (Option ℚ))
  rssMb : List (Derived ProcRecord ℚ)

/-- The row of a process; `none` says that there are no data. -/
def procRow (p : Option (List ProcRecord)) : Option ProcRow :=
  match p with
  | none => none
  | some p =>
    if p.length < 2 then none
    else some
      { cpuPct := Derived.between p.length cpuPct
        rssMb := Derived.each p.length fun r => r.rssBytes.toNat / (1024 * 1024) }

/-! ## The row of the rest -/

/-- The entry of `p_map` for a stamp: the last record with it wins. -/
def lookup (p : List ProcRecord) (t : UInt64) : Option (Derived ProcRecord Int64) :=
  (p.zipIdx.reverse.find? fun x => x.1.tSampleNs == t).map
    fun x => Derived.read x.2 ProcRecord.cpuRaw

/-- What a process has used between the stamps of two global samples, if that is subtracted. -/
def subtracted (p : List ProcRecord) (s t : UInt64) : Option (Derived ProcRecord ℤ) :=
  match lookup p s, lookup p t with
  | some a, some b =>
    -- numbers of Python, which do not overflow
    if (a.value p).toInt ≤ (b.value p).toInt then
      some (Derived.map₂ (fun x y => y.toInt - x.toInt) a b)
    else none
  | _, _ => none

/-- The records of a process that are looked at: none, if there are not two. -/
def trackedRecords (p : Option (List ProcRecord)) : List ProcRecord :=
  match p with
  | none => []
  | some p => if p.length < 2 then [] else p

/-- What is subtracted for a process between two global samples. -/
def tracked (p : Option (List ProcRecord)) (s t : UInt64) : ℤ :=
  ((subtracted (trackedRecords p) s t).map (·.value (trackedRecords p))).getD 0

/-- A counter of the cores, summed over them. -/
def coreSum (x : Fin 8 → UInt64) : UInt64 := ((List.finRange 8).map x).sum

/-- `busy_jif` of two global samples. -/
def busyJif (a b : GlobalRecord) : Int64 :=
  ((coreSum b.cpuTotal).toInt64 - (coreSum a.cpuTotal).toInt64) -
    ((coreSum b.cpuIdle).toInt64 - (coreSum a.cpuIdle).toInt64)

/-- `etc_pct` of two global samples. -/
def etcPct (procs : ProcSlot → Option (List ProcRecord)) (a b : GlobalRecord) : Option ℚ :=
  let s := a.tSampleNs
  let t := b.tSampleNs
  let trackedJif := tracked (procs .kImage) s t + tracked (procs .kSlam) s t +
    tracked (procs .kLivox) s t
  let etcJif : ℚ := (busyJif a b).toInt - trackedJif
  if 0 < dtS s t then some (etcJif / clkTck / dtS s t * 100) else none

/-- The last row; `none` says that `global.bin` is missing. -/
def etcRow (procs : ProcSlot → Option (List ProcRecord)) (g : Option (List GlobalRecord)) :
    Option (List (Derived GlobalRecord (Option ℚ))) :=
  match g with
  | none => none
  | some g => if g.length < 2 then none else some (Derived.between g.length (etcPct procs))

/-- The figure: a row for each process, and one for the rest. -/
structure Figure where
  rows : ProcSlot → Option ProcRow
  etc : Option (List (Derived GlobalRecord (Option ℚ)))

def plotProc (procs : ProcSlot → Option (List ProcRecord)) (g : Option (List GlobalRecord)) :
    Figure where
  rows slot := procRow (procs slot)
  etc := etcRow procs g

/-! ## Restarts -/

/-- A value is computed from records of one process. -/
def SamePid {α : Type} (p : List ProcRecord) (d : Derived ProcRecord α) : Prop :=
  ∃ pid, d.From p fun r => r.pid = pid

/-- What is drawn of a process, and what is subtracted for it, is computed from records with the
same number. -/
def BreaksAtRestarts (p : Option (List ProcRecord)) (g : Option (List GlobalRecord)) : Prop :=
  (∀ row ∈ procRow p, ∀ d ∈ row.cpuPct, (d.value (trackedRecords p)).isSome →
    SamePid (trackedRecords p) d) ∧
  ∀ samples ∈ g, ∀ i : ℕ, ∀ a ∈ samples[i]?, ∀ b ∈ samples[i + 1]?,
    ∀ d ∈ subtracted (trackedRecords p) a.tSampleNs b.tSampleNs, SamePid (trackedRecords p) d

/-- The last record of a process with a stamp. -/
def lastAt (p : List ProcRecord) (t : UInt64) : Option ProcRecord :=
  p.reverse.find? fun r => r.tSampleNs == t

/-- The counter is seen to fall whenever the number changes. -/
def FallsAtRestarts (p : List ProcRecord) (g : List GlobalRecord) : Prop :=
  (∀ i : ℕ, ∀ a ∈ p[i]?, ∀ b ∈ p[i + 1]?, a.pid ≠ b.pid →
    stampDiff a.tSampleNs b.tSampleNs ≤ 0 ∨ dCpu a b < 0) ∧
  ∀ i : ℕ, ∀ s ∈ g[i]?, ∀ t ∈ g[i + 1]?, ∀ a ∈ lastAt p s.tSampleNs, ∀ b ∈ lastAt p t.tSampleNs,
    a.pid ≠ b.pid → b.cpuRaw < a.cpuRaw

/-- An entry of the map is of the last record with its stamp. -/
lemma lookup_eq (p : List ProcRecord) (t : UInt64) :
    (lookup p t = none ∧ lastAt p t = none) ∨
      ∃ i r, p[i]? = some r ∧ lastAt p t = some r ∧
        lookup p t = some (Derived.read i ProcRecord.cpuRaw) := by
  have hlast : lastAt p t = (p.zipIdx.reverse.find? fun x => x.1.tSampleNs == t).map Prod.fst := by
    unfold lastAt
    conv_lhs => rw [← List.zipIdx_map_fst 0 p, ← List.map_reverse, List.find?_map]
    rfl
  cases hfind : p.zipIdx.reverse.find? fun x => x.1.tSampleNs == t with
  | none => exact .inl ⟨by rw [lookup, hfind]; rfl, by rw [hlast, hfind]; rfl⟩
  | some x =>
    have hmem : x ∈ p.zipIdx := List.mem_reverse.mp (List.mem_of_find?_eq_some hfind)
    refine .inr ⟨x.2, x.1, List.mem_zipIdx_iff_getElem?.mp hmem, ?_, ?_⟩
    · rw [hlast, hfind]
      rfl
    · rw [lookup, hfind]
      rfl

variable {p : List ProcRecord} {i j : ℕ} {a b : ProcRecord}

/-- A value of two records is of one process if their numbers are the same. -/
lemma samePid_map₂ {α β γ : Type} {f : α → β → γ} {u : ProcRecord → α} {v : ProcRecord → β}
    (ha : p[i]? = some a) (hb : p[j]? = some b) :
    SamePid p (Derived.map₂ f (Derived.read i u) (Derived.read j v)) ↔ a.pid = b.pid := by
  unfold SamePid
  simp only [Derived.from_map₂, Derived.from_read, ha, hb, Option.mem_some_iff,
    exists_eq_left']
  exact eq_comm

lemma getD_eq (ha : p[i]? = some a) : p.getD i default = a := by
  rw [List.getD_eq_getElem?_getD, ha, Option.getD_some]

lemma dtS_pos_iff (s t : UInt64) : 0 < dtS s t ↔ 0 < stampDiff s t := by
  unfold dtS
  rw [div_pos_iff_of_pos_right (by norm_num), Int.cast_pos, Int64.lt_iff_toInt_lt]
  simp

/-- A percentage is left out when the time or the counter goes back. -/
lemma not_drawn_iff :
    ¬Drawn a b ↔ stampDiff a.tSampleNs b.tSampleNs ≤ 0 ∨ dCpu a b < 0 := by
  unfold Drawn
  rw [dtS_pos_iff, not_and_or, Int64.not_lt, Int64.not_le]

/-- Two consecutive positions hold records. -/
lemma getElem?_pair (hi : i < p.length - 1) : ∃ a b, p[i]? = some a ∧ p[i + 1]? = some b :=
  ⟨_, _, List.getElem?_eq_getElem (by omega), List.getElem?_eq_getElem (by omega)⟩

/-- The percentages of a process. -/
lemma cpuPct_samePid_iff (p : List ProcRecord) :
    (∀ d ∈ Derived.between p.length cpuPct, (d.value p).isSome → SamePid p d) ↔
      ∀ i : ℕ, ∀ a ∈ p[i]?, ∀ b ∈ p[i + 1]?, a.pid ≠ b.pid →
        stampDiff a.tSampleNs b.tSampleNs ≤ 0 ∨ dCpu a b < 0 := by
  have hsome : ∀ {i a b}, p[i]? = some a → p[i + 1]? = some b →
      (((Derived.map₂ cpuPct (Derived.read i id) (Derived.read (i + 1) id)).value p).isSome ↔
        Drawn a b) := by
    intro i a b ha hb
    show (cpuPct (p.getD i default) (p.getD (i + 1) default)).isSome ↔ _
    rw [getD_eq ha, getD_eq hb, cpuPct]
    by_cases hdrawn : Drawn a b
    · simp [hdrawn]
    · simp [hdrawn]
  unfold Derived.between
  simp only [List.forall_mem_map, List.mem_range]
  constructor
  · intro h i a ha b hb hpid
    have hi : i + 1 < p.length := (List.getElem?_eq_some_iff.mp hb).1
    refine not_drawn_iff.mp fun hdrawn => hpid ?_
    apply (samePid_map₂ ha hb).mp
    exact h i (by omega) ((hsome ha hb).mpr hdrawn)
  · intro h i hi hdrawn
    obtain ⟨a, b, ha, hb⟩ := getElem?_pair hi
    apply (samePid_map₂ ha hb).mpr
    by_contra hpid
    exact not_drawn_iff.mpr (h i a ha b hb hpid) ((hsome ha hb).mp hdrawn)

/-- What is subtracted for a process. -/
lemma subtracted_samePid_iff (p : List ProcRecord) (s t : UInt64) :
    (∀ d ∈ subtracted p s t, SamePid p d) ↔ ∀ a ∈ lastAt p s, ∀ b ∈ lastAt p t,
      a.pid ≠ b.pid → b.cpuRaw < a.cpuRaw := by
  unfold subtracted
  obtain ⟨hs, has⟩ | ⟨i, a, hi, has, hs⟩ := lookup_eq p s
  · rw [hs, has]
    simp
  obtain ⟨ht, hbt⟩ | ⟨j, b, hj, hbt, ht⟩ := lookup_eq p t
  · rw [hs, ht, hbt]
    simp
  rw [hs, ht, has, hbt]
  have hle : (((Derived.read i ProcRecord.cpuRaw).value p).toInt ≤
      ((Derived.read j ProcRecord.cpuRaw).value p).toInt) ↔ ¬b.cpuRaw < a.cpuRaw := by
    show (p.getD i default).cpuRaw.toInt ≤ (p.getD j default).cpuRaw.toInt ↔ _
    rw [getD_eq hi, getD_eq hj, Int64.not_lt, Int64.le_iff_toInt_le]
  simp only [hle, Option.mem_some_iff, forall_eq']
  by_cases hlt : b.cpuRaw < a.cpuRaw
  · simp [hlt]
  · simp only [if_pos hlt, Option.mem_some_iff, forall_eq', samePid_map₂ hi hj]
    exact ⟨fun h hne => absurd h hne, fun h => by_contra fun hne => hlt (h hne)⟩

/-- A process has a row if it has two records, and then its percentages are of all pairs. -/
lemma forall_procRow_iff (p : Option (List ProcRecord)) {Q : Derived ProcRecord (Option ℚ) → Prop} :
    (∀ row ∈ procRow p, ∀ d ∈ row.cpuPct, Q d) ↔
      ∀ d ∈ Derived.between (trackedRecords p).length cpuPct, Q d := by
  cases p with
  | none => simp [procRow, trackedRecords, Derived.between]
  | some p =>
    by_cases hlen : p.length < 2
    · simp [procRow, trackedRecords, Derived.between, hlen]
    · simp [procRow, trackedRecords, hlen]

/-- **Restarts.**  What is drawn of a process, and what is subtracted for it in the last row, is
computed of one process exactly when the counter is seen to fall at every change of the number, or,
where it is drawn, the time does not go on. -/
theorem breaksAtRestarts_iff (p : Option (List ProcRecord)) (g : Option (List GlobalRecord)) :
    BreaksAtRestarts p g ↔ FallsAtRestarts (trackedRecords p) (g.getD []) := by
  refine and_congr ?_ ?_
  · rw [← cpuPct_samePid_iff]
    exact forall_procRow_iff p
  · cases g with
    | none => simp
    | some g =>
      simp only [Option.mem_some_iff, forall_eq', Option.getD_some]
      exact forall_congr' fun i => forall₂_congr fun a _ => forall₂_congr fun b _ =>
        subtracted_samePid_iff _ _ _

/-- A process that is restarted between two samples, and has used more than the one before. -/
def restarted : List ProcRecord :=
  [{ seq := 1, tSampleNs := 1000000000, pid := 100, utime := 10 },
    { seq := 2, tSampleNs := 2000000000, pid := 200, utime := 50 }]

/-- The samples of the host at the same times. -/
def restartedSamples : List GlobalRecord :=
  [{ seq := 1, tSampleNs := 1000000000, valid := 1 },
    { seq := 2, tSampleNs := 2000000000, valid := 1 }]

/-- The curve of the CPU load is drawn across the restart. -/
theorem restarted_not_breaks :
    ¬BreaksAtRestarts (loadBin ProcRecord.seq (some restarted))
      (loadBin GlobalRecord.seq (some restartedSamples)) := by
  have hload : loadBin ProcRecord.seq (some restarted) = some restarted := by decide +kernel
  rw [hload]
  intro h
  have hdrawn : Drawn (restarted.getD 0 default) (restarted.getD 1 default) := by decide +kernel
  have hmem : Derived.map₂ cpuPct (Derived.read 0 id) (Derived.read 1 id) ∈
      Derived.between restarted.length cpuPct := List.mem_map_of_mem (List.mem_singleton_self 0)
  have hsame := (forall_procRow_iff (some restarted)).mp h.1 _ hmem
    (by show (cpuPct (restarted.getD 0 default) (restarted.getD 1 default)).isSome
        rw [cpuPct, if_pos hdrawn]
        rfl)
  exact absurd ((samePid_map₂ rfl rfl).mp hsame) (by decide)

end PlotProc

end FastLivo2
