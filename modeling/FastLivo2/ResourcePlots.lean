import FastLivo2.PlotProc

/-!
# The plots of the host

The plots of `analyze_resource.py` draw the sources of the global records.  Two of them look at the
bit of their source in all the records; the others look whether any record has it, and then draw
every record.

A line of a figure is of one source.  It respects the bits if each value on it, and each difference
behind one, is computed from records that have the bit.
-/

namespace FastLivo2

/-- A line of a figure, under its label in the legend. -/
structure PlotLine where
  label : String
  source : GlobalValid
  values : List (Derived GlobalRecord (Option ℚ))

namespace PlotLine

/-- A line through a value of each record. -/
def column (label : String) (source : GlobalValid) (g : List GlobalRecord)
    (f : GlobalRecord → ℚ) : PlotLine where
  label := label
  source := source
  values := Derived.each g.length fun r => some (f r)

/-- A line through a value of each two consecutive records. -/
def differences (label : String) (source : GlobalValid) (g : List GlobalRecord)
    (f : GlobalRecord → GlobalRecord → Option ℚ) : PlotLine where
  label := label
  source := source
  values := Derived.between g.length f

/-- A level line. -/
def level (label : String) (source : GlobalValid) (d : Derived GlobalRecord ℚ) : PlotLine where
  label := label
  source := source
  values := [d.map some]

/-- The values are computed from records that have the bit of the source. -/
def Respects (g : List GlobalRecord) (l : PlotLine) : Prop :=
  ∀ d ∈ l.values, d.From g (GlobalRecord.Has l.source)

/-- A line that respects the bits does not show what is in the other records. -/
theorem Respects.value_eq {g g' : List GlobalRecord} {l : PlotLine} (h : l.Respects g)
    (hkeep : ∀ (i : ℕ), ∀ r ∈ g[i]?, r.Has l.source → g'[i]? = some r) :
    l.values.map (·.value g) = l.values.map (·.value g') :=
  List.map_congr_left fun d hd => (h d hd).value_eq hkeep

end PlotLine

/-- What the files of the running host say about its limits. -/
structure HostLimits where
  cpuMaxFreqKhz : Fin 8 → Option ℕ
  gpuMaxFreqHz : Option ℕ

namespace ResourcePlots

open PlotLine

/-- Some record has a bit: `(g['valid'] & bit).any()`. -/
def anyHas (s : GlobalValid) (g : List GlobalRecord) : Bool := g.any fun r => decide (r.Has s)

/-- Every record has a bit: `(g['valid'] & bit).all()`. -/
def allHas (s : GlobalValid) (g : List GlobalRecord) : Bool := g.all fun r => decide (r.Has s)

/-- A quotient of counters, or zero if the divisor has not grown. -/
def ratio (num den : ℚ) : ℚ := if 0 < den then num / den else 0

/-! ## The plots -/

/-- `plot_cpu_usage`. -/
def plotCpuUsage (g : List GlobalRecord) : List PlotLine :=
  if g.length < 2 ∨ allHas .vCpu g = false then []
  else (List.finRange 8).map fun c => differences "cpu" .vCpu g fun a b =>
    let dtTotal : ℚ := (b.cpuTotal c - a.cpuTotal c).toNat
    let dtIdle : ℚ := (b.cpuIdle c - a.cpuIdle c).toNat
    some (ratio (100 * (dtTotal - dtIdle)) dtTotal)

/-- `plot_cpu_freq`. -/
def plotCpuFreq (host : HostLimits) (g : List GlobalRecord) : List PlotLine :=
  if g.length < 1 ∨ anyHas .vCpufreq g = false then []
  else (List.finRange 8).flatMap fun c =>
    column "cpu" .vCpufreq g (fun r => (r.cpuFreq c).toNat / 1000) ::
      match host.cpuMaxFreqKhz c with
      | none => []
      | some khz => [level "max" .vCpufreq (Derived.const (khz / 1000))]

/-- `used_mb` of a record; the subtraction is one of unsigned numbers. -/
def usedMb (r : GlobalRecord) : ℚ := (r.memTotalKb - r.memAvailKb).toNat / 1024

/-- `max()` of a column that is not empty. -/
def maximum (l : List ℚ) : ℚ := l.foldl max (l.headD 0)

/-- `t_seconds`: the stamps, in seconds from the first. -/
def tSeconds (ns : List UInt64) : List ℚ :=
  ns.map fun t => ((t.toInt64 - (ns.headD 0).toInt64).toInt : ℚ) / 1000000000

/-- The time of the first largest value. -/
def peakTime (used : List ℚ) (ns : List UInt64) : ℚ :=
  (tSeconds ns).getD (used.idxOf (maximum used)) 0

/-- `plot_ram`. -/
def plotRam (g : List GlobalRecord) : List PlotLine :=
  if g.length < 1 ∨ anyHas .vMem g = false then []
  else
    let used := Derived.all (Derived.each g.length usedMb)
    let stamps := Derived.all (Derived.each g.length GlobalRecord.tSampleNs)
    [column "RAM used" .vMem g usedMb,
      level "total" .vMem (Derived.read (g.length - 1) fun r => r.memTotalKb.toNat / 1024),
      level "peak" .vMem (used.map maximum),
      level "peak, time" .vMem (Derived.map₂ peakTime used stamps)]

/-- `plot_gpu`. -/
def plotGpu (host : HostLimits) (g : List GlobalRecord) : List PlotLine :=
  if g.length < 1 ∨ anyHas .vGpu g = false then []
  else
    column "GPU load" .vGpu g (fun r => r.gpuLoad.toNat / 10) ::
    column "GPU freq" .vGpu g (fun r => r.gpuFreqHz.toNat / 1000000) ::
      match host.gpuMaxFreqHz with
      | none => []
      | some hz => [level "max" .vGpu (Derived.const (hz / 1000000))]

/-- `plot_throttle`. -/
def plotThrottle (g : List GlobalRecord) : List PlotLine :=
  if g.length < 1 ∨ anyHas .vThrottle g = false then []
  else
    [column "cluster0 (cpu0-3)" .vThrottle g fun r => r.thrCpu0.toNat,
      column "cluster1 (cpu4-7)" .vThrottle g fun r => r.thrCpu4.toNat,
      column "gpu" .vThrottle g fun r => r.thrGpu.toNat]

/-- The name of an interface: what is ASCII of the bytes before the zeros at the end. -/
def ifaceName (bytes : List UInt8) : List UInt8 :=
  ((bytes.filter (· < 128)).reverse.dropWhile (· = 0)).reverse

/-- A rate in megabytes a second, of a counter of an interface. -/
def rateMbs (counter : NetSlot → UInt64) (s : Fin 4) (a b : GlobalRecord) : Option ℚ :=
  let bytes : ℚ := (counter (b.net s)).toNat - (counter (a.net s)).toNat
  some (ratio bytes (dtS a.tSampleNs b.tSampleNs) / 1000000)

/-- `plot_net`; the names are those of the first record. -/
def plotNet (g : List GlobalRecord) : List PlotLine :=
  if g.length < 2 ∨ allHas .vNet g = false then []
  else (List.finRange 4).flatMap fun s =>
    if ifaceName ((g.getD 0 default).net s).iface = [] then []
    else
      [differences "rx" .vNet g (rateMbs NetSlot.rxBytes s),
        differences "tx" .vNet g (rateMbs NetSlot.txBytes s)]

/-- `ret_pct` of two records. -/
def retransPct (a b : GlobalRecord) : Option ℚ :=
  let dOut : ℚ := (b.tcpOut.toNat : ℚ) - a.tcpOut.toNat
  let dRet : ℚ := (b.tcpRetrans.toNat : ℚ) - a.tcpRetrans.toNat
  some (ratio (100 * dRet) dOut)

/-- `plot_wifi`. -/
def plotWifi (g : List GlobalRecord) : List PlotLine :=
  if g.length < 1 ∨ (anyHas .vWifi g || anyHas .vTcp g) = false then []
  else
    column "link quality" .vWifi g (fun r => r.wifiLink.toNat) ::
    column "signal level" .vWifi g (fun r => r.wifiLevel.toInt) ::
      if 2 ≤ g.length ∧ anyHas .vTcp g = true then [differences "TCP retrans" .vTcp g retransPct]
      else []

/-- The lines of the last row of `plot_proc`, of the counters of the cores. -/
def plotEtc (procs : ProcSlot → Option (List ProcRecord)) (g : List GlobalRecord) :
    List PlotLine :=
  match (PlotProc.plotProc procs (some g)).etc with
  | none => []
  | some values => [⟨"etc CPU", .vCpu, values⟩]

/-- What is drawn of a file, if it can be loaded. -/
def drawn (host : HostLimits) (procs : ProcSlot → Option (List ProcRecord))
    (file : Option (List GlobalRecord)) : List PlotLine :=
  match loadBin GlobalRecord.seq file with
  | none => []
  | some g => plotCpuFreq host g ++ plotRam g ++ plotGpu host g ++ plotThrottle g ++ plotWifi g ++
      plotEtc procs g

/-! ## The bits -/

variable {g : List GlobalRecord} {s : GlobalValid}

lemma anyHas_eq_false_iff : anyHas s g = false ↔ ∀ r ∈ g, ¬r.Has s := by
  simp [anyHas]

lemma respects_column {label : String} {f : GlobalRecord → ℚ} :
    (column label s g f).Respects g ↔ ∀ r ∈ g, r.Has s := Derived.forall_each_from

lemma respects_differences {label : String} {f : GlobalRecord → GlobalRecord → Option ℚ} :
    (differences label s g f).Respects g ↔ g.length < 2 ∨ ∀ r ∈ g, r.Has s :=
  Derived.forall_between_from

lemma respects_level {label : String} {d : Derived GlobalRecord ℚ} :
    (level label s d).Respects g ↔ d.From g (GlobalRecord.Has s) := by
  simp [Respects, level]

/-- Lines of all the records behind a look at some. -/
lemma gated_respects_iff {lines : List PlotLine}
    (hlines : 1 ≤ g.length → ((∀ l ∈ lines, l.Respects g) ↔ ∀ r ∈ g, r.Has s)) :
    (∀ l ∈ (if g.length < 1 ∨ anyHas s g = false then [] else lines), l.Respects g) ↔
      (∀ r ∈ g, ¬r.Has s) ∨ ∀ r ∈ g, r.Has s := by
  split
  case isTrue h =>
    have hnone : ∀ r ∈ g, ¬r.Has s := by
      rcases h with hlen | hany
      · obtain rfl := List.length_eq_zero_iff.mp (Nat.lt_one_iff.mp hlen)
        exact fun r hr => absurd hr List.not_mem_nil
      · exact anyHas_eq_false_iff.mp hany
    exact iff_of_true (fun l hl => absurd hl List.not_mem_nil) (.inl hnone)
  case isFalse h =>
    rw [hlines (Nat.not_lt.mp fun hlen => h (.inl hlen)), or_iff_right]
    exact fun hnone => h (.inr (anyHas_eq_false_iff.mpr hnone))

lemma plotCpuFreq_respects_iff (host : HostLimits) :
    (∀ l ∈ plotCpuFreq host g, l.Respects g) ↔
      (∀ r ∈ g, ¬r.Has .vCpufreq) ∨ ∀ r ∈ g, r.Has .vCpufreq := by
  refine gated_respects_iff fun _ => ?_
  simp only [List.forall_mem_flatMap, List.forall_mem_cons, respects_column]
  constructor
  · exact fun h => (h 0 (List.mem_finRange 0)).1
  · refine fun h c _ => ⟨h, ?_⟩
    cases host.cpuMaxFreqKhz c with
    | none => simp
    | some khz => simp [respects_level]

lemma plotRam_respects_iff :
    (∀ l ∈ plotRam g, l.Respects g) ↔ (∀ r ∈ g, ¬r.Has .vMem) ∨ ∀ r ∈ g, r.Has .vMem := by
  refine gated_respects_iff fun hlen => ?_
  simp only [List.forall_mem_cons, respects_column, respects_level, Derived.from_map,
    Derived.from_map₂, Derived.from_all, Derived.forall_each_from, Derived.from_read]
  refine ⟨And.left, fun h => ⟨h, ?_, h, ⟨h, h⟩, List.forall_mem_nil _⟩⟩
  exact Derived.forall_lt_exists_iff.mpr h (g.length - 1) (by omega)

lemma plotGpu_respects_iff (host : HostLimits) :
    (∀ l ∈ plotGpu host g, l.Respects g) ↔
      (∀ r ∈ g, ¬r.Has .vGpu) ∨ ∀ r ∈ g, r.Has .vGpu := by
  refine gated_respects_iff fun _ => ?_
  simp only [List.forall_mem_cons, respects_column]
  refine ⟨And.left, fun h => ⟨h, h, ?_⟩⟩
  cases host.gpuMaxFreqHz with
  | none => simp
  | some hz => simp [respects_level]

lemma plotThrottle_respects_iff :
    (∀ l ∈ plotThrottle g, l.Respects g) ↔
      (∀ r ∈ g, ¬r.Has .vThrottle) ∨ ∀ r ∈ g, r.Has .vThrottle := by
  refine gated_respects_iff fun _ => ?_
  simp only [List.forall_mem_cons, respects_column]
  exact ⟨And.left, fun h => ⟨h, h, h, List.forall_mem_nil _⟩⟩

/-- The radio is drawn of all records as soon as one has either bit. -/
lemma plotWifi_respects_iff :
    (∀ l ∈ plotWifi g, l.Respects g) ↔
      ((∀ r ∈ g, ¬r.Has .vWifi ∧ ¬r.Has .vTcp) ∨ ∀ r ∈ g, r.Has .vWifi) ∧
        (g.length < 2 ∨ (∀ r ∈ g, ¬r.Has .vTcp) ∨ ∀ r ∈ g, r.Has .vTcp) := by
  unfold plotWifi
  split
  case isTrue h =>
    have hnone : ∀ r ∈ g, ¬r.Has .vWifi ∧ ¬r.Has .vTcp := by
      rcases h with hlen | hany
      · obtain rfl := List.length_eq_zero_iff.mp (Nat.lt_one_iff.mp hlen)
        exact fun r hr => absurd hr List.not_mem_nil
      · obtain ⟨hwifi, htcp⟩ := Bool.or_eq_false_iff.mp hany
        exact fun r hr => ⟨anyHas_eq_false_iff.mp hwifi r hr, anyHas_eq_false_iff.mp htcp r hr⟩
    exact iff_of_true (fun l hl => absurd hl List.not_mem_nil)
      ⟨.inl hnone, .inr (.inl fun r hr => (hnone r hr).2)⟩
  case isFalse h =>
    have hsome : ¬∀ r ∈ g, ¬r.Has .vWifi ∧ ¬r.Has .vTcp := by
      intro hnone
      have hwifi : anyHas .vWifi g = false := anyHas_eq_false_iff.mpr fun r hr => (hnone r hr).1
      have htcp : anyHas .vTcp g = false := anyHas_eq_false_iff.mpr fun r hr => (hnone r hr).2
      exact h (.inr (by rw [hwifi, htcp]; rfl))
    simp only [List.forall_mem_cons, respects_column]
    rw [or_iff_right hsome, ← and_assoc, and_self_iff]
    refine and_congr_right fun _ => ?_
    split
    case isTrue hdiff =>
      have htcp : ¬∀ r ∈ g, ¬r.Has .vTcp := fun hnone =>
        absurd (anyHas_eq_false_iff.mpr hnone) (by simp [hdiff.2])
      simp [respects_differences, htcp]
    case isFalse hdiff =>
      refine iff_of_true (fun l hl => absurd hl List.not_mem_nil) ?_
      by_cases hlen : g.length < 2
      · exact .inl hlen
      · refine .inr (.inl (anyHas_eq_false_iff.mp ?_))
        exact Bool.eq_false_iff.mpr fun htcp => hdiff ⟨Nat.not_lt.mp hlen, htcp⟩

lemma plotEtc_respects_iff (procs : ProcSlot → Option (List ProcRecord)) :
    (∀ l ∈ plotEtc procs g, l.Respects g) ↔ g.length < 2 ∨ ∀ r ∈ g, r.Has .vCpu := by
  unfold plotEtc PlotProc.plotProc PlotProc.etcRow
  by_cases hlen : g.length < 2
  · simp [hlen]
  · simp only [if_neg hlen, List.forall_mem_singleton, Respects]
    exact Derived.forall_between_from

/-- Lines between all the records behind a look at all. -/
lemma fully_gated_respects {lines : List PlotLine}
    (hlines : (∀ r ∈ g, r.Has s) → ∀ l ∈ lines, l.Respects g) :
    ∀ l ∈ (if g.length < 2 ∨ allHas s g = false then [] else lines), l.Respects g := by
  split
  case isTrue => exact fun l hl => absurd hl List.not_mem_nil
  case isFalse h =>
    refine hlines fun r hr => ?_
    have hall : allHas s g = true := by
      simpa using fun hfalse => h (.inr hfalse)
    exact of_decide_eq_true (List.all_eq_true.mp hall r hr)

/-- The plots that look at all the records respect the bits of every recording. -/
theorem plotCpuUsage_respects : ∀ l ∈ plotCpuUsage g, l.Respects g := by
  refine fully_gated_respects fun h => ?_
  simp only [List.forall_mem_map]
  exact fun c _ => respects_differences.mpr (.inr h)

theorem plotNet_respects : ∀ l ∈ plotNet g, l.Respects g := by
  refine fully_gated_respects fun h => ?_
  simp only [List.forall_mem_flatMap]
  intro c _
  split
  · exact fun l hl => absurd hl List.not_mem_nil
  · simp only [List.forall_mem_cons, respects_differences]
    exact ⟨.inr h, .inr h, nofun⟩

/-- The records among which the plots do not tell the valid ones from the others. -/
structure BitsUniform (g : List GlobalRecord) : Prop where
  cpuFreq : (∀ r ∈ g, ¬r.Has .vCpufreq) ∨ ∀ r ∈ g, r.Has .vCpufreq
  mem : (∀ r ∈ g, ¬r.Has .vMem) ∨ ∀ r ∈ g, r.Has .vMem
  gpu : (∀ r ∈ g, ¬r.Has .vGpu) ∨ ∀ r ∈ g, r.Has .vGpu
  throttle : (∀ r ∈ g, ¬r.Has .vThrottle) ∨ ∀ r ∈ g, r.Has .vThrottle
  wifi : (∀ r ∈ g, ¬r.Has .vWifi ∧ ¬r.Has .vTcp) ∨ ∀ r ∈ g, r.Has .vWifi
  tcp : g.length < 2 ∨ (∀ r ∈ g, ¬r.Has .vTcp) ∨ ∀ r ∈ g, r.Has .vTcp
  cpu : g.length < 2 ∨ ∀ r ∈ g, r.Has .vCpu

/-- **The valid bits.**  What is drawn of the sources of a recording is computed only from records
that have the bit of the source exactly when every source is valid in all the records or in none;
for the radio `none` is of both bits, and for the cores, which are not looked at, there is none with
two records. -/
theorem drawn_respects_iff (host : HostLimits) (procs : ProcSlot → Option (List ProcRecord))
    (file : Option (List GlobalRecord)) :
    (∀ l ∈ drawn host procs file, l.Respects ((loadBin GlobalRecord.seq file).getD [])) ↔
      BitsUniform ((loadBin GlobalRecord.seq file).getD []) := by
  unfold drawn
  cases loadBin GlobalRecord.seq file with
  | none => exact iff_of_true nofun ⟨.inl nofun, .inl nofun, .inl nofun, .inl nofun, .inl nofun,
      .inl Nat.two_pos, .inl Nat.two_pos⟩
  | some g =>
    simp only [Option.getD_some, List.forall_mem_append, plotCpuFreq_respects_iff,
      plotRam_respects_iff, plotGpu_respects_iff, plotThrottle_respects_iff,
      plotWifi_respects_iff, plotEtc_respects_iff]
    constructor
    · rintro ⟨⟨⟨⟨⟨hfreq, hmem⟩, hgpu⟩, hthr⟩, hwifi, htcp⟩, hcpu⟩
      exact ⟨hfreq, hmem, hgpu, hthr, hwifi, htcp, hcpu⟩
    · rintro ⟨hfreq, hmem, hgpu, hthr, hwifi, htcp, hcpu⟩
      exact ⟨⟨⟨⟨⟨hfreq, hmem⟩, hgpu⟩, hthr⟩, hwifi, htcp⟩, hcpu⟩

/-- What is read on a host whose radio is not associated, and then is. -/
def hostReads (wireless : Option (UInt32 × Int32)) : HostReads where
  cpuStat := some (fun _ => 1000, fun _ => 900)
  meminfo := some (16000000, 8000000)
  cpufreq := fun _ => some 2000000
  gpuLoad := some 100
  gpuFreq := some 900000000
  throttle := fun _ => some 0
  netDev := some fun _ => {}
  wireless := wireless
  snmpTcp := some (5000, 3)

/-- A recording that begins before the radio is associated. -/
def roaming : List GlobalRecord :=
  [(hostReads none).sampleOnce 1 1000000000, (hostReads (some (60, -50))).sampleOnce 2 2000000000]

/-- Its first link quality, which has not been read, is drawn as zero. -/
theorem roaming_not_respects :
    ¬∀ l ∈ drawn ⟨fun _ => none, none⟩ (fun _ => none) (some roaming),
      l.Respects ((loadBin GlobalRecord.seq (some roaming)).getD []) := by
  have hload : loadBin GlobalRecord.seq (some roaming) = some roaming := by decide +kernel
  unfold drawn
  rw [hload]
  intro h
  have hwifi := (plotWifi_respects_iff.mp fun l hl =>
    h l (List.mem_append_left _ (List.mem_append_right _ hl))).1
  have hfirst : (hostReads none).sampleOnce 1 1000000000 ∈ roaming := List.mem_cons_self
  rcases hwifi with hnone | hall
  · exact (hnone _ hfirst).2 ((HostReads.has_sampleOnce_iff _ _ _ _).mpr rfl)
  · exact absurd ((HostReads.has_sampleOnce_iff _ _ _ _).mp (hall _ hfirst)) Bool.false_ne_true

end ResourcePlots

end FastLivo2
