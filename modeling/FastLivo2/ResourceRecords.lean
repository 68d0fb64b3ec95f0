import FastLivo2.Common

/-!
# The records of the host

Once a second the resource logger writes what it has read of the host into a `GlobalRecord`.  A read
may fail, of a file that was never opened, or of a radio that is not associated; the fields it would
have filled stay zero, and the bit of its source stays clear in `valid`.
-/

namespace FastLivo2

/-- The sources of a `GlobalRecord`. -/
inductive GlobalValid
  | vCpu | vMem | vCpufreq | vGpu | vThrottle | vNet | vWifi | vTcp
  deriving DecidableEq, Repr

def GlobalValid.bit : GlobalValid → UInt32
  | vCpu => 1
  | vMem => 2
  | vCpufreq => 4
  | vGpu => 8
  | vThrottle => 16
  | vNet => 32
  | vWifi => 64
  | vTcp => 128

/-- An interface; its name is of 16 bytes. -/
structure NetSlot where
  iface : List UInt8 := []
  rxBytes : UInt64 := 0
  txBytes : UInt64 := 0
  rxDrop : UInt64 := 0
  txDrop : UInt64 := 0
  deriving DecidableEq, Repr

structure GlobalRecord where
  seq : UInt64 := 0
  tSampleNs : UInt64 := 0
  cpuTotal : Fin 8 → UInt64 := fun _ => 0
  cpuIdle : Fin 8 → UInt64 := fun _ => 0
  cpuFreq : Fin 8 → UInt32 := fun _ => 0
  memTotalKb : UInt64 := 0
  memAvailKb : UInt64 := 0
  gpuLoad : UInt32 := 0
  gpuFreqHz : UInt32 := 0
  thrCpu0 : UInt8 := 0
  thrCpu4 : UInt8 := 0
  thrGpu : UInt8 := 0
  valid : UInt32 := 0
  net : Fin 4 → NetSlot := fun _ => {}
  wifiLink : UInt32 := 0
  wifiLevel : Int32 := 0
  tcpOut : UInt64 := 0
  tcpRetrans : UInt64 := 0
  deriving DecidableEq

instance : Inhabited GlobalRecord := ⟨{}⟩

/-- The record has the bit of a source. -/
def GlobalRecord.Has (s : GlobalValid) (r : GlobalRecord) : Prop := r.valid &&& s.bit ≠ 0

instance (s : GlobalValid) : DecidablePred (GlobalRecord.Has s) :=
  fun r => inferInstanceAs (Decidable (r.valid &&& s.bit ≠ 0))

/-- The record of one process. -/
structure ProcRecord where
  seq : UInt64 := 0
  tSampleNs : UInt64 := 0
  pid : UInt32 := 0
  utime : UInt64 := 0
  stime : UInt64 := 0
  rssBytes : UInt64 := 0
  deriving DecidableEq, Repr

instance : Inhabited ProcRecord := ⟨{}⟩

/-! ## A sample -/

/-- What the reads of a sample give, where they can be read and parsed. -/
structure HostReads where
  cpuStat : Option ((Fin 8 → UInt64) × (Fin 8 → UInt64))
  meminfo : Option (UInt64 × UInt64)
  cpufreq : Fin 8 → Option UInt32
  gpuLoad : Option UInt32
  gpuFreq : Option UInt32
  throttle : Fin 3 → Option UInt32
  netDev : Option (Fin 4 → NetSlot)
  wireless : Option (UInt32 × Int32)
  snmpTcp : Option (UInt64 × UInt64)

namespace HostReads

variable (h : HostReads)

/-- All that a source needs has been read. -/
def ok : GlobalValid → Bool
  | .vCpu => h.cpuStat.isSome
  | .vMem => h.meminfo.isSome
  | .vCpufreq => decide (∀ c, (h.cpufreq c).isSome)
  | .vGpu => h.gpuLoad.isSome && h.gpuFreq.isSome
  | .vThrottle => decide (∀ i, (h.throttle i).isSome)
  | .vNet => h.netDev.isSome
  | .vWifi => h.wireless.isSome
  | .vTcp => h.snmpTcp.isSome

/-- `g.valid |= bit`, if all has been read. -/
def mark (s : GlobalValid) (valid : UInt32) : UInt32 := if h.ok s then valid ||| s.bit else valid

/-- The bits that `sample_once` sets, in its order. -/
def valid : UInt32 :=
  h.mark .vTcp (h.mark .vWifi (h.mark .vNet (h.mark .vThrottle (h.mark .vGpu
    (h.mark .vCpufreq (h.mark .vMem (h.mark .vCpu 0)))))))

/-- The record that `sample_once` stores. -/
def sampleOnce (seq tSampleNs : UInt64) : GlobalRecord where
  seq := seq
  tSampleNs := tSampleNs
  cpuTotal := (h.cpuStat.map Prod.fst).getD fun _ => 0
  cpuIdle := (h.cpuStat.map Prod.snd).getD fun _ => 0
  -- a core, the load or a device that can be read is recorded even if another cannot
  cpuFreq := fun c => (h.cpufreq c).getD 0
  memTotalKb := (h.meminfo.map Prod.fst).getD 0
  memAvailKb := (h.meminfo.map Prod.snd).getD 0
  gpuLoad := h.gpuLoad.getD 0
  gpuFreqHz := h.gpuFreq.getD 0
  thrCpu0 := ((h.throttle 0).getD 0).toUInt8
  thrCpu4 := ((h.throttle 1).getD 0).toUInt8
  thrGpu := ((h.throttle 2).getD 0).toUInt8
  valid := h.valid
  net := h.netDev.getD fun _ => {}
  wifiLink := (h.wireless.map Prod.fst).getD 0
  wifiLevel := (h.wireless.map Prod.snd).getD 0
  tcpOut := (h.snmpTcp.map Prod.fst).getD 0
  tcpRetrans := (h.snmpTcp.map Prod.snd).getD 0

/-- Two sources have no bit in common. -/
lemma bit_and_bit (s t : GlobalValid) : s.bit &&& t.bit = if s = t then s.bit else 0 := by
  cases s <;> cases t <;> decide

lemma bit_ne_zero (s : GlobalValid) : s.bit ≠ 0 := by
  cases s <;> decide

lemma mark_and_bit (s t : GlobalValid) (v : UInt32) :
    h.mark s v &&& t.bit ≠ 0 ↔ v &&& t.bit ≠ 0 ∨ h.ok s = true ∧ s = t := by
  have hdistrib : (v ||| s.bit) &&& t.bit = (v &&& t.bit) ||| (s.bit &&& t.bit) :=
    UInt32.toBitVec_inj.mp BitVec.and_or_distrib_right
  unfold mark
  by_cases hok : h.ok s
  · rw [if_pos hok, hdistrib, bit_and_bit, Ne, UInt32.or_eq_zero_iff, not_and_or]
    by_cases hst : s = t
    · subst hst
      simp [bit_ne_zero, hok]
    · simp [hst]
  · simp [hok]

/-- **The bits of a sample.**  A source has its bit exactly when all of it has been read. -/
theorem has_sampleOnce_iff (seq t : UInt64) (s : GlobalValid) :
    (h.sampleOnce seq t).Has s ↔ h.ok s = true := by
  show h.valid &&& s.bit ≠ 0 ↔ _
  unfold valid
  simp only [mark_and_bit]
  cases s <;> simp

end HostReads

end FastLivo2
