import FastLivo2.Common
import FastLivo2.Lib.Descriptors
import FastLivo2.Lib.Exec
import FastLivo2.Lib.Fold

/-!
# The resource logger

`resource_logger_node.cpp` samples the host once a second.  It keeps the files it reads open: seven
for the host, one for each core, three for the cooling devices, and two for each of the processes
it watches.  A process is found by the name of its executable; when its files can no longer be read
they are closed, and the next samples look for it again.

The module models the descriptors: which calls open them, where they are kept, and what `shutdown`
closes.  What the calls to the kernel return is part of each event, so any of them may fail.  The
descriptors of the black box files are `Box`'s own.
-/

namespace FastLivo2

/-- The two files of a process; no process has the number `0`. -/
structure ProcEntry where
  pid : UInt32
  fdStat : ℤ
  fdStatm : ℤ
  deriving DecidableEq, Repr

/-- `ProcEntry{}`. -/
def ProcEntry.blank : ProcEntry := ⟨0, 0, 0⟩

/-- An entry of `/sys/class/thermal`, and what the calls on it return. -/
structure ThermalEntry where
  name : List Char
  /-- `open` of the file `type`. -/
  typeFd : ℤ
  /-- `pread` of it; empty when nothing is read. -/
  typeText : List Char
  /-- `open` of the file `cur_state`. -/
  curState : ℤ
  deriving DecidableEq, Repr

/-- An entry of `/proc`, and what the calls on it return. -/
structure ProcDirEntry where
  name : List Char
  /-- `readlink` of `exe`; empty when there is nothing to read. -/
  exe : List Char
  /-- `open` of `stat`. -/
  stat : ℤ
  /-- `open` of `statm`. -/
  statm : ℤ
  deriving DecidableEq, Repr

/-- What the calls of `init` return. -/
structure InitCalls where
  /-- `open` of `/proc/stat`, `/proc/meminfo`, the two files of the GPU, `/proc/net/dev`,
  `/proc/net/wireless` and `/proc/net/snmp`. -/
  host : Fin 7 → ℤ
  /-- `open` of `scaling_cur_freq` of each core. -/
  cpufreq : Fin 8 → ℤ
  /-- The entries of `/sys/class/thermal`, if it can be opened. -/
  thermal : Option (List ThermalEntry)
  /-- The entries of `/proc`, if it can be opened. -/
  proc : Option (List ProcDirEntry)

/-- What the calls for one slot return in a sample. -/
structure SlotCalls where
  /-- The entries of `/proc`, if it can be opened. -/
  proc : Option (List ProcDirEntry)
  /-- An open `stat` is read and parsed. -/
  statReads : Bool

/-- The members of the sampler that hold descriptors, and what finds them. -/
structure ResourceSampler where
  procPrefixes : List (List Char)
  maxScanPids : ℕ
  /-- `fd_stat_`, `fd_meminfo_`, `fd_gpu_load_`, `fd_gpu_freq_`, `fd_net_`, `fd_wl_`, `fd_snmp_`. -/
  fdHost : List ℤ
  fdCpufreq : List ℤ
  fdThr : List ℤ
  procs : List ProcEntry
  /-- The descriptors of the sampler (ghost data). -/
  fds : Descriptors
  /-- `init` has been called (ghost data). -/
  started : Bool
  deriving DecidableEq

inductive SamplerEvent
  | init (procPrefixes : List (List Char)) (maxScanPids : ℕ) (calls : InitCalls)
  | sampleOnce (calls : Fin 3 → SlotCalls)
  | shutdown

namespace ResourceSampler

/-- A new sampler: the arrays `fd_cpufreq_` and `fd_thr_` are zeroed. -/
def initial : ResourceSampler where
  procPrefixes := []
  maxScanPids := 4096
  fdHost := List.replicate 7 (-1)
  fdCpufreq := List.replicate 8 0
  fdThr := List.replicate 3 0
  procs := []
  fds := ⟨∅, []⟩
  started := false

/-! ## The cooling devices -/

def wanted : List (List Char) :=
  ["cpufreq-cpu0".toList, "cpufreq-cpu4".toList, "devfreq-17000000.gpu".toList]

/-- The text of a file `type`, at most 63 characters, without the blanks at its end. -/
def trimmed (text : List Char) : List Char :=
  ((text.take 63).reverse.dropWhile fun c => c = '\n' ∨ c = ' ').reverse

/-- The field for the device of an entry, as far as its `cur_state` is opened. -/
def wantedIndex (e : ThermalEntry) : Option ℕ :=
  if "cooling_device".toList.isPrefixOf e.name ∧ 0 ≤ e.typeFd ∧ e.typeText ≠ [] then
    wanted.findIdx? (· = trimmed e.typeText)
  else none

/-- A turn of the loop of `open_throttle_devs`. -/
def openThrottleDev (s : ResourceSampler) (e : ThermalEntry) :
    Except DescriptorFault ResourceSampler := do
  if "cooling_device".toList.isPrefixOf e.name then
    -- the descriptor `tfd` lives for one `pread`
    let fds ← s.fds.openFd e.typeFd
    let s := { s with fds := fds.closeFd e.typeFd }
    match wantedIndex e with
    | some i =>
        let fds ← s.fds.openFd e.curState
        return { s with fds := fds, fdThr := s.fdThr.set i e.curState }
    | none => return s
  else return s

def openThrottleDevs (d : Option (List ThermalEntry)) (s : ResourceSampler) :
    Except DescriptorFault ResourceSampler :=
  (d.getD []).foldlM openThrottleDev s

/-! ## The processes -/

/-- The name of the executable: at most 511 characters of the link, what follows the last slash. -/
def baseName (exe : List Char) : List Char := ((exe.take 511).reverse.takeWhile (· ≠ '/')).reverse

def isDigit (c : Char) : Bool := '0' ≤ c && c ≤ '9'

/-- `strtoul`, cut to 32 bits. -/
def pidOf (name : List Char) : UInt32 :=
  UInt32.ofNat (min ((name.takeWhile isDigit).foldl (fun n c => n * 10 + (c.toNat - 48)) 0)
    (2 ^ 64 - 1))

/-- The slot for a process: the first that is empty and has a prefix of its name. -/
def matchSlot (base : List Char) (s : ResourceSampler) : Option ℕ :=
  (List.range s.procPrefixes.length).find? fun i =>
    s.procs[i]?.any (fun e => e.pid = 0) && s.procPrefixes[i]?.any (·.isPrefixOf base)

/-- The process is taken into its slot, if there is one. -/
def takeProc (e : ProcDirEntry) (s : ResourceSampler) : Except DescriptorFault ResourceSampler := do
  if e.exe = [] then return s
  else
    match s.matchSlot (baseName e.exe) with
    | none => return s
    | some i =>
        let fds ← s.fds.openFd e.stat
        let fds ← fds.openFd e.statm
        return { s with fds := fds, procs := s.procs.set i ⟨pidOf e.name, e.stat, e.statm⟩ }

/-- The loop of `discover_procs`, which looks at no more than `maxScanPids` processes. -/
def discoverLoop : List ProcDirEntry → ℕ → ResourceSampler → Except DescriptorFault ResourceSampler
  | [], _, s => .ok s
  | e :: l, scanned, s =>
      if scanned < s.maxScanPids then
        if (e.name.head?.any isDigit) = true then do
          let s ← takeProc e s
          discoverLoop l (scanned + 1) s
        else discoverLoop l scanned s
      else .ok s

def discoverProcs (d : Option (List ProcDirEntry)) (s : ResourceSampler) :
    Except DescriptorFault ResourceSampler :=
  discoverLoop (d.getD []) 0 s

def rediscoverSlot (slot : ℕ) (d : Option (List ProcDirEntry)) (s : ResourceSampler) :
    Except DescriptorFault ResourceSampler :=
  match s.procs[slot]? with
  | none => .ok s
  | some e => if e.pid ≠ 0 then .ok s else discoverProcs d s

/-! ## The three calls -/

/-- The files are opened one after the other. -/
def openAll (rs : List ℤ) (s : ResourceSampler) : Except DescriptorFault ResourceSampler := do
  let fds ← rs.foldlM (fun w r => w.openFd r) s.fds
  return { s with fds := fds }

/-- `init`. -/
def init (procPrefixes : List (List Char)) (maxScanPids : ℕ) (calls : InitCalls)
    (s : ResourceSampler) : Except DescriptorFault ResourceSampler := do
  let s := { s with
    procPrefixes := procPrefixes, maxScanPids := maxScanPids
    procs := List.replicate procPrefixes.length .blank, started := true }
  let s ← openAll (List.ofFn calls.host) { s with fdHost := List.ofFn calls.host }
  let s ← openAll (List.ofFn calls.cpufreq) { s with fdCpufreq := List.ofFn calls.cpufreq }
  let s ← openThrottleDevs calls.thermal { s with fdThr := List.replicate 3 (-1) }
  discoverProcs calls.proc s

/-- What is left in a field that is closed. -/
def closedField (fd : ℤ) : ℤ := if 0 ≤ fd then -1 else fd

/-- The files of a slot are closed and the slot is marked for rediscovery. -/
def dropProc (slot : ℕ) (e : ProcEntry) (s : ResourceSampler) : ResourceSampler :=
  { s with
    fds := (s.fds.closeFd e.fdStat).closeFd e.fdStatm
    procs := s.procs.set slot ⟨0, closedField e.fdStat, closedField e.fdStatm⟩ }

/-- The part of `sample_once` for one slot. -/
def sampleSlot (s : ResourceSampler) (slot : ℕ) (calls : SlotCalls) :
    Except DescriptorFault ResourceSampler := do
  let s ← s.rediscoverSlot slot calls.proc
  match s.procs[slot]? with
  | none => return s
  | some e =>
      if e.pid = 0 then return s
      -- `pread_buf` reads nothing from a file that is not open
      else if 0 ≤ e.fdStat ∧ calls.statReads = true then return s
      else return s.dropProc slot e

/-- `sample_once`: the first three slots.  What is read of the host, and what is stored of a
process, changes no descriptor. -/
def sampleOnce (calls : Fin 3 → SlotCalls) (s : ResourceSampler) :
    Except DescriptorFault ResourceSampler := do
  let s ← s.sampleSlot 0 (calls 0)
  let s ← s.sampleSlot 1 (calls 1)
  s.sampleSlot 2 (calls 2)

/-- The fields that `shutdown` closes, in its order. -/
def fields (s : ResourceSampler) : List ℤ :=
  s.fdHost ++ s.fdCpufreq ++ s.fdThr ++ s.procs.flatMap fun e => [e.fdStat, e.fdStatm]

/-- `shutdown`. -/
def shutdown (s : ResourceSampler) : ResourceSampler :=
  { s with
    fds := s.fds.closeAll s.fields
    fdHost := s.fdHost.map closedField
    fdCpufreq := s.fdCpufreq.map closedField
    fdThr := s.fdThr.map closedField
    procs := s.procs.map fun e => ⟨0, closedField e.fdStat, closedField e.fdStatm⟩ }

def step (s : ResourceSampler) : SamplerEvent → Except DescriptorFault (ResourceSampler × Unit)
  | .init procPrefixes maxScanPids calls =>
      (s.init procPrefixes maxScanPids calls).map fun t => (t, ())
  | .sampleOnce calls => (s.sampleOnce calls).map fun t => (t, ())
  | .shutdown => .ok (s.shutdown, ())

end ResourceSampler

abbrev SamplerTurn := Turn ResourceSampler SamplerEvent Unit

namespace ResourceSampler

/-- Every descriptor that is closed was opened by the sampler and had not been closed, and
`shutdown` leaves none open. -/
def Sound (tr : List SamplerTurn) : Prop :=
  ∀ x ∈ tr, x.post.fds.stray = [] ∧ (x.event = .shutdown → x.post.fds.live = ∅)

/-! ## Orderly calls -/

/-- A cooling device whose `cur_state` has been opened is the last of its type. -/
def DistinctDevices (d : Option (List ThermalEntry)) : Prop :=
  (d.getD []).Pairwise fun a b =>
    wantedIndex a = none ∨ wantedIndex a ≠ wantedIndex b ∨ a.curState < 0

/-- No process has the number `0`. -/
def NumberedFromOne (d : Option (List ProcDirEntry)) : Prop :=
  ∀ e ∈ d.getD [], e.name.head?.any isDigit = true → pidOf e.name ≠ 0

/-- What a call asks of the state before it and of the host. -/
def Orderly (x : SamplerTurn) : Prop :=
  match x.event with
  | .init _ _ calls =>
      x.pre.fds.live = ∅ ∧ DistinctDevices calls.thermal ∧ NumberedFromOne calls.proc
  | .sampleOnce calls => ∀ i, NumberedFromOne (calls i).proc
  | .shutdown => x.pre.started = true ∧ .blank ∉ x.pre.procs

instance (d : Option (List ThermalEntry)) : Decidable (DistinctDevices d) :=
  inferInstanceAs (Decidable (List.Pairwise _ _))

instance (d : Option (List ProcDirEntry)) : Decidable (NumberedFromOne d) :=
  inferInstanceAs (Decidable (∀ e ∈ d.getD [], _ → _))

instance (x : SamplerTurn) : Decidable (Orderly x) :=
  match x with
  | ⟨_, .init _ _ _, _, _⟩ => inferInstanceAs (Decidable (_ ∧ _))
  | ⟨_, .sampleOnce calls, _, _⟩ =>
      inferInstanceAs (Decidable (∀ i, NumberedFromOne (calls i).proc))
  | ⟨_, .shutdown, _, _⟩ => inferInstanceAs (Decidable (_ ∧ _))

/-! ## The books of the sampler -/

/-- The descriptors of a slot. -/
def slotFds (e : ProcEntry) : List ℤ :=
  if e.pid = 0 then [] else Descriptors.held e.fdStat ++ Descriptors.held e.fdStatm

/-- The descriptors that the members of the sampler hold. -/
def owned (s : ResourceSampler) : Multiset ℤ :=
  ownedBy Descriptors.held (s.fdHost ++ s.fdCpufreq ++ s.fdThr) + ownedBy slotFds s.procs

/-- What holds of a sampler from `init` on. -/
structure Kept (s : ResourceSampler) : Prop where
  started : s.started = true
  stray : s.fds.stray = []
  books : Books s.fds.live s.owned 0
  /-- An empty slot is as it was made, or its files have been closed. -/
  slots : ∀ e ∈ s.procs, e.pid = 0 → e = .blank ∨ e.fdStat < 0 ∧ e.fdStatm < 0

/-- A sequence of calls returns when each of them does. -/
lemma sampler_bind_eq_ok {α β : Type} {x : Except DescriptorFault α}
    {f : α → Except DescriptorFault β} {b : β} :
    (x >>= f) = .ok b ↔ ∃ a, x = .ok a ∧ f a = .ok b := by
  cases x <;> simp [bind, Except.bind]

variable {s t : ResourceSampler}

lemma matchSlot_eq_some {base : List Char} {i : ℕ} (h : s.matchSlot base = some i) :
    ∃ e, s.procs[i]? = some e ∧ e.pid = 0 := by
  have hi := List.find?_some h
  rw [Bool.and_eq_true] at hi
  cases he : s.procs[i]? with
  | none => simp [he] at hi
  | some e => exact ⟨e, rfl, by simpa [he] using hi.1⟩

/-- A slot that is replaced exchanges its descriptors. -/
lemma owned_set {i : ℕ} {e : ProcEntry} (h : s.procs[i]? = some e) :
    ∃ rest : Multiset ℤ, s.owned = rest + (slotFds e : Multiset ℤ) ∧
      ∀ e' fds, owned { s with fds := fds, procs := s.procs.set i e' } =
        rest + (slotFds e' : Multiset ℤ) := by
  obtain ⟨rest, hold, hnew⟩ := ownedBy_set slotFds h
  refine ⟨ownedBy Descriptors.held (s.fdHost ++ s.fdCpufreq ++ s.fdThr) + rest, ?_, ?_⟩
  · rw [owned, hold, add_assoc]
  · intro e' fds
    rw [owned, hnew e', add_assoc]

/-- A slot that is replaced by a sound one leaves sound slots. -/
lemma slots_set {P : ProcEntry → Prop} (h : ∀ e ∈ s.procs, P e) {i : ℕ} {e' : ProcEntry}
    (he' : P e') : ∀ e ∈ s.procs.set i e', P e := by
  intro e he
  obtain hmem | rfl := List.mem_or_eq_of_mem_set he
  · exact h e hmem
  · exact he'

lemma Kept.takeProc {e : ProcDirEntry} (h : Kept s) (hpid : pidOf e.name ≠ 0)
    (ht : takeProc e s = .ok t) : Kept t := by
  unfold ResourceSampler.takeProc at ht
  split_ifs at ht with hexe
  · obtain rfl := Except.ok.inj ht
    exact h
  · split at ht
    · obtain rfl := Except.ok.inj ht
      exact h
    · rename_i i hi
      obtain ⟨old, hold, hempty⟩ := matchSlot_eq_some hi
      obtain ⟨fds₁, hstat, ht⟩ := sampler_bind_eq_ok.mp ht
      obtain ⟨fds₂, hstatm, ht⟩ := sampler_bind_eq_ok.mp ht
      obtain rfl := Except.ok.inj ht
      obtain ⟨rest, hrest, hnew⟩ := owned_set hold
      obtain ⟨hbooks₁, hstray₁⟩ := Descriptors.books_openFd h.books hstat
      obtain ⟨hbooks₂, hstray₂⟩ := Descriptors.books_openFd hbooks₁ hstatm
      refine ⟨h.started, ?_, ?_, ?_⟩
      · rw [hstray₂, hstray₁, h.stray]
      · rw [hnew, slotFds, if_neg hpid, ← Multiset.coe_add, ← add_assoc]
        rwa [hrest, slotFds, if_pos hempty, Multiset.coe_nil, add_zero] at hbooks₂
      · exact slots_set h.slots fun hzero => absurd hzero hpid

lemma Kept.discoverLoop : ∀ {l : List ProcDirEntry} {scanned : ℕ} {s : ResourceSampler}, Kept s →
    (∀ e ∈ l, e.name.head?.any isDigit = true → pidOf e.name ≠ 0) →
    discoverLoop l scanned s = .ok t → Kept t
  | [], _, s, h, _, ht => by
      obtain rfl := Except.ok.inj ht
      exact h
  | e :: l, scanned, s, h, hpid, ht => by
      rw [ResourceSampler.discoverLoop] at ht
      have hpid' : ∀ e ∈ l, e.name.head?.any isDigit = true → pidOf e.name ≠ 0 :=
        fun e he => hpid e (List.mem_cons_of_mem _ he)
      split_ifs at ht with hscan hdigit
      · obtain ⟨u, hu, ht⟩ := sampler_bind_eq_ok.mp ht
        exact Kept.discoverLoop (h.takeProc (hpid e (List.mem_cons_self ..) hdigit) hu) hpid' ht
      · exact Kept.discoverLoop h hpid' ht
      · obtain rfl := Except.ok.inj ht
        exact h

lemma closedField_neg (fd : ℤ) : closedField fd < 0 := by
  unfold closedField
  split_ifs <;> omega

lemma Kept.dropProc {slot : ℕ} {e : ProcEntry} (h : Kept s) (he : s.procs[slot]? = some e)
    (hpid : e.pid ≠ 0) : Kept (s.dropProc slot e) := by
  obtain ⟨rest, hrest, hnew⟩ := owned_set he
  have hbooks := h.books
  rw [hrest, slotFds, if_neg hpid, ← Multiset.coe_add,
    add_comm (Descriptors.held e.fdStat : Multiset ℤ), ← add_assoc] at hbooks
  obtain ⟨hbooks₁, hstray₁⟩ := Descriptors.books_closeFd hbooks
  obtain ⟨hbooks₂, hstray₂⟩ := Descriptors.books_closeFd hbooks₁
  refine ⟨h.started, ?_, ?_, ?_⟩
  · exact hstray₂.trans (hstray₁.trans h.stray)
  · rw [ResourceSampler.dropProc, hnew, slotFds, if_pos rfl, Multiset.coe_nil, add_zero]
    exact hbooks₂
  · exact slots_set h.slots fun _ => .inr ⟨closedField_neg _, closedField_neg _⟩

lemma Kept.sampleSlot {slot : ℕ} {calls : SlotCalls} (h : Kept s)
    (hpid : NumberedFromOne calls.proc) (ht : s.sampleSlot slot calls = .ok t) : Kept t := by
  unfold ResourceSampler.sampleSlot at ht
  obtain ⟨u, hu, ht⟩ := sampler_bind_eq_ok.mp ht
  have hkept : Kept u := by
    unfold rediscoverSlot at hu
    split at hu
    · obtain rfl := Except.ok.inj hu
      exact h
    · split_ifs at hu
      · obtain rfl := Except.ok.inj hu
        exact h
      · exact Kept.discoverLoop h hpid hu
  split at ht
  · obtain rfl := Except.ok.inj ht
    exact hkept
  · rename_i e he
    split_ifs at ht with hzero hread
    · obtain rfl := Except.ok.inj ht
      exact hkept
    · obtain rfl := Except.ok.inj ht
      exact hkept
    · obtain rfl := Except.ok.inj ht
      exact hkept.dropProc he hzero

lemma Kept.sampleOnce {calls : Fin 3 → SlotCalls} (h : Kept s)
    (hpid : ∀ i, NumberedFromOne (calls i).proc) (ht : s.sampleOnce calls = .ok t) : Kept t := by
  obtain ⟨u, hu, ht⟩ := sampler_bind_eq_ok.mp ht
  obtain ⟨v, hv, ht⟩ := sampler_bind_eq_ok.mp ht
  exact ((h.sampleSlot (hpid 0) hu).sampleSlot (hpid 1) hv).sampleSlot (hpid 2) ht

/-! ## Opening and closing all files -/

lemma ownedBy_held_append (l l' : List ℤ) :
    ownedBy Descriptors.held (l ++ l') =
      ownedBy Descriptors.held l + ownedBy Descriptors.held l' := by
  rw [ownedBy, List.flatMap_append, ← Multiset.coe_add, ownedBy, ownedBy]

/-- Fields without descriptors own nothing. -/
lemma ownedBy_held_eq_zero {l : List ℤ} (h : ∀ fd ∈ l, fd < 0) :
    ownedBy Descriptors.held l = 0 := by
  have hnil : l.flatMap Descriptors.held = [] :=
    List.flatMap_eq_nil_iff.mpr fun fd hfd => Descriptors.held_neg (h fd hfd)
  rw [ownedBy, hnil, Multiset.coe_nil]

/-- Empty slots own nothing. -/
lemma ownedBy_slotFds_eq_zero {l : List ProcEntry} (h : ∀ e ∈ l, e.pid = 0) :
    ownedBy slotFds l = 0 := by
  have hnil : l.flatMap slotFds = [] :=
    List.flatMap_eq_nil_iff.mpr fun e he => if_pos (h e he)
  rw [ownedBy, hnil, Multiset.coe_nil]

/-- Where no slot is as it was made, the fields of the slots hold what the slots own. -/
lemma ownedBy_slots {l : List ProcEntry}
    (h : ∀ e ∈ l, e.pid = 0 → e.fdStat < 0 ∧ e.fdStatm < 0) :
    ownedBy Descriptors.held (l.flatMap fun e => [e.fdStat, e.fdStatm]) = ownedBy slotFds l := by
  rw [ownedBy, ownedBy, List.flatMap_assoc]
  congr 1
  apply List.flatMap_congr
  intro e he
  by_cases hpid : e.pid = 0
  · obtain ⟨hstat, hstatm⟩ := h e he hpid
    simp [slotFds, hpid, hstat, hstatm]
  · simp [slotFds, hpid]

/-- **Shutdown.**  All descriptors are closed, and nothing else, if every slot has been filled. -/
lemma Kept.shutdown (h : Kept s) (hblank : .blank ∉ s.procs) :
    Kept s.shutdown ∧ s.shutdown.fds.live = ∅ := by
  have hslots : ∀ e ∈ s.procs, e.pid = 0 → e.fdStat < 0 ∧ e.fdStatm < 0 := by
    intro e he hpid
    obtain rfl | hneg := h.slots e he hpid
    · exact absurd he hblank
    · exact hneg
  have hbooks : Books s.fds.live (ownedBy Descriptors.held s.fields) 0 := by
    have howned := h.books
    rw [owned] at howned
    rwa [fields, ownedBy_held_append, ownedBy_slots hslots]
  obtain ⟨hstray, hlive⟩ := Descriptors.closeAll_iff.mpr ⟨h.stray, hbooks⟩
  refine ⟨⟨h.started, hstray, ?_, ?_⟩, hlive⟩
  · have hfields : ∀ fd ∈ s.shutdown.fdHost ++ s.shutdown.fdCpufreq ++ s.shutdown.fdThr,
        fd < 0 := by
      intro fd hfd
      simp only [ResourceSampler.shutdown, List.mem_append, List.mem_map] at hfd
      obtain (⟨fd', -, rfl⟩ | ⟨fd', -, rfl⟩) | ⟨fd', -, rfl⟩ := hfd <;> exact closedField_neg fd'
    have hprocs : ∀ e ∈ s.shutdown.procs, e.pid = 0 := by
      intro e he
      obtain ⟨e', -, rfl⟩ := List.mem_map.mp he
      rfl
    have hlive' : s.shutdown.fds.live = ∅ := hlive
    rw [hlive', owned, ownedBy_held_eq_zero hfields, ownedBy_slotFds_eq_zero hprocs]
    exact Books.empty
  · intro e he _
    obtain ⟨e', -, rfl⟩ := List.mem_map.mp he
    exact .inr ⟨closedField_neg _, closedField_neg _⟩

/-- A slot that is as it was made is closed like the others: descriptor `0` twice. -/
lemma not_sound_of_blank (hblank : .blank ∈ s.procs) :
    ¬ (s.shutdown.fds.stray = [] ∧ s.shutdown.fds.live = ∅) := by
  intro hsound
  have hbooks := (Descriptors.closeAll_iff.mp hsound).2
  obtain ⟨front, rest, hprocs⟩ := List.append_of_mem hblank
  have hnodup : (ownedBy Descriptors.held s.fields).Nodup := by
    have hadd := hbooks.nodup
    rwa [add_zero] at hadd
  have htwice : ownedBy Descriptors.held
      (ProcEntry.blank :: rest |>.flatMap fun e => [e.fdStat, e.fdStatm]) =
      0 ::ₘ 0 ::ₘ ownedBy Descriptors.held (rest.flatMap fun e => [e.fdStat, e.fdStatm]) := rfl
  rw [fields, ownedBy_held_append, hprocs, List.flatMap_append,
    ownedBy_held_append (front.flatMap _), htwice] at hnodup
  have hlast := (Multiset.nodup_add.mp (Multiset.nodup_add.mp hnodup).2.1).2.1
  exact (Multiset.nodup_cons.mp hlast).1 (Multiset.mem_cons_self _ _)

lemma books_openAll {rs : List ℤ} {more : Multiset ℤ} (ht : openAll rs s = .ok t)
    (h : Books s.fds.live more 0) :
    Books t.fds.live (more + ownedBy Descriptors.held rs) 0 ∧ t = { s with fds := t.fds } ∧
      t.fds.stray = s.fds.stray := by
  obtain ⟨fds, hfds, ht⟩ := sampler_bind_eq_ok.mp ht
  obtain rfl := Except.ok.inj ht
  obtain ⟨hbooks, hstray⟩ := Descriptors.books_openAll h hfds
  exact ⟨hbooks, rfl, hstray⟩

/-- The descriptor of a cooling device is stored in a field that holds none. -/
lemma Kept.openThrottleDev {e : ThermalEntry} (h : Kept s)
    (hempty : ∀ i, wantedIndex e = some i → ∃ fd, s.fdThr[i]? = some fd ∧ fd < 0)
    (ht : openThrottleDev s e = .ok t) :
    Kept t ∧ ((wantedIndex e = none ∧ t.fdThr = s.fdThr) ∨
      ∃ i, wantedIndex e = some i ∧ t.fdThr = s.fdThr.set i e.curState) := by
  unfold ResourceSampler.openThrottleDev at ht
  split_ifs at ht with hname
  · obtain ⟨fds, hopen, ht⟩ := sampler_bind_eq_ok.mp ht
    obtain ⟨hbooks₁, hstray₁⟩ := Descriptors.books_openFd h.books hopen
    obtain ⟨hbooks₂, hstray₂⟩ := Descriptors.books_closeFd hbooks₁
    have hstray : (fds.closeFd e.typeFd).stray = [] := hstray₂.trans (hstray₁.trans h.stray)
    cases hi : wantedIndex e with
    | none =>
        rw [hi] at ht
        obtain rfl := Except.ok.inj ht
        exact ⟨⟨h.started, hstray, hbooks₂, h.slots⟩, .inl ⟨rfl, rfl⟩⟩
    | some i =>
        rw [hi] at ht
        obtain ⟨fds', hopen', ht⟩ := sampler_bind_eq_ok.mp ht
        obtain rfl := Except.ok.inj ht
        obtain ⟨hbooks₃, hstray₃⟩ := Descriptors.books_openFd hbooks₂ hopen'
        obtain ⟨fd, hfd, hneg⟩ := hempty i hi
        obtain ⟨rest, hold, hnew⟩ := ownedBy_set Descriptors.held hfd
        refine ⟨⟨h.started, hstray₃.trans hstray, ?_, h.slots⟩, .inr ⟨i, rfl, rfl⟩⟩
        rw [Descriptors.held_neg hneg, Multiset.coe_nil, add_zero] at hold
        rw [owned, ownedBy_held_append, hold] at hbooks₃
        rw [owned, ownedBy_held_append, hnew e.curState]
        convert hbooks₃ using 1
        abel
  · obtain rfl := Except.ok.inj ht
    have hnone : wantedIndex e = none := if_neg fun h => hname h.1
    exact ⟨h, .inl ⟨hnone, rfl⟩⟩

lemma Kept.openThrottleDevs {d : Option (List ThermalEntry)} (h : Kept s)
    (hdistinct : DistinctDevices d) (hthr : s.fdThr = List.replicate 3 (-1))
    (ht : openThrottleDevs d s = .ok t) : Kept t := by
  -- the fields of the devices still to come hold no descriptor
  refine (foldlM_rule
    (P := fun (l : List ThermalEntry) (s : ResourceSampler) => Kept s ∧
      (l.Pairwise fun a b => wantedIndex a = none ∨ wantedIndex a ≠ wantedIndex b ∨
        a.curState < 0) ∧
      ∀ e ∈ l, ∀ i, wantedIndex e = some i → ∃ fd, s.fdThr[i]? = some fd ∧ fd < 0)
    ?_ ht ⟨h, hdistinct, ?_⟩).1
  · rintro e l u v ⟨hu, hpair, hempty⟩ huv
    obtain ⟨hhead, htail⟩ := List.pairwise_cons.mp hpair
    obtain ⟨hv, hthr'⟩ := hu.openThrottleDev (hempty e (List.mem_cons_self ..)) huv
    refine ⟨hv, htail, fun e' he' j hj => ?_⟩
    obtain ⟨fd, hfd, hneg⟩ := hempty e' (List.mem_cons_of_mem _ he') j hj
    obtain ⟨-, hsame⟩ | ⟨i, hi, hset⟩ := hthr'
    · exact ⟨fd, hsame ▸ hfd, hneg⟩
    · rw [hset]
      by_cases hij : i = j
      · subst hij
        have hlt := (List.getElem?_eq_some_iff.mp hfd).1
        refine ⟨e.curState, List.getElem?_set_self hlt, ?_⟩
        obtain hnone | hne | hneg' := hhead e' he'
        · rw [hi] at hnone
          cases hnone
        · exact absurd (hi.trans hj.symm) hne
        · exact hneg'
      · exact ⟨fd, by rwa [List.getElem?_set_ne hij], hneg⟩
  · intro e _ i hi
    have hlt : i < 3 := by
      unfold wantedIndex at hi
      split_ifs at hi
      exact (List.findIdx?_eq_some_iff_getElem.mp hi).1
    refine ⟨-1, ?_, by omega⟩
    rw [hthr, List.getElem?_replicate, if_pos hlt]

/-- **Init.**  A sampler without descriptors has its books in order after `init`. -/
lemma kept_init {procPrefixes : List (List Char)} {maxScanPids : ℕ} {calls : InitCalls}
    (hstray : s.fds.stray = []) (hlive : s.fds.live = ∅) (hdistinct : DistinctDevices calls.thermal)
    (hpid : NumberedFromOne calls.proc) (ht : s.init procPrefixes maxScanPids calls = .ok t) :
    Kept t := by
  obtain ⟨u, hu, ht⟩ := sampler_bind_eq_ok.mp ht
  obtain ⟨v, hv, ht⟩ := sampler_bind_eq_ok.mp ht
  obtain ⟨w, hw, ht⟩ := sampler_bind_eq_ok.mp ht
  have hempty : Books s.fds.live 0 0 := by
    rw [hlive]
    exact Books.empty
  obtain ⟨hbooks₁, hu', hstray₁⟩ := books_openAll hu hempty
  obtain ⟨hbooks₂, hv', hstray₂⟩ := books_openAll hv hbooks₁
  have hkept : Kept { v with fdThr := List.replicate 3 (-1) } := by
    refine ⟨?_, hstray₂.trans (hstray₁.trans hstray), ?_, ?_⟩
    · rw [hv', hu']
    · have hthr : ownedBy Descriptors.held (List.replicate 3 (-1)) = 0 := rfl
      have hslots : ownedBy slotFds (List.replicate procPrefixes.length .blank) = 0 :=
        ownedBy_slotFds_eq_zero fun e he => by
          rw [List.eq_of_mem_replicate he]
          rfl
      have howned : owned { v with fdThr := List.replicate 3 (-1) } =
          0 + ownedBy Descriptors.held (List.ofFn calls.host) +
            ownedBy Descriptors.held (List.ofFn calls.cpufreq) := by
        rw [hv', hu', owned]
        dsimp only
        rw [ownedBy_held_append, ownedBy_held_append, hthr, hslots]
        abel
      rw [howned]
      exact hbooks₂
    · intro e he _
      rw [hv', hu'] at he
      exact .inl (List.eq_of_mem_replicate he)
  exact Kept.discoverLoop (hkept.openThrottleDevs hdistinct rfl hw) hpid ht

/-! ## Runs -/

/-- A sampler that has not been initialised has no descriptors and no slots. -/
def Untouched (s : ResourceSampler) : Prop := s.fds = ⟨∅, []⟩ ∧ s.procs = [] ∧ s.started = false

/-- Without slots a sample leaves the sampler alone. -/
lemma sampleOnce_of_procs_eq_nil {calls : Fin 3 → SlotCalls} (h : s.procs = []) :
    s.sampleOnce calls = .ok s := by
  have hslot : ∀ slot calls, s.sampleSlot slot calls = .ok s := by
    intro slot calls
    simp [sampleSlot, rediscoverSlot, h, bind, Except.bind, pure, Except.pure]
  simp [sampleOnce, hslot, bind, Except.bind]

/-- **Step lemma.** -/
lemma kept_step {e : SamplerEvent} {o : Unit} (h : Untouched s ∨ Kept s)
    (hstep : step s e = .ok (t, o)) (horderly : Orderly ⟨s, e, o, t⟩) :
    (Untouched t ∨ Kept t) ∧ (e = .shutdown → t.fds.live = ∅) := by
  have hstray : s.fds.stray = [] := by
    obtain h | h := h
    · rw [h.1]
    · exact h.stray
  cases e with
  | init procPrefixes maxScanPids calls =>
      obtain ⟨hlive, hdistinct, hpid⟩ := horderly
      cases hinit : s.init procPrefixes maxScanPids calls with
      | error f => simp [step, hinit, Except.map] at hstep
      | ok u =>
          obtain rfl : u = t := by simpa [step, hinit, Except.map] using hstep
          exact ⟨.inr (kept_init hstray hlive hdistinct hpid hinit), fun he => by cases he⟩
  | sampleOnce calls =>
      refine ⟨?_, fun he => by cases he⟩
      cases hsample : s.sampleOnce calls with
      | error f => simp [step, hsample, Except.map] at hstep
      | ok u =>
          obtain rfl : u = t := by simpa [step, hsample, Except.map] using hstep
          obtain h | h := h
          · rw [sampleOnce_of_procs_eq_nil h.2.1] at hsample
            obtain rfl := Except.ok.inj hsample
            exact .inl h
          · exact .inr (h.sampleOnce horderly hsample)
  | shutdown =>
      obtain rfl : s.shutdown = t := by simpa [step] using hstep
      obtain ⟨hstarted, hblank⟩ := horderly
      obtain h | h := h
      · rw [h.2.2] at hstarted
        cases hstarted
      · exact ⟨.inr (h.shutdown hblank).1, fun _ => (h.shutdown hblank).2⟩

/-- **Descriptors of the sampler.**  Orderly runs close what they opened, once each, and nothing
else; no run does whose `shutdown` finds a slot that was never filled. -/
theorem sound_of_orderly {tr : List SamplerTurn} (h : Exec step initial tr t) :
    ((∀ x ∈ tr, Orderly x) → Sound tr) ∧
      (Sound tr → ∀ x ∈ tr, x.event = .shutdown → .blank ∉ x.pre.procs) := by
  constructor
  · intro horderly x hx
    have hinv := h.invariant (C := Orderly) (I := fun s => Untouched s ∨ Kept s)
      (.inl ⟨rfl, rfl, rfl⟩) (fun _ hy ho hI => (kept_step hI hy ho).1) horderly
    obtain ⟨hpre, hpost⟩ := hinv.2 x hx
    refine ⟨?_, (kept_step hpre (h.taken x hx) (horderly x hx)).2⟩
    obtain hpost | hpost := hpost
    · rw [hpost.1]
    · exact hpost.stray
  · intro hsound x hx he hblank
    have hstep : step x.pre x.event = .ok (x.post, x.obs) := h.taken x hx
    rw [he] at hstep
    have hpost : x.pre.shutdown = x.post := by simpa [step] using hstep
    have hall := hsound x hx
    rw [← hpost] at hall
    exact not_sound_of_blank hblank ⟨hall.1, hall.2 he⟩

/-- The files of the host are found, with one cooling device, and no process is. -/
def hostOnly : InitCalls where
  host := fun i => 3 + i
  cpufreq := fun i => 10 + i
  thermal := some [⟨"cooling_device0".toList, 18, "cpufreq-cpu4\n".toList, 18⟩]
  proc := none

/-- A sample that finds the process `pid`, if it looks for one. -/
def findProc (pid : List Char) (statReads : Bool) : Fin 3 → SlotCalls := fun _ =>
  ⟨some [⟨"self".toList, [], 19, 20⟩, ⟨pid, "/opt/ros/fastlivo_mapping".toList, 19, 20⟩], statReads⟩

/-- A process is found, dies, and is found again. -/
def restartedProc : List SamplerEvent :=
  [.init ["fastlivo".toList] 4096 hostOnly, .sampleOnce (findProc "412".toList true),
    .sampleOnce (findProc "412".toList false), .sampleOnce (findProc "413".toList true), .shutdown]

/-- All five calls are made, and every descriptor is closed once. -/
theorem restartedProc_sound : (trace step restartedProc initial).1.length = 5 ∧
    Sound (trace step restartedProc initial).1 :=
  ⟨by decide +kernel,
    (sound_of_orderly (Exec.of_trace restartedProc initial)).1 (by decide +kernel)⟩

/-- The process is never found. -/
def missingProc : List SamplerEvent := [.init ["fastlivo".toList] 4096 hostOnly, .shutdown]

/-- Descriptor `0` is closed twice, and was not opened by the sampler. -/
theorem missingProc_closes_stdin :
    Exec step initial (trace step missingProc initial).1 (trace step missingProc initial).2 ∧
    (trace step missingProc initial).2.fds.stray = [0, 0] ∧
    ¬ Sound (trace step missingProc initial).1 := by
  have hstray : (trace step missingProc initial).2.fds.stray = [0, 0] := by decide +kernel
  refine ⟨Exec.of_trace _ _, hstray, fun h => ?_⟩
  have hlast := (h ((trace step missingProc initial).1.get ⟨1, by decide +kernel⟩)
    (List.get_mem _ _)).1
  exact absurd hlast (by decide +kernel)

end ResourceSampler

end FastLivo2
