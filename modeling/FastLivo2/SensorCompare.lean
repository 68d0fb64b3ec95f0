import FastLivo2.BlackBox
import FastLivo2.CaptureStamps
import FastLivo2.Lib.KeyMatch
import Mathlib.Data.Rat.Floor

/-!
# The comparison of publisher and subscriber

`analyze_sensor_compare.py` matches the recording of a publisher with that of a subscriber by the
stamps of the messages.  It puts the records of either side into a dictionary by stamp, where the
last record with a stamp replaces the others, and counts and plots what the dictionaries hold.

Nothing makes the stamps unique, and an image record is in the file before it is complete.
-/

namespace FastLivo2

/-- `LidarPubRecord`, `ImuPubRecord`. -/
structure PubRecord where
  seq : UInt64
  headerStamp : UInt64
  tPubNs : UInt64
  deriving DecidableEq, Repr, Inhabited

/-- The fields of a publisher record that the comparison reads, and whether the record is
complete. -/
structure PubFormat (ρ : Type) where
  seq : ρ → UInt64
  headerStamp : ρ → UInt64
  tPubNs : ρ → UInt64
  completed : ρ → Bool

/-- A record of 24 bytes is written at once. -/
def pub24 : PubFormat PubRecord where
  seq := PubRecord.seq
  headerStamp := PubRecord.headerStamp
  tPubNs := PubRecord.tPubNs
  completed _ := true

def pubImage48 : PubFormat ImagePubRecord where
  seq := ImagePubRecord.seq
  headerStamp := ImagePubRecord.headerStamp
  tPubNs := ImagePubRecord.tPubNs
  completed r := r.rosDone == 1

namespace SensorCompare

/-- `load`: the records that have been written, if there are any. -/
def load {ρ : Type} (seq : ρ → UInt64) (file : Option (List ρ)) : Option (List ρ) :=
  match file with
  | none => none
  | some arr =>
    let written := arr.filter fun r => 0 < seq r
    if written.length = 0 then none else some written

variable {ρ : Type}

/-- The dictionary of a recording: the position of the last record with a stamp. -/
def stampSet (stamps : List UInt64) (s : UInt64) : Option ℕ :=
  (stamps.zipIdx.reverse.find? fun x => x.1 == s).map Prod.snd

/-- `sorted(set(pub_set) & set(sub_set))`. -/
def common (pub sub : List UInt64) : List UInt64 :=
  (pub.dedup.filter fun s => s ∈ sub).mergeSort

/-- A message that is plotted: the positions of the two records that its latency is of. -/
structure Match where
  pub : ℕ
  sub : ℕ
  deriving DecidableEq, Repr

/-- The records looked up for a stamp. -/
def pairAt (pub sub : List UInt64) (s : UInt64) : Option Match :=
  match stampSet pub s, stampSet sub s with
  | some i, some j => some ⟨i, j⟩
  | _, _ => none

def pairs (pub sub : List UInt64) : List Match := (common pub sub).filterMap (pairAt pub sub)

/-! ## The plot -/

/-- The centers of the windows: `np.arange(first + window / 2, last, window / 2)`. -/
def windowCenters (first last window : ℚ) : List ℚ :=
  (List.range ⌈(last - (first + window / 2)) / (window / 2)⌉.toNat).map fun k =>
    first + window / 2 + k * (window / 2)

/-- The times in a window. -/
def inWindow (window center : ℚ) (times : List ℚ) : ℕ :=
  times.countP fun t => center - window / 2 ≤ t ∧ t < center + window / 2

/-- The drop rate of a window in percent. -/
def dropRate (tPub tMatch : List ℚ) (window center : ℚ) : ℚ :=
  let nPub : ℚ := inWindow window center tPub
  let nMatch : ℚ := inWindow window center tMatch
  if 0 < nPub then (nPub - nMatch) / nPub * 100 else 0

/-- `rolling_drop_rate`: the centers with their rates. -/
def rollingDropRate (tPub tMatch : List ℚ) (window : ℚ) : List (ℚ × ℚ) :=
  match tPub with
  | [] => []
  | first :: _ => (windowCenters first (tPub.getLastD 0) window).map fun c =>
      (c, dropRate tPub tMatch window c)

/-- What is plotted of a stream. -/
structure CmpPlot where
  tMatchS : List ℚ
  latMs : List ℚ
  dropRate : List (ℚ × ℚ)
  tFirstSubS : ℚ
  tLastSubS : ℚ
  deriving DecidableEq, Repr

/-- Nanoseconds from a first stamp, in seconds. -/
def sinceS (t t0 : UInt64) : ℚ := ((t.toNat : ℚ) - t0.toNat) / 1000000000

/-- The latency of a match in milliseconds. -/
def latencyMs [Inhabited ρ] (fmt : PubFormat ρ) (pub : List ρ) (sub : List SubRecord) (m : Match) :
    ℚ :=
  (((sub.getD m.sub default).tCbkNs.toNat : ℚ) - (fmt.tPubNs (pub.getD m.pub default)).toNat) /
    1000000

/-- `cmp_plot`; nothing is plotted if there is no match. -/
def cmpPlot [Inhabited ρ] (fmt : PubFormat ρ) (window : ℚ) (pub : List ρ) (sub : List SubRecord)
    (ms : List Match) : Option CmpPlot :=
  if ms = [] then none
  else
    let t0 := fmt.tPubNs (pub.getD 0 default)
    let tMatch := ms.map fun m => sinceS (fmt.tPubNs (pub.getD m.pub default)) t0
    some
      { tMatchS := tMatch
        latMs := ms.map (latencyMs fmt pub sub)
        dropRate := rollingDropRate (pub.map fun r => sinceS (fmt.tPubNs r) t0) tMatch window
        tFirstSubS := sinceS (sub.getD 0 default).tCbkNs t0
        tLastSubS := sinceS (sub.getLastD default).tCbkNs t0 }

/-! ## The comparison -/

/-- What `compare` prints and plots. -/
structure Report where
  pub : ℕ
  matched : ℕ
  drop : ℕ
  dropPct : ℚ
  subOnly : ℕ
  /-- The records of the latencies (ghost data). -/
  pairs : List Match
  plot : Option CmpPlot
  deriving DecidableEq, Repr

/-- `compare` on two recordings that have been loaded. -/
def compareLoaded [Inhabited ρ] (fmt : PubFormat ρ) (window : ℚ) (pub : List ρ)
    (sub : List SubRecord) : Report :=
  let pubStamps := pub.map fmt.headerStamp
  let subStamps := sub.map SubRecord.headerStamp
  let pubSet := pubStamps.dedup.length
  let subSet := subStamps.dedup.length
  let matched := (common pubStamps subStamps).length
  { pub := pubSet
    matched := matched
    drop := pubSet - matched
    dropPct := (pubSet - matched : ℕ) / (max pubSet 1 : ℕ) * 100
    subOnly := subSet - matched
    pairs := pairs pubStamps subStamps
    plot := cmpPlot fmt window pub sub (pairs pubStamps subStamps) }

/-- `compare` of a stream. -/
def compare [Inhabited ρ] (fmt : PubFormat ρ) (window : ℚ) (pubFile : Option (List ρ))
    (subFile : Option (List SubRecord)) : Option Report := do
  let pub ← load fmt.seq pubFile
  let sub ← load SubRecord.seq subFile
  return compareLoaded fmt window pub sub

/-! ## What is counted -/

/-- The position of the last record with a stamp. -/
def LastAt (stamps : List UInt64) (s : UInt64) (i : ℕ) : Prop :=
  stamps[i]? = some s ∧ ∀ k > i, stamps[k]? ≠ some s

lemma stampSet_append_singleton (stamps : List UInt64) (t s : UInt64) :
    stampSet (stamps ++ [t]) s = if t = s then some stamps.length else stampSet stamps s := by
  unfold stampSet
  rw [List.zipIdx_append, List.reverse_append]
  by_cases hts : t = s
  · simp [hts]
  · simp [hts]

lemma lastAt_append_self {stamps : List UInt64} {s : UInt64} {i : ℕ} :
    LastAt (stamps ++ [s]) s i ↔ i = stamps.length := by
  constructor
  · rintro ⟨hi, hlast⟩
    have hlt := (List.getElem?_eq_some_iff.mp hi).1
    rw [List.length_append, List.length_singleton] at hlt
    by_contra hne
    exact hlast stamps.length (by omega) List.getElem?_concat_length
  · rintro rfl
    refine ⟨List.getElem?_concat_length, fun k hk hsome => ?_⟩
    have hlt := (List.getElem?_eq_some_iff.mp hsome).1
    rw [List.length_append, List.length_singleton] at hlt
    omega

lemma lastAt_append_of_ne {stamps : List UInt64} {t s : UInt64} {i : ℕ} (hts : t ≠ s) :
    LastAt (stamps ++ [t]) s i ↔ LastAt stamps s i := by
  have hsame : ∀ k : ℕ, (stamps ++ [t])[k]? = some s ↔ stamps[k]? = some s := by
    intro k
    rcases Nat.lt_trichotomy k stamps.length with hlt | rfl | hgt
    · rw [List.getElem?_append_left hlt]
    · simp [hts]
    · rw [List.getElem?_eq_none (by simpa using hgt), List.getElem?_eq_none (by omega)]
  unfold LastAt
  simp only [hsame, ne_eq]

/-- The dictionary holds the last record with a stamp. -/
lemma stampSet_eq_some_iff {stamps : List UInt64} {s : UInt64} {i : ℕ} :
    stampSet stamps s = some i ↔ LastAt stamps s i := by
  induction stamps using List.reverseRecOn with
  | nil => simp [stampSet, LastAt]
  | append_singleton stamps t ih =>
    rw [stampSet_append_singleton]
    by_cases hts : t = s
    · rw [if_pos hts, hts, lastAt_append_self, Option.some_inj, eq_comm]
    · rw [if_neg hts, lastAt_append_of_ne hts, ih]

lemma LastAt.mem {stamps : List UInt64} {s : UInt64} {i : ℕ} (h : LastAt stamps s i) : s ∈ stamps :=
  List.mem_of_getElem? h.1

lemma mem_common {pub sub : List UInt64} {s : UInt64} :
    s ∈ common pub sub ↔ s ∈ pub ∧ s ∈ sub := by
  simp [common]

/-- The printed drops are the stamps that were not received. -/
lemma drop_eq_card_absent (pub sub : List UInt64) :
    pub.dedup.length - (common pub sub).length = (KeyMatch.absent pub sub).card := by
  have hcommon : (common pub sub).length = (pub.dedup.filter fun s => s ∈ sub).length :=
    List.length_mergeSort _
  have habsent : (KeyMatch.absent pub sub).card = (pub.dedup.filter fun s => s ∉ sub).length := rfl
  have hsplit := List.length_eq_length_filter_add (l := pub.dedup) (fun s => decide (s ∈ sub))
  rw [hcommon, habsent, hsplit]
  simp

lemma pairAt_eq_some_iff {pub sub : List UInt64} {s : UInt64} {m : Match} :
    pairAt pub sub s = some m ↔ LastAt pub s m.pub ∧ LastAt sub s m.sub := by
  rw [← stampSet_eq_some_iff, ← stampSet_eq_some_iff]
  unfold pairAt
  cases stampSet pub s with
  | none => simp
  | some i =>
    cases stampSet sub s with
    | none => simp
    | some j =>
      obtain ⟨p, q⟩ := m
      simp

/-- The pairs are the last records of the stamps that both have. -/
lemma mem_pairs {pub sub : List UInt64} {m : Match} :
    m ∈ pairs pub sub ↔ ∃ s, LastAt pub s m.pub ∧ LastAt sub s m.sub := by
  unfold pairs
  rw [List.mem_filterMap]
  constructor
  · rintro ⟨s, -, hs⟩
    exact ⟨s, pairAt_eq_some_iff.mp hs⟩
  · rintro ⟨s, hs⟩
    exact ⟨s, mem_common.mpr ⟨hs.1.mem, hs.2.mem⟩, pairAt_eq_some_iff.mpr hs⟩

/-! ## The drop rate -/

lemma nodup_common (pub sub : List UInt64) : (common pub sub).Nodup :=
  (List.mergeSort_perm _ _).nodup_iff.mpr ((List.nodup_dedup pub).filter _)

/-- A position is of one stamp. -/
lemma LastAt.stamp_unique {stamps : List UInt64} {s t : UInt64} {i : ℕ} (hs : LastAt stamps s i)
    (ht : LastAt stamps t i) : s = t := Option.some.inj (hs.1.symm.trans ht.1)

lemma LastAt.index_unique {stamps : List UInt64} {s : UInt64} {i j : ℕ} (hi : LastAt stamps s i)
    (hj : LastAt stamps s j) : i = j :=
  Option.some.inj ((stampSet_eq_some_iff.mpr hi).symm.trans (stampSet_eq_some_iff.mpr hj))

/-- No publisher record is looked up twice. -/
lemma nodup_pairs_pub (pub sub : List UInt64) : ((pairs pub sub).map Match.pub).Nodup := by
  have hinj : ∀ m ∈ pairs pub sub, ∀ n ∈ pairs pub sub, m.pub = n.pub → m = n := by
    rintro ⟨i, j⟩ hm ⟨i', j'⟩ hn (rfl : i = i')
    obtain ⟨s, hi, hj⟩ := mem_pairs.mp hm
    obtain ⟨t, hi', hj'⟩ := mem_pairs.mp hn
    obtain rfl := hi.stamp_unique hi'
    exact congrArg (Match.mk i) (hj.index_unique hj')
  refine List.Nodup.map_on hinj ((nodup_common pub sub).filterMap fun s t m hs ht => ?_)
  exact (pairAt_eq_some_iff.mp hs).1.stamp_unique (pairAt_eq_some_iff.mp ht).1

lemma pairs_pub_subset (pub sub : List UInt64) :
    (pairs pub sub).map Match.pub ⊆ List.range pub.length := by
  intro i hi
  obtain ⟨m, hm, rfl⟩ := List.mem_map.mp hi
  obtain ⟨s, hs, -⟩ := mem_pairs.mp hm
  exact List.mem_range.mpr (List.getElem?_eq_some_iff.mp hs.1).1

lemma map_eq_map_range [Inhabited ρ] (f : ρ → ℚ) (l : List ρ) :
    l.map f = (List.range l.length).map fun i => f (l.getD i default) := by
  refine List.ext_getElem (by simp) fun i hi hi' => ?_
  rw [List.length_map] at hi
  simp [hi]

/-- The times of the matches are times of records. -/
lemma matchTimes_subperm [Inhabited ρ] (fmt : PubFormat ρ) (pub : List ρ) (sub : List SubRecord)
    (time : ρ → ℚ) :
    ((pairs (pub.map fmt.headerStamp) (sub.map SubRecord.headerStamp)).map fun m =>
      time (pub.getD m.pub default)).Subperm (pub.map time) := by
  have hsubset := pairs_pub_subset (pub.map fmt.headerStamp) (sub.map SubRecord.headerStamp)
  rw [List.length_map] at hsubset
  obtain ⟨l, hperm, hl⟩ := (nodup_pairs_pub _ _).subperm hsubset
  rw [map_eq_map_range time pub]
  refine ⟨l.map fun i => time (pub.getD i default), ?_, hl.map _⟩
  have hmap := hperm.map fun i => time (pub.getD i default)
  rwa [List.map_map] at hmap

lemma snd_of_mem_rollingDropRate {tPub tMatch : List ℚ} {window : ℚ} {x : ℚ × ℚ}
    (hx : x ∈ rollingDropRate tPub tMatch window) : ∃ c, dropRate tPub tMatch window c = x.2 := by
  cases tPub with
  | nil => exact absurd hx List.not_mem_nil
  | cons first rest =>
    obtain ⟨c, -, rfl⟩ := List.mem_map.mp hx
    exact ⟨c, rfl⟩

/-- A window has at most as many matches as records. -/
lemma dropRate_mem {tPub tMatch : List ℚ} (h : tMatch.Subperm tPub) (window center : ℚ) :
    0 ≤ dropRate tPub tMatch window center ∧ dropRate tPub tMatch window center ≤ 100 := by
  have hle : (inWindow window center tMatch : ℚ) ≤ inWindow window center tPub :=
    Nat.cast_le.mpr (h.countP_le _)
  have hnonneg : (0 : ℚ) ≤ inWindow window center tMatch := Nat.cast_nonneg _
  simp only [dropRate]
  split
  case isTrue hpos =>
    constructor
    · have := sub_nonneg.mpr hle
      positivity
    · rw [div_mul_eq_mul_div, div_le_iff₀ hpos]
      linarith
  case isFalse => norm_num

/-- **The drop rate.**  Every rate that is plotted is a percentage. -/
theorem cmpPlot_dropRate_mem [Inhabited ρ] (fmt : PubFormat ρ) (window : ℚ) (pub : List ρ)
    (sub : List SubRecord) :
    ∀ plot ∈ (compareLoaded fmt window pub sub).plot, ∀ x ∈ plot.dropRate, 0 ≤ x.2 ∧ x.2 ≤ 100 := by
  intro plot hplot x hx
  have hms : pairs (pub.map fmt.headerStamp) (sub.map SubRecord.headerStamp) ≠ [] := by
    intro hnil
    simp [compareLoaded, cmpPlot, hnil] at hplot
  simp only [compareLoaded, cmpPlot, if_neg hms, Option.mem_some_iff] at hplot
  subst hplot
  obtain ⟨c, hc⟩ := snd_of_mem_rollingDropRate hx
  rw [← hc]
  apply dropRate_mem
  exact matchTimes_subperm fmt pub sub fun r =>
    sinceS (fmt.tPubNs r) (fmt.tPubNs (pub.getD 0 default))

/-! ## Right reports -/

/-- The stamps of the complete records. -/
def completedStamps (fmt : PubFormat ρ) (pub : List ρ) : List UInt64 :=
  (pub.filter fmt.completed).map fmt.headerStamp

lemma completedStamps_subset (fmt : PubFormat ρ) (pub : List ρ) :
    ∀ s ∈ completedStamps fmt pub, s ∈ pub.map fmt.headerStamp :=
  fun _ hs => List.map_subset _ (List.filter_subset_self _) hs

variable {μ : Type}

/-- The stamps that only records without completion have and nobody received are as many as the
complete records that their stamps do not account for; and the last records with a stamp are of one
message. -/
def Balanced (fmt : PubFormat ρ) (published received : ℕ → μ) (pub : List ρ)
    (sub : List SubRecord) : Prop :=
  let pubStamps := pub.map fmt.headerStamp
  let subStamps := sub.map SubRecord.headerStamp
  (KeyMatch.void pubStamps (completedStamps fmt pub) subStamps).card =
      ∑ s ∈ pubStamps.toFinset, KeyMatch.missed (completedStamps fmt pub) subStamps s ∧
    ∀ s i j, LastAt pubStamps s i → LastAt subStamps s j → received j = published i

/-- Complete records with stamps of their own are counted. -/
theorem balanced_of_nodup {fmt : PubFormat ρ} {published received : ℕ → μ} {pub : List ρ}
    {sub : List SubRecord} (hnodup : (pub.map fmt.headerStamp).Nodup)
    (hdone : ∀ r ∈ pub, fmt.completed r = true)
    (hreceived : ∀ (i j : ℕ), ∀ r ∈ pub[i]?, ∀ q ∈ sub[j]?, q.headerStamp = fmt.headerStamp r →
      received j = published i) :
    Balanced fmt published received pub sub := by
  have hstamps : completedStamps fmt pub = pub.map fmt.headerStamp := by
    unfold completedStamps
    rw [List.filter_eq_self.mpr hdone]
  unfold Balanced
  rw [hstamps]
  refine ⟨?_, fun s i j hi hj => ?_⟩
  · have hvoid : KeyMatch.void (pub.map fmt.headerStamp) (pub.map fmt.headerStamp)
        (sub.map SubRecord.headerStamp) = ∅ := by
      refine Finset.filter_eq_empty_iff.mpr fun s hs hnot => ?_
      exact List.count_eq_zero.mp hnot.2 (List.mem_toFinset.mp hs)
    rw [hvoid, Finset.card_empty]
    refine (Finset.sum_eq_zero fun s hs => ?_).symm
    have hone := List.count_eq_one_of_mem hnodup (List.mem_toFinset.mp hs)
    unfold KeyMatch.missed
    split
    · have hpos := List.count_pos_iff.mpr ‹s ∈ sub.map SubRecord.headerStamp›
      omega
    · omega
  · have hpub := hi.1
    have hsub := hj.1
    rw [List.getElem?_map, Option.map_eq_some_iff] at hpub hsub
    obtain ⟨r, hr, hrs⟩ := hpub
    obtain ⟨q, hq, hqs⟩ := hsub
    exact hreceived i j r hr q hq (hqs.trans hrs.symm)

variable [Inhabited ρ]

/-- The report counts the complete records that have no subscriber record of their own, and each
latency is of the two records of a message.  `published` and `received` say of which message a
record is. -/
def Right (fmt : PubFormat ρ) (window : ℚ) (published received : ℕ → μ) (pubFile : Option (List ρ))
    (subFile : Option (List SubRecord)) : Prop :=
  ∀ pub ∈ load fmt.seq pubFile, ∀ sub ∈ load SubRecord.seq subFile,
    ∀ r ∈ compare fmt window pubFile subFile,
      r.drop = KeyMatch.unmatched (completedStamps fmt pub) (sub.map SubRecord.headerStamp) ∧
        ∀ m ∈ r.pairs, received m.sub = published m.pub

/-- **The report of a comparison.** -/
theorem right_iff (fmt : PubFormat ρ) (window : ℚ) (published received : ℕ → μ)
    (pubFile : Option (List ρ)) (subFile : Option (List SubRecord)) :
    Right fmt window published received pubFile subFile ↔
      ∀ pub ∈ load fmt.seq pubFile, ∀ sub ∈ load SubRecord.seq subFile,
        Balanced fmt published received pub sub := by
  refine forall₂_congr fun pub hpub => forall₂_congr fun sub hsub => ?_
  have hcompare : compare fmt window pubFile subFile = some (compareLoaded fmt window pub sub) := by
    unfold compare
    rw [hpub, hsub]
    rfl
  rw [hcompare]
  simp only [Option.mem_some_iff, forall_eq']
  refine and_congr ?_ ?_
  · have hdrop : (compareLoaded fmt window pub sub).drop = _ := drop_eq_card_absent _ _
    have hsum := KeyMatch.unmatched_add_card_void (completedStamps_subset fmt pub)
      (sub.map SubRecord.headerStamp)
    rw [hdrop]
    omega
  · constructor
    · exact fun h s i j hi hj => h ⟨i, j⟩ (mem_pairs.mpr ⟨s, hi, hj⟩)
    · rintro h m hm
      obtain ⟨s, hi, hj⟩ := mem_pairs.mp hm
      exact h s m.pub m.sub hi hj

/-- Of two scans of a LiDAR one is not received. -/
example : (compareLoaded pub24 1 [⟨1, 500, 10⟩, ⟨2, 600, 20⟩] [⟨1, 500, 15⟩]).drop = 1 := by
  decide +kernel

/-- Two complete records with one stamp, of which the first was received. -/
def sharedStamp : List ImagePubRecord :=
  [⟨1, 500, 10, 11, 12, 1, 1⟩, ⟨2, 500, 20, 21, 22, 1, 1⟩]

/-- No drop is printed, and the latency is of two messages. -/
theorem sharedStamp_not_right :
    ¬Right pubImage48 1 (fun i => i) (fun _ => 0) (some sharedStamp) (some [⟨1, 500, 15⟩]) := by
  intro h
  have hpub : load pubImage48.seq (some sharedStamp) = some sharedStamp := by decide +kernel
  have hsub : load SubRecord.seq (some [⟨1, 500, 15⟩]) = some [⟨1, 500, 15⟩] := by decide +kernel
  have hdrop := (h _ hpub _ hsub (compareLoaded pubImage48 1 sharedStamp [⟨1, 500, 15⟩])
    (by unfold compare; rw [hpub, hsub]; rfl)).1
  revert hdrop
  decide +kernel

end SensorCompare

end FastLivo2
