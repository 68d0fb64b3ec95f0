import FastLivo2.BlackBox
import FastLivo2.Lib.Fold

/-!
# Lost messages as the analyser sees them

Each subscriber callback of the mapper logs the message it receives (`sub_lidar::log`,
`sub_imu::log`, `sub_image::log` in `blackbox.hpp`).  After the flight `analyze_sensor_subscribe.py`
loads the file and reports a jump of `seq` as a loss: `sub seq = publisher seq at receive time`.
The recorder numbers the callbacks, though, not the messages.

The module runs the two ends one after the other, for any messages published and any of them that
reach the subscriber.
-/

namespace FastLivo2

/-- The slots of the boxes of the subscriber streams, `1 << 20`. -/
def kBufN : UInt64 := 1048576

/-- `log`, where no other call is in flight. -/
def Box.log (N headerStamp now : UInt64) (b : Box) : Box :=
  let b' := b.logIdx N headerStamp
  match b'.base, b'.inFlight with
  | some slots, c :: _ => b'.logStore 0 c now slots
  | _, _ => b'

/-! ## The analyser -/

/-- `load`: the records of the slots that are not empty, `none` if there are none. -/
def load (slots : List SubRecord) : Option (List SubRecord) :=
  let arr := slots.filter fun r => 0 < r.seq
  if arr.length = 0 then none else some arr

/-- `np.diff`. -/
def diff {α : Type*} [Sub α] (l : List α) : List α := List.zipWith (fun a b => b - a) l l.tail

/-- `np.where(..)[0]`. -/
def whereTrue {α : Type*} (p : α → Bool) (l : List α) : List ℕ :=
  (List.range l.length).filter fun i => l[i]?.any p

/-- The result of `sub_metrics`; what the source computes in floating point is rational here. -/
structure SubMetrics where
  arriveDtMs : List ℚ
  stampDtMs : List ℚ
  seq : List Int64
  seqDiff : List Int64
  gaps : List ℕ
  stale : List ℕ
  rate : ℚ
  label : String
  deriving DecidableEq, Repr

def subMetrics (a : List SubRecord) (label : String) : SubMetrics :=
  let tCbkNs := a.map SubRecord.tCbkNs
  let headerStamp := a.map SubRecord.headerStamp
  let seq := a.map fun r => r.seq.toInt64
  let durS : ℚ :=
    if 2 ≤ a.length then ((tCbkNs.getLastD 0).toNat - (tCbkNs.headD 0).toNat : ℤ) / 10 ^ 9 else 0
  { arriveDtMs := (diff (tCbkNs.map UInt64.toInt64)).map fun d => d.toInt / 10 ^ 6
    stampDtMs := (diff (headerStamp.map UInt64.toInt64)).map fun d => d.toInt / 10 ^ 6
    seq := seq
    seqDiff := diff seq
    gaps := whereTrue (fun d => 1 < d) (diff seq)
    stale := whereTrue (fun d => d = 0) (diff headerStamp)
    rate := if 0 < durS then a.length / durS else 0
    label := label }

/-! ## From the publisher to the analyser -/

/-- The messages published on a topic, by their header stamps, and those of them that reach the
callback, in order, each with the clock reading there. -/
structure Delivery where
  stamps : List UInt64
  received : List (Fin stamps.length × UInt64)
  ordered : (received.map Prod.fst).Pairwise (· < ·)

namespace Delivery

variable (d : Delivery)

/-- The number of messages lost between the `i`-th one received and the next. -/
def lostAfter (i : ℕ) : ℕ :=
  match d.received[i]?, d.received[i + 1]? with
  | some a, some b => b.1 - a.1 - 1
  | _, _ => 0

/-- The recorder after the last callback. -/
def recorder : Box :=
  d.received.foldl (fun b c => b.log kBufN d.stamps[c.1] c.2) (Box.initial.init kBufN true)

/-- What the analyser computes from the file. -/
def metrics (label : String) : Option SubMetrics :=
  (d.recorder.base.bind load).map fun a => subMetrics a label

/-- The analyser reports the losses. -/
structure Detected (m : Option SubMetrics) : Prop where
  /-- The gaps are the places where messages were lost. -/
  gaps : ∀ i, (∃ r ∈ m, i ∈ r.gaps) ↔ 0 < d.lostAfter i
  /-- Each difference of sequence numbers gives the number of messages lost there. -/
  seqDiff : ∀ r ∈ m, ∀ i (h : i < r.seqDiff.length), r.seqDiff[i].toInt - 1 = d.lostAfter i

end Delivery

/-! ## What the recorder stores -/

namespace Box

variable {N : UInt64} {b : Box} {slots : List SubRecord}

/-- A recorder whose calls have come one after the other, from its first session. -/
structure Recording (N : UInt64) (b : Box) : Prop where
  kept : Kept N b
  counted : Counted N b
  inFlight : b.inFlight = []
  earlier : b.earlier = 0
  writes : b.writes = List.range (min b.calls N.toNat)
  base : b.base.isSome = true

lemma recording_init (hN : 0 < N) : Recording N (initial.init N true) where
  kept := (kept_initial N).init true
  counted := (counted_initial N).init (kept_initial N) true
  inFlight := by simp [init, initial, hN]
  earlier := by simp [init, initial, hN]
  writes := by simp [init, initial, hN]
  base := by simp [init, initial, hN]

/-- **Step lemma.**  A log call fills the next slot, or does nothing on a full box. -/
lemma Recording.log (h : Recording N b) (hcalls : b.calls + 1 ≤ 2 ^ 64) (headerStamp now : UInt64) :
    Recording N (b.log N headerStamp now) ∧ (b.log N headerStamp now).calls = b.calls + 1 := by
  obtain ⟨slots, hbase⟩ := Option.isSome_iff_exists.mp h.base
  have hidx : b.idx.toNat = b.calls := by
    rw [h.kept.idx, h.earlier]
    omega
  have hkept := h.kept.logIdx headerStamp
  have hearlier := h.earlier
  by_cases hroom : b.idx < N
  · have hlt : b.calls < N.toNat := hidx ▸ hroom
    have hcounted := h.counted.logIdx h.kept headerStamp (by
      rw [logIdx_room hbase hroom]
      dsimp only
      omega)
    have hlog : b.log N headerStamp now =
        (b.logIdx N headerStamp).logStore 0 ⟨b.idx.toNat, headerStamp⟩ now slots := by
      rw [Box.log, logIdx_room hbase hroom]
      simp [hbase, h.inFlight]
    have hbase' : (b.logIdx N headerStamp).base = some slots := by
      rw [logIdx_room hbase hroom]
      exact hbase
    have hcall : (b.logIdx N headerStamp).inFlight[0]? = some ⟨b.idx.toNat, headerStamp⟩ := by
      rw [logIdx_room hbase hroom]
      simp [h.inFlight]
    rw [hlog]
    refine ⟨⟨hkept.logStore hbase' hcall now, hcounted.logStore hkept hbase' hcall now, ?_, ?_, ?_,
      rfl⟩, ?_⟩
    · rw [logIdx_room hbase hroom]
      simp [logStore, nextSeq, h.inFlight]
    · rw [logIdx_room hbase hroom]
      exact hearlier
    · rw [logIdx_room hbase hroom]
      show b.writes ++ [b.idx.toNat] = List.range (min (b.calls + 1) N.toNat)
      rw [h.writes, hidx, show min (b.calls + 1) N.toNat = b.calls + 1 by omega,
        show min b.calls N.toNat = b.calls by omega, List.range_succ]
    · rw [logIdx_room hbase hroom]
      rfl
  · have hge : ¬ b.calls < N.toNat := hidx ▸ hroom
    have hcounted := h.counted.logIdx h.kept headerStamp (by
      rw [logIdx_full hbase hroom]
      dsimp only
      omega)
    have hlog : b.log N headerStamp now = b.logIdx N headerStamp := by
      rw [Box.log, logIdx_full hbase hroom]
      simp [hbase, h.inFlight]
    rw [hlog]
    refine ⟨⟨hkept, hcounted, ?_, ?_, ?_, ?_⟩, ?_⟩
    · rw [logIdx_full hbase hroom]
      exact h.inFlight
    · rw [logIdx_full hbase hroom]
      exact hearlier
    · rw [logIdx_full hbase hroom]
      show b.writes = List.range (min (b.calls + 1) N.toNat)
      rw [h.writes, show min (b.calls + 1) N.toNat = min b.calls N.toNat by omega]
    · rw [logIdx_full hbase hroom]
      exact h.base
    · rw [logIdx_full hbase hroom]

/-- The records that are loaded are numbered from `1` on. -/
lemma Recording.seqs (h : Recording N b) (hbase : b.base = some slots) :
    ((slots.filter fun r => 0 < r.seq).map fun r => r.seq.toNat) =
      List.range' 1 (min b.calls N.toNat) := by
  have hlength := h.kept.length slots hbase
  have hnumbers := h.counted.numbers slots hbase
  rw [h.writes, h.earlier, Nat.zero_min, Nat.zero_add, List.length_range] at hnumbers
  have hseq : ∀ i (hi : i < slots.length), i < min b.calls N.toNat →
      slots[i].seq.toNat = 1 + i := by
    intro i hi hlt
    have hmap := congrArg (fun l => l[i]?) hnumbers
    simpa [hlt, List.getElem?_eq_getElem hi] using hmap
  have hfront : ∀ r ∈ slots.take (min b.calls N.toNat), 0 < r.seq := by
    intro r hr
    obtain ⟨i, hi, rfl⟩ := List.getElem_of_mem hr
    rw [List.length_take] at hi
    rw [List.getElem_take]
    have hpos := hseq i (by omega) (by omega)
    rw [UInt64.lt_iff_toNat_lt, hpos, UInt64.toNat_zero]
    omega
  have hback : ∀ r ∈ slots.drop (min b.calls N.toNat), ¬ 0 < r.seq := by
    intro r hr
    obtain ⟨i, hi, rfl⟩ := List.getElem_of_mem hr
    rw [List.length_drop] at hi
    rw [List.getElem_drop, h.kept.blank slots hbase _ (by omega)
      (by rw [h.writes, List.mem_range]; omega)]
    exact lt_irrefl 0
  have htake : (slots.filter fun r => 0 < r.seq) = slots.take (min b.calls N.toNat) := by
    conv_lhs => rw [← List.take_append_drop (min b.calls N.toNat) slots]
    rw [List.filter_append, List.filter_eq_self.mpr (by simpa using hfront),
      List.filter_eq_nil_iff.mpr (by simpa using hback), List.append_nil]
  rw [htake]
  apply List.ext_getElem
  · rw [List.length_map, List.length_take, List.length_range']
    omega
  · intro i hi hi'
    rw [List.length_range'] at hi'
    rw [List.getElem_map, List.getElem_take, List.getElem_range', hseq i (by omega) hi',
      Nat.one_mul]

end Box

/-! ## What the analyser finds -/

lemma length_diff {α : Type*} [Sub α] (l : List α) : (diff l).length = l.length - 1 := by
  simp [diff]

/-- Consecutive numbers differ by one, also where the conversion to `int64` wraps. -/
lemma diff_toInt64 {l : List UInt64} {s : ℕ}
    (h : l.map UInt64.toNat = List.range' s l.length) (i : ℕ)
    (hi : i < (diff (l.map UInt64.toInt64)).length) : (diff (l.map UInt64.toInt64))[i] = 1 := by
  have hlen := length_diff (l.map UInt64.toInt64)
  rw [List.length_map] at hlen
  have hseq : ∀ j (hj : j < l.length), l[j].toNat = s + j := by
    intro j hj
    have hmap := congrArg (fun l => l[j]?) h
    simpa [hj, List.getElem?_eq_getElem hj] using hmap
  have hi₀ : i < l.length := by omega
  have hi₁ : i + 1 < l.length := by omega
  have hnext : l[i + 1] = l[i] + 1 := by
    have hlt := l[i + 1].toNat_lt
    apply UInt64.toNat_inj.mp
    rw [UInt64.toNat_add, hseq i hi₀, UInt64.toNat_one]
    rw [hseq (i + 1) hi₁] at hlt ⊢
    omega
  have hdiff : (diff (l.map UInt64.toInt64))[i] = l[i + 1].toInt64 - l[i].toInt64 := by
    simp [diff]
  rw [hdiff, hnext, UInt64.toInt64_add]
  rw [Int64.add_comm, Int64.sub_eq_add_neg, Int64.add_assoc, Int64.add_right_neg, Int64.add_zero]
  rfl

/-- A property of no element is true nowhere. -/
lemma whereTrue_eq_nil {α : Type*} {p : α → Bool} {l : List α} (h : ∀ a ∈ l, p a = false) :
    whereTrue p l = [] := by
  apply List.filter_eq_nil_iff.mpr
  intro i hi
  have hlt := List.mem_range.mp hi
  simp [List.getElem?_eq_getElem hlt, h _ (List.getElem_mem hlt)]

namespace Delivery

variable {d : Delivery}

/-- The recorder has counted the callbacks. -/
lemma recorder_recording (hlen : d.received.length ≤ 2 ^ 64) :
    Box.Recording kBufN d.recorder ∧ d.recorder.calls = d.received.length := by
  have hloop := foldl_rule (f := fun b c => Box.log kBufN d.stamps[c.1] c.2 b)
    (P := fun l b => Box.Recording kBufN b ∧ b.calls + l.length = d.received.length) ?_
    (l := d.received) (s := Box.initial.init kBufN true) ⟨Box.recording_init (by decide), ?_⟩
  · exact ⟨hloop.1, hloop.2⟩
  · rintro c l b ⟨hb, hcalls⟩
    rw [List.length_cons] at hcalls
    obtain ⟨hlog, hnext⟩ := hb.log (by omega) d.stamps[c.1] c.2
    exact ⟨hlog, by omega⟩
  · have hcalls : (Box.initial.init kBufN true).calls = 0 := rfl
    rw [hcalls, Nat.zero_add]

/-- The sequence numbers of the recorder never jump. -/
lemma metrics_no_gap (hlen : d.received.length ≤ 2 ^ 64) {label : String} {m : SubMetrics}
    (hm : m ∈ d.metrics label) :
    m.gaps = [] ∧ ∀ i (h : i < m.seqDiff.length), m.seqDiff[i] = 1 := by
  obtain ⟨hrec, -⟩ := recorder_recording hlen
  obtain ⟨slots, hbase⟩ := Option.isSome_iff_exists.mp hrec.base
  have hseqs := hrec.seqs hbase
  obtain ⟨a, hload, rfl⟩ : ∃ a, load slots = some a ∧ subMetrics a label = m := by
    simpa [metrics, hbase] using hm
  obtain rfl : (slots.filter fun r => 0 < r.seq) = a := by
    unfold load at hload
    dsimp only at hload
    split at hload
    · cases hload
    · exact Option.some.inj hload
  generalize ha : (slots.filter fun r => 0 < r.seq) = a at hseqs
  have hnumbers : (a.map SubRecord.seq).map UInt64.toNat =
      List.range' 1 (a.map SubRecord.seq).length := by
    have hcount := congrArg List.length hseqs
    rw [List.length_map, List.length_range'] at hcount
    rw [List.map_map, List.length_map, hcount]
    exact hseqs
  have hdiff : ∀ i (h : i < (subMetrics a label).seqDiff.length),
      (subMetrics a label).seqDiff[i] = 1 := by
    intro i hi
    have hone := diff_toInt64 hnumbers i
    simp only [List.map_map] at hone
    exact hone hi
  refine ⟨whereTrue_eq_nil fun e he => ?_, hdiff⟩
  obtain ⟨i, hi, rfl⟩ := List.getElem_of_mem he
  have hone : (diff (a.map fun r => r.seq.toInt64))[i] = 1 := hdiff i hi
  rw [hone]
  decide

/-- **Lost messages.**  The analyser reports the losses exactly when there are none between two
messages received. -/
theorem detected_iff_none_lost (hlen : d.received.length ≤ 2 ^ 64) (label : String) :
    d.Detected (d.metrics label) ↔ ∀ i, d.lostAfter i = 0 := by
  constructor
  · intro h i
    by_contra hlost
    obtain ⟨m, hm, hi⟩ := (h.gaps i).mpr (Nat.pos_of_ne_zero hlost)
    rw [(metrics_no_gap hlen hm).1] at hi
    cases hi
  · intro h
    constructor
    · intro i
      rw [h i]
      constructor
      · rintro ⟨m, hm, hi⟩
        rw [(metrics_no_gap hlen hm).1] at hi
        cases hi
      · exact fun hpos => absurd hpos (lt_irrefl 0)
    · intro m hm i hi
      rw [(metrics_no_gap hlen hm).2 i hi, h i]
      rfl

/-- Three messages, of which the subscriber misses the first. -/
def lateStart : Delivery where
  stamps := [10, 20, 30]
  received := [(1, 100), (2, 200)]
  ordered := by decide

/-- Nothing is lost after the first one received, and no gap is reported. -/
theorem lateStart_detected : lateStart.Detected (lateStart.metrics "sub_image") :=
  (detected_iff_none_lost (d := lateStart) (by decide) "sub_image").mpr fun i =>
    match i with
    | 0 | 1 | _ + 2 => rfl

/-- Three messages, of which the subscriber misses the second. -/
def oneLost : Delivery where
  stamps := [10, 20, 30]
  received := [(0, 100), (2, 200)]
  ordered := by decide

/-- The loss is not reported. -/
theorem oneLost_undetected : oneLost.lostAfter 0 = 1 ∧
    (∀ m ∈ oneLost.metrics "sub_image", m.gaps = []) ∧
    ¬ oneLost.Detected (oneLost.metrics "sub_image") := by
  have hgaps : ∀ m ∈ oneLost.metrics "sub_image", m.gaps = [] := fun m hm =>
    (metrics_no_gap (by decide) hm).1
  refine ⟨rfl, hgaps, fun h => ?_⟩
  obtain ⟨m, hm, hi⟩ := (h.gaps 0).mpr (by decide)
  rw [hgaps m hm] at hi
  cases hi

end Delivery

end FastLivo2
