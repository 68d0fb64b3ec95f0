import FastLivo2.Lib.Exec

/-!
# The black box

Every node keeps a flight recorder (`blackbox.hpp`, one copy in each package): a `Box` of `N`
records in a file that is allocated and mapped when the recorder is initialised.  A log call takes
an index with one atomic `fetch_add`, a sequence number with another, and stores its record; when
the indices have run out it does nothing.  The box is a global object: it may be initialised and
shut down more than once, each time with a new file.

The calls of a session may be interleaved in any way between the two `fetch_add`.  The module
follows the file of each session to its end: which slots it has filled, by how many calls, and with
which numbers.
-/

namespace FastLivo2

/-- `LidarSubRecord`, `ImuSubRecord`, `ImageSubRecord`. -/
structure SubRecord where
  seq : UInt64
  headerStamp : UInt64
  tCbkNs : UInt64
  deriving DecidableEq, Repr, Inhabited

/-- A slot of a file that has just been allocated. -/
def SubRecord.blank : SubRecord := ⟨0, 0, 0⟩

/-- A log call that has taken its index and not yet its sequence number. -/
structure LogCall where
  slot : ℕ
  headerStamp : UInt64
  deriving DecidableEq, Repr

/-- `detail::Box`.  Between two calls `fd` is open exactly when `base` is not null, so `base` stands
for both.  The last three fields are ghost data. -/
structure Box where
  base : Option (List SubRecord) := none
  idx : UInt64 := 0
  seq : UInt64 := 0
  inFlight : List LogCall := []
  /-- The log calls that took an index before this session. -/
  earlier : ℕ := 0
  /-- The log calls of this session. -/
  calls : ℕ := 0
  /-- The slots stored to in this session, in order. -/
  writes : List ℕ := []
  deriving DecidableEq, Repr

/-- The file of a session as it is closed, and how it was filled. -/
structure SessionFile where
  slots : List SubRecord
  earlier : ℕ
  calls : ℕ
  writes : List ℕ
  deriving DecidableEq, Repr

/-- A call on the box, or the second half of a log call. -/
inductive BoxEvent
  /-- `init`; `ok` is whether `open`, `fallocate` and `mmap` succeed. -/
  | init (ok : Bool)
  /-- A log call up to the `fetch_add` on the index. -/
  | log (headerStamp : UInt64)
  /-- The rest of the `k`-th log call in flight. -/
  | store (k : ℕ) (now : UInt64)
  | shutdown
  deriving DecidableEq, Repr

/-- Why a step cannot be taken. -/
inductive BoxFault
  | noSuchCall
  | callsInFlight
  deriving DecidableEq, Repr

namespace Box

/-- The box before it is first initialised. -/
def initial : Box := {}

def sizeMax : UInt64 := 0xFFFFFFFFFFFFFFFF

/-- `next_idx` on a box of `N` slots. -/
def nextIdx (N : UInt64) (b : Box) : UInt64 × Box :=
  (if b.idx < N then b.idx else sizeMax, { b with idx := b.idx + 1 })

def nextSeq (b : Box) : UInt64 × Box := (b.seq + 1, { b with seq := b.seq + 1 })

/-- `init`.  `fallocate` refuses a length of zero. -/
def init (N : UInt64) (ok : Bool) (b : Box) : Box :=
  match b.base with
  | some _ => b
  | none =>
      if ok = true ∧ 0 < N then
        { b with
          base := some (List.replicate N.toNat .blank)
          earlier := b.earlier + b.calls, calls := 0, writes := [] }
      else b

/-- `log` up to the index. -/
def logIdx (N : UInt64) (headerStamp : UInt64) (b : Box) : Box :=
  match b.base with
  | none => b
  | some _ =>
      let (i, b) := b.nextIdx N
      let b := { b with calls := b.calls + 1 }
      if i = sizeMax then b
      else { b with inFlight := b.inFlight ++ [⟨i.toNat, headerStamp⟩] }

/-- `log` from the sequence number on, for the call `c`, the `k`-th in flight. -/
def logStore (k : ℕ) (c : LogCall) (now : UInt64) (slots : List SubRecord) (b : Box) : Box :=
  let (n, b) := b.nextSeq
  { b with
    base := some (slots.set c.slot ⟨n, c.headerStamp, now⟩)
    inFlight := b.inFlight.eraseIdx k
    writes := b.writes ++ [c.slot] }

/-- The file of the session that is open. -/
def file (b : Box) (slots : List SubRecord) : SessionFile := ⟨slots, b.earlier, b.calls, b.writes⟩

/-- One step.  `shutdown` comes after the log calls of its session; it leaves `idx` and `seq` as
they are. -/
def step (N : UInt64) (b : Box) : BoxEvent → Except BoxFault (Box × Option SessionFile)
  | .init ok => .ok (b.init N ok, none)
  | .log headerStamp => .ok (b.logIdx N headerStamp, none)
  | .store k now =>
      match b.base, b.inFlight[k]? with
      | some slots, some c => .ok (b.logStore k c now slots, none)
      | _, _ => .error .noSuchCall
  | .shutdown =>
      match b.base with
      | none => .ok (b, none)
      | some slots =>
          if b.inFlight = [] then .ok ({ b with base := none }, some (b.file slots))
          else .error .callsInFlight

end Box

abbrev BoxTurn := Turn Box BoxEvent (Option SessionFile)

namespace SessionFile

/-- A file as it should be left by a session on a box of `N` slots. -/
structure Complete (N : UInt64) (f : SessionFile) : Prop where
  length : f.slots.length = N.toNat
  /-- The valid slots are the first ones, one for each call as far as there is room. -/
  valid : ∀ i (h : i < f.slots.length), 0 < f.slots[i].seq ↔ i < min f.calls N.toNat
  /-- A valid slot was written by one log call. -/
  once : ∀ i < min f.calls N.toNat, f.writes.count i = 1
  /-- The sequence numbers are `1`, …, `min f.calls N`, in some order. -/
  seqs : ((f.slots.take (min f.calls N.toNat)).map fun r => r.seq.toNat).Perm
    (List.range' 1 (min f.calls N.toNat))
  /-- No slot beyond the box was written. -/
  inside : ∀ i ∈ f.writes, i < N.toNat

end SessionFile

/-! ## Slots that are taken -/

/-- Of the indices from `s` on, those below `N` are taken until the box is full. -/
lemma length_filter_range' (s n N : ℕ) :
    ((List.range' s n).filter (· < N)).length + min s N = min (s + n) N := by
  induction n with
  | zero => simp
  | succ n ih =>
      rw [List.range'_1_concat, List.filter_append, List.length_append]
      by_cases h : s + n < N
      · have hlast : ([s + n].filter (· < N)).length = 1 := by simp [h]
        omega
      · have hlast : ([s + n].filter (· < N)).length = 0 := by simp [h]
        omega

lemma filter_range'_zero (n N : ℕ) : (List.range' 0 n).filter (· < N) = List.range (min n N) := by
  rw [← List.range_eq_range']
  induction n with
  | zero => simp
  | succ n ih =>
      rw [List.range_succ, List.filter_append, ih]
      by_cases h : n < N
      · rw [show min (n + 1) N = min n N + 1 by omega, List.range_succ, show min n N = n by omega]
        simp [h]
      · rw [show min (n + 1) N = min n N by omega]
        simp [h]

namespace Box

variable {N : UInt64} {b : Box} {slots : List SubRecord}

/-! ## The parts of a log call -/

lemma lt_sizeMax {i N : UInt64} (h : i < N) : i ≠ sizeMax := by
  rintro rfl
  have hlt : sizeMax.toNat < N.toNat := h
  have hN := N.toNat_lt
  have hmax : sizeMax.toNat = 2 ^ 64 - 1 := rfl
  omega

lemma logIdx_closed (hbase : b.base = none) (headerStamp : UInt64) :
    b.logIdx N headerStamp = b := by
  simp [logIdx, hbase]

lemma logIdx_room (hbase : b.base = some slots) (h : b.idx < N) (headerStamp : UInt64) :
    b.logIdx N headerStamp = { b with
      idx := b.idx + 1, calls := b.calls + 1
      inFlight := b.inFlight ++ [⟨b.idx.toNat, headerStamp⟩] } := by
  simp [logIdx, hbase, nextIdx, h, lt_sizeMax h]

lemma logIdx_full (hbase : b.base = some slots) (h : ¬ b.idx < N) (headerStamp : UInt64) :
    b.logIdx N headerStamp = { b with idx := b.idx + 1, calls := b.calls + 1 } := by
  simp [logIdx, hbase, nextIdx, h]

/-! ## What every step keeps -/

/-- What holds of a box however often it has been called. -/
structure Kept (N : UInt64) (b : Box) : Prop where
  idx : b.idx.toNat = (b.earlier + b.calls) % 2 ^ 64
  length : ∀ slots ∈ b.base, slots.length = N.toNat
  blank : ∀ slots ∈ b.base, ∀ i (h : i < slots.length), i ∉ b.writes → slots[i].seq = 0
  bounded : b.inFlight.length + b.writes.length ≤ b.calls
  inside : ∀ i ∈ b.inFlight.map LogCall.slot ++ b.writes, i < N.toNat
  closed : b.base = none → b.inFlight = []
  nonempty : b.base.isSome = true → 0 < N.toNat

lemma kept_initial (N : UInt64) : Kept N initial where
  idx := rfl
  length := by simp [initial]
  blank := by simp [initial]
  bounded := by simp [initial]
  inside := by simp [initial]
  closed := fun _ => rfl
  nonempty := by simp [initial]

/-- The index counter after one more call. -/
lemma Kept.idx_succ (h : Kept N b) :
    (b.idx + 1).toNat = (b.earlier + (b.calls + 1)) % 2 ^ 64 := by
  have hidx := h.idx
  rw [UInt64.toNat_add, hidx, show (1 : UInt64).toNat = 1 from rfl]
  omega

lemma Kept.init (h : Kept N b) (ok : Bool) : Kept N (b.init N ok) := by
  unfold Box.init
  cases hbase : b.base with
  | some slots => exact h
  | none =>
      by_cases hok : ok = true ∧ 0 < N
      · have hflight := h.closed hbase
        simp only [if_pos hok]
        exact {
          idx := by simpa using h.idx
          length := by simp
          blank := by simp [SubRecord.blank]
          bounded := by simp [hflight]
          inside := by simp [hflight]
          closed := by simp
          nonempty := fun _ => hok.2 }
      · simpa only [if_neg hok] using h

lemma Kept.logIdx (h : Kept N b) (headerStamp : UInt64) : Kept N (b.logIdx N headerStamp) := by
  cases hbase : b.base with
  | none => rwa [logIdx_closed hbase]
  | some slots =>
      have hbounded := h.bounded
      by_cases hroom : b.idx < N
      · have hidx : b.idx.toNat < N.toNat := hroom
        rw [logIdx_room hbase hroom]
        refine { h with
          idx := h.idx_succ
          bounded := ?_
          inside := ?_
          closed := fun hnone => ?_ }
        · simp only [List.length_append, List.length_singleton]
          omega
        · intro i hi
          have hmem : i = b.idx.toNat ∨ i ∈ b.inFlight.map LogCall.slot ++ b.writes := by
            simp only [List.map_append, List.mem_append, List.map_cons, List.map_nil,
              List.mem_singleton] at hi ⊢
            tauto
          obtain rfl | hmem := hmem
          · exact hidx
          · exact h.inside i hmem
        · rw [hbase] at hnone
          cases hnone
      · rw [logIdx_full hbase hroom]
        exact { h with idx := h.idx_succ, bounded := by dsimp only; omega }

/-- The call that stores is one of those in flight. -/
lemma perm_eraseIdx {k : ℕ} {c : LogCall} (hc : b.inFlight[k]? = some c) (ws : List ℕ) :
    ((b.inFlight.eraseIdx k).map LogCall.slot ++ (ws ++ [c.slot])).Perm
      (b.inFlight.map LogCall.slot ++ ws) := by
  obtain ⟨hk, rfl⟩ := List.getElem?_eq_some_iff.mp hc
  have hperm := (List.getElem_cons_eraseIdx_perm hk).map LogCall.slot
  calc ((b.inFlight.eraseIdx k).map LogCall.slot ++ (ws ++ [b.inFlight[k].slot])).Perm
        (b.inFlight[k].slot :: ((b.inFlight.eraseIdx k).map LogCall.slot ++ ws)) := by
        rw [← List.append_assoc]
        exact List.perm_append_singleton _ _
    _ |>.Perm (b.inFlight.map LogCall.slot ++ ws) := hperm.append_right ws

lemma length_eraseIdx {k : ℕ} {c : LogCall} (hc : b.inFlight[k]? = some c) :
    (b.inFlight.eraseIdx k).length + 1 = b.inFlight.length := by
  obtain ⟨hk, -⟩ := List.getElem?_eq_some_iff.mp hc
  rw [List.length_eraseIdx_of_lt hk]
  omega

lemma Kept.logStore {k : ℕ} {c : LogCall} (h : Kept N b) (hbase : b.base = some slots)
    (hc : b.inFlight[k]? = some c) (now : UInt64) : Kept N (b.logStore k c now slots) where
  idx := h.idx
  length := by
    rintro _ ⟨⟩
    rw [List.length_set]
    exact h.length slots hbase
  blank := by
    rintro _ ⟨⟩ i hi hmem
    have hmem' : i ∉ b.writes ++ [c.slot] := hmem
    simp only [List.mem_append, List.mem_singleton, not_or] at hmem'
    rw [List.length_set] at hi
    rw [List.getElem_set_of_ne (Ne.symm hmem'.2)]
    exact h.blank slots hbase i hi hmem'.1
  bounded := by
    have hbounded := h.bounded
    have hlen := length_eraseIdx hc
    show (b.inFlight.eraseIdx k).length + (b.writes ++ [c.slot]).length ≤ b.calls
    simp only [List.length_append, List.length_singleton]
    omega
  inside := fun i hi => h.inside i ((perm_eraseIdx hc b.writes).mem_iff.mp hi)
  closed := fun hnone => by cases hnone
  nonempty := fun _ => h.nonempty (by rw [hbase]; rfl)

/-- What a step does: a file is handed out only by the `shutdown` of an open box. -/
lemma step_cases {e : BoxEvent} {t : Box} {o : Option SessionFile}
    (hstep : Box.step N b e = .ok (t, o)) :
    (o = none ∧ ((∃ ok, t = b.init N ok) ∨ (∃ headerStamp, t = b.logIdx N headerStamp) ∨ t = b ∨
      ∃ slots k c now, b.base = some slots ∧ b.inFlight[k]? = some c ∧
        t = b.logStore k c now slots)) ∨
    ∃ slots, b.base = some slots ∧ b.inFlight = [] ∧ t = { b with base := none } ∧
      o = some (b.file slots) := by
  cases e with
  | init ok =>
      obtain ⟨rfl, rfl⟩ : b.init N ok = t ∧ none = o := by simpa [Box.step] using hstep
      exact .inl ⟨rfl, .inl ⟨ok, rfl⟩⟩
  | log headerStamp =>
      obtain ⟨rfl, rfl⟩ : b.logIdx N headerStamp = t ∧ none = o := by simpa [Box.step] using hstep
      exact .inl ⟨rfl, .inr (.inl ⟨headerStamp, rfl⟩)⟩
  | store k now =>
      cases hbase : b.base with
      | none => simp [Box.step, hbase] at hstep
      | some slots =>
          cases hc : b.inFlight[k]? with
          | none => simp [Box.step, hbase, hc] at hstep
          | some c =>
              obtain ⟨rfl, rfl⟩ : b.logStore k c now slots = t ∧ none = o := by
                simpa [Box.step, hbase, hc] using hstep
              exact .inl ⟨rfl, .inr (.inr (.inr ⟨slots, k, c, now, rfl, hc, rfl⟩))⟩
  | shutdown =>
      cases hbase : b.base with
      | none =>
          obtain ⟨rfl, rfl⟩ : b = t ∧ none = o := by simpa [Box.step, hbase] using hstep
          exact .inl ⟨rfl, .inr (.inr (.inl rfl))⟩
      | some slots =>
          by_cases hflight : b.inFlight = []
          · obtain ⟨rfl, rfl⟩ : { b with base := none } = t ∧ some (b.file slots) = o := by
              simpa [Box.step, hbase, hflight] using hstep
            exact .inr ⟨slots, rfl, hflight, rfl, rfl⟩
          · simp [Box.step, hbase, hflight] at hstep

/-- **Step lemma.** -/
lemma Kept.step {e : BoxEvent} {t : Box} {o : Option SessionFile} (h : Kept N b)
    (hstep : Box.step N b e = .ok (t, o)) : Kept N t := by
  obtain ⟨-, ⟨ok, rfl⟩ | ⟨headerStamp, rfl⟩ | rfl | ⟨slots, k, c, now, hbase, hc, rfl⟩⟩ |
    ⟨slots, hbase, hflight, rfl, -⟩ := step_cases hstep
  · exact h.init ok
  · exact h.logIdx headerStamp
  · exact h
  · exact h.logStore hbase hc now
  · exact { h with
      length := by simp
      blank := by simp
      closed := fun _ => hflight
      nonempty := by simp }

/-! ## What holds until the index counter wraps -/

/-- What holds of a box that has been called at most `2 ^ 64` times. -/
structure Counted (N : UInt64) (b : Box) : Prop where
  /-- The calls of the session have taken the slots that were left, each its own. -/
  slots : (b.inFlight.map LogCall.slot ++ b.writes).Perm
    ((List.range' b.earlier b.calls).filter (· < N.toNat))
  seq : b.seq.toNat + b.inFlight.length = min (b.earlier + b.calls) N.toNat
  /-- The stores of the session are numbered on from those before it. -/
  numbers : ∀ slots ∈ b.base, (b.writes.map fun i => (slots.getD i .blank).seq.toNat) =
    List.range' (min b.earlier N.toNat + 1) b.writes.length

lemma counted_initial (N : UInt64) : Counted N initial where
  slots := by simp [initial]
  seq := by simp [initial]
  numbers := by simp [initial]

lemma Counted.init (h : Counted N b) (hk : Kept N b) (ok : Bool) : Counted N (b.init N ok) := by
  unfold Box.init
  cases hbase : b.base with
  | some slots => exact h
  | none =>
      by_cases hok : ok = true ∧ 0 < N
      · have hflight := hk.closed hbase
        have hseq := h.seq
        simp only [if_pos hok]
        exact {
          slots := by simp [hflight]
          seq := by simpa [hflight] using hseq
          numbers := by simp }
      · simpa only [if_neg hok] using h

lemma Counted.logIdx (h : Counted N b) (hk : Kept N b) (headerStamp : UInt64)
    (htotal : (b.logIdx N headerStamp).earlier + (b.logIdx N headerStamp).calls ≤ 2 ^ 64) :
    Counted N (b.logIdx N headerStamp) := by
  cases hbase : b.base with
  | none => rwa [logIdx_closed hbase]
  | some slots =>
      have hseq := h.seq
      have hidx := hk.idx
      by_cases hroom : b.idx < N
      · have hlt : b.idx.toNat < N.toNat := hroom
        rw [logIdx_room hbase hroom] at htotal ⊢
        have hcall : b.idx.toNat = b.earlier + b.calls := by
          have hle : b.earlier + (b.calls + 1) ≤ 2 ^ 64 := htotal
          omega
        refine { h with slots := ?_, seq := ?_ }
        · have hnew : [b.idx.toNat].filter (· < N.toNat) = [b.idx.toNat] := by simp [hlt]
          rw [List.range'_1_concat, List.filter_append, ← hcall, hnew, List.map_append,
            List.append_assoc]
          refine ((List.perm_append_comm.append_left _).trans ?_)
          rw [← List.append_assoc]
          exact h.slots.append_right _
        · simp only [List.length_append, List.length_singleton]
          omega
      · have hge : ¬ b.idx.toNat < N.toNat := hroom
        rw [logIdx_full hbase hroom] at htotal ⊢
        have hcall : b.idx.toNat = b.earlier + b.calls := by
          have hle : b.earlier + (b.calls + 1) ≤ 2 ^ 64 := htotal
          omega
        refine { h with slots := ?_, seq := ?_ }
        · have hnew : [b.idx.toNat].filter (· < N.toNat) = [] := by simp [hge]
          rw [List.range'_1_concat, List.filter_append, ← hcall, hnew, List.append_nil]
          exact h.slots
        · dsimp only
          omega

lemma Counted.logStore {k : ℕ} {c : LogCall} (h : Counted N b) (hk : Kept N b)
    (hbase : b.base = some slots) (hc : b.inFlight[k]? = some c) (now : UInt64) :
    Counted N (b.logStore k c now slots) := by
  have hflight := length_eraseIdx hc
  have hseq := h.seq
  have hN := N.toNat_lt
  have hnext : (b.seq + 1).toNat = b.seq.toNat + 1 := by
    rw [UInt64.toNat_add, show (1 : UInt64).toNat = 1 from rfl]
    omega
  have hperm := (perm_eraseIdx hc b.writes).trans h.slots
  have hlength := h.slots.length_eq
  have htaken := length_filter_range' b.earlier b.calls N.toNat
  simp only [List.length_append, List.length_map] at hlength
  have hmem : c.slot ∈ b.inFlight.map LogCall.slot ++ b.writes :=
    (perm_eraseIdx hc b.writes).mem_iff.mp (by simp)
  have hslot : c.slot < slots.length := by
    rw [hk.length slots hbase]
    exact hk.inside _ hmem
  have hnew : c.slot ∉ b.writes := by
    have hnodup : (b.writes ++ [c.slot]).Nodup :=
      (List.nodup_append.mp (hperm.nodup_iff.mpr ((List.nodup_range' ).filter _))).2.1
    intro hin
    exact (List.nodup_append.mp hnodup).2.2 _ hin _ (List.mem_singleton_self _) rfl
  refine ⟨hperm, ?_, ?_⟩
  · show (b.seq + 1).toNat + (b.inFlight.eraseIdx k).length = _
    rw [hnext]
    show _ = min (b.earlier + b.calls) N.toNat
    omega
  · rintro _ ⟨⟩
    show List.map _ (b.writes ++ [c.slot]) =
      List.range' (min b.earlier N.toNat + 1) (b.writes ++ [c.slot]).length
    rw [List.map_append, List.length_append, List.length_singleton, List.range'_1_concat,
      ← h.numbers slots hbase]
    congr 1
    · apply List.map_congr_left
      intro i hi
      have hne : c.slot ≠ i := fun heq => hnew (heq ▸ hi)
      simp [List.getD_eq_getElem?_getD, List.getElem?_set_ne hne]
    · have hnumber : b.seq.toNat + 1 = min b.earlier N.toNat + 1 + b.writes.length := by omega
      simp [List.getD_eq_getElem?_getD, List.getElem?_set_self hslot, hnext, hnumber]

/-- Log calls are only ever added. -/
lemma total_mono {e : BoxEvent} {t : Box} {o : Option SessionFile}
    (hstep : Box.step N b e = .ok (t, o)) : b.earlier + b.calls ≤ t.earlier + t.calls := by
  obtain ⟨-, ⟨ok, rfl⟩ | ⟨headerStamp, rfl⟩ | rfl | ⟨slots, k, c, now, hbase, hc, rfl⟩⟩ |
    ⟨slots, hbase, hflight, rfl, -⟩ := step_cases hstep
  · unfold Box.init
    split
    · exact le_rfl
    · split_ifs <;> simp
  · cases hbase : b.base with
    | none => rw [logIdx_closed hbase]
    | some slots =>
        by_cases hroom : b.idx < N
        · rw [logIdx_room hbase hroom]
          simp
        · rw [logIdx_full hbase hroom]
          simp
  all_goals exact le_rfl

/-- **Step lemma.** -/
lemma Counted.step {e : BoxEvent} {t : Box} {o : Option SessionFile} (h : Counted N b)
    (hk : Kept N b) (hstep : Box.step N b e = .ok (t, o)) (htotal : t.earlier + t.calls ≤ 2 ^ 64) :
    Counted N t := by
  obtain ⟨-, ⟨ok, rfl⟩ | ⟨headerStamp, rfl⟩ | rfl | ⟨slots, k, c, now, hbase, hc, rfl⟩⟩ |
    ⟨slots, hbase, hflight, rfl, -⟩ := step_cases hstep
  · exact h.init hk ok
  · exact h.logIdx hk headerStamp htotal
  · exact h
  · exact h.logStore hk hbase hc now
  · exact { h with numbers := by simp }

/-- A box that has been called any number of times. -/
lemma reached {tr : List BoxTurn} {t : Box} (h : Exec (step N) initial tr t) :
    ∀ x ∈ tr, Kept N x.pre ∧ (x.pre.earlier + x.pre.calls ≤ 2 ^ 64 → Counted N x.pre) := by
  have hinv := h.invariant (C := fun _ => True)
    (I := fun b => Kept N b ∧ (b.earlier + b.calls ≤ 2 ^ 64 → Counted N b))
    ⟨kept_initial N, fun _ => counted_initial N⟩ ?_ (fun _ _ => trivial)
  · exact fun x hx => (hinv.2 x hx).1
  · rintro x hx - ⟨hk, hcount⟩
    have hstep : Box.step N x.pre x.event = .ok (x.post, x.obs) := hx
    exact ⟨hk.step hstep, fun htotal =>
      (hcount ((total_mono hstep).trans htotal)).step hk hstep htotal⟩

/-! ## The file of a session -/

/-- A session without log calls leaves a blank file. -/
lemma complete_of_calls_eq_zero (hk : Kept N b) (hbase : b.base = some slots)
    (hcalls : b.calls = 0) : (b.file slots).Complete N where
  length := hk.length slots hbase
  valid := by
    intro i hi
    have hwrites : b.writes = [] := by
      have hbounded := hk.bounded
      exact List.length_eq_zero_iff.mp (by omega)
    have hblank : slots[i].seq = 0 := hk.blank slots hbase i hi (by simp [hwrites])
    have hseq : (b.file slots).slots[i].seq = 0 := hblank
    have hcalls' : (b.file slots).calls = 0 := hcalls
    simp [hseq, hcalls']
  once := by
    have hcalls' : (b.file slots).calls = 0 := hcalls
    simp [hcalls']
  seqs := by
    have hcalls' : (b.file slots).calls = 0 := hcalls
    simp [hcalls']
  inside := fun i hi => hk.inside i (List.mem_append_right _ hi)

/-- A slot that is stored to gets a number that goes on from the session before. -/
lemma Counted.lt_seq (h : Counted N b) (hbase : b.base = some slots) {i : ℕ} (hi : i < slots.length)
    (hmem : i ∈ b.writes) : min b.earlier N.toNat < slots[i].seq.toNat := by
  have hnumber : (slots.getD i .blank).seq.toNat ∈
      List.range' (min b.earlier N.toNat + 1) b.writes.length := by
    rw [← h.numbers slots hbase]
    exact List.mem_map_of_mem hmem
  rw [List.getD_eq_getElem _ _ hi] at hnumber
  have hle := (List.mem_range'_1.mp hnumber).1
  omega

/-- The first session to be logged to leaves a complete file. -/
lemma complete_of_earlier_eq_zero (hk : Kept N b) (h : Counted N b) (hbase : b.base = some slots)
    (hflight : b.inFlight = []) (hearlier : b.earlier = 0) : (b.file slots).Complete N := by
  have hlength := hk.length slots hbase
  have hwrites : b.writes.Perm (List.range (min b.calls N.toNat)) := by
    have hperm := h.slots
    rwa [hflight, hearlier, filter_range'_zero, List.map_nil, List.nil_append] at hperm
  have hmem : ∀ i, i ∈ b.writes ↔ i < min b.calls N.toNat := fun i => by
    rw [hwrites.mem_iff, List.mem_range]
  refine ⟨hlength, ?_, ?_, ?_, fun i hi => hk.inside i (List.mem_append_right _ hi)⟩
  · intro i hi
    show 0 < slots[i].seq ↔ i < min b.calls N.toNat
    rw [← hmem i]
    constructor
    · intro hpos
      by_contra hnot
      rw [hk.blank slots hbase i hi hnot] at hpos
      exact absurd hpos (lt_irrefl 0)
    · intro hin
      have hlt := h.lt_seq hbase hi hin
      show (0 : UInt64).toNat < slots[i].seq.toNat
      exact lt_of_le_of_lt (Nat.zero_le _) hlt
  · intro i hi
    show b.writes.count i = 1
    rw [hwrites.count_eq]
    exact List.count_eq_one_of_mem List.nodup_range (List.mem_range.mpr hi)
  · show ((slots.take (min b.calls N.toNat)).map fun r => r.seq.toNat).Perm _
    have hnumbers := h.numbers slots hbase
    rw [hearlier, Nat.zero_min, Nat.zero_add, hwrites.length_eq, List.length_range] at hnumbers
    have htake : slots.take (min b.calls N.toNat) =
        (List.range (min b.calls N.toNat)).map fun i => slots.getD i .blank := by
      apply List.ext_getElem
      · rw [List.length_take, List.length_map, List.length_range]
        omega
      · intro i hi hi'
        rw [List.length_take] at hi
        rw [List.getElem_take, List.getElem_map, List.getElem_range,
          List.getD_eq_getElem _ _ (by omega)]
    rw [htake, List.map_map]
    show List.Perm _ (List.range' 1 (min b.calls N.toNat))
    rw [← hnumbers]
    exact (hwrites.map _).symm

/-- A later session with a log call does not leave a complete file: the number `1` is missing. -/
lemma earlier_eq_zero_of_complete (hk : Kept N b) (h : Counted N b) (hbase : b.base = some slots)
    (hN : 0 < N.toNat) (hcalls : 0 < b.calls) (hf : (b.file slots).Complete N) : b.earlier = 0 := by
  by_contra hearlier
  have hone : 1 ∈ (slots.take (min b.calls N.toNat)).map fun r => r.seq.toNat := by
    apply hf.seqs.mem_iff.mpr
    rw [List.mem_range'_1]
    show 1 ≤ 1 ∧ 1 < 1 + min b.calls N.toNat
    omega
  obtain ⟨r, hr, hseq⟩ := List.mem_map.mp hone
  obtain ⟨i, hi, rfl⟩ := List.getElem_of_mem hr
  rw [List.length_take] at hi
  have hi' : i < slots.length := by omega
  rw [List.getElem_take] at hseq
  have hmem : i ∈ b.writes := by
    by_contra hnot
    rw [hk.blank slots hbase i hi' hnot] at hseq
    cases hseq
  have hlt := h.lt_seq hbase hi' hmem
  omega

/-- **The file of a session.**  It is complete when no log call of an earlier session took an
index, or when the session has no log call; up to the wrap of the index counter it is complete only
then. -/
theorem complete_iff_first_session {tr : List BoxTurn} {t : Box} {x : BoxTurn} {f : SessionFile}
    (h : Exec (step N) initial tr t) (hx : x ∈ tr) (hf : f ∈ x.obs) :
    (f.calls = 0 ∨ f.earlier = 0 ∧ f.calls ≤ 2 ^ 64 → f.Complete N) ∧
      (f.earlier + f.calls ≤ 2 ^ 64 → f.Complete N → f.calls = 0 ∨ f.earlier = 0) := by
  have hstep : Box.step N x.pre x.event = .ok (x.post, x.obs) := h.taken x hx
  obtain ⟨hk, hcount⟩ := reached h x hx
  obtain ⟨hnone, -⟩ | ⟨slots, hbase, hflight, -, hobs⟩ := step_cases hstep
  · rw [hnone] at hf
    cases hf
  · obtain rfl : x.pre.file slots = f := Option.some.inj (hobs.symm.trans hf)
    constructor
    · rintro (hcalls | ⟨hearlier, hcalls⟩)
      · exact complete_of_calls_eq_zero hk hbase hcalls
      · have hearlier' : x.pre.earlier = 0 := hearlier
        have hcalls' : x.pre.calls ≤ 2 ^ 64 := hcalls
        exact complete_of_earlier_eq_zero hk (hcount (by omega)) hbase hflight hearlier'
    · intro htotal hcomplete
      by_cases hcalls : x.pre.calls = 0
      · exact .inl hcalls
      · exact .inr (earlier_eq_zero_of_complete hk (hcount htotal) hbase
          (hk.nonempty (by rw [hbase]; rfl)) (Nat.pos_of_ne_zero hcalls) hcomplete)

/-- Three log calls on a box of two slots, the second of which is the first to store. -/
def crossed : List BoxEvent :=
  [.init true, .log 10, .log 20, .store 1 101, .log 30, .store 0 102, .shutdown]

/-- The file of the crossed calls. -/
def crossedFile : SessionFile := ⟨[⟨2, 10, 102⟩, ⟨1, 20, 101⟩], 0, 3, [1, 0]⟩

/-- The first two are in it, each in the slot of its number; the third found none. -/
theorem crossed_complete : crossedFile.Complete 2 :=
  (complete_iff_first_session (x := (trace (step 2) crossed initial).1.get ⟨6, by decide +kernel⟩)
    (Exec.of_trace crossed initial) (List.get_mem _ _) (by decide +kernel)).1 (.inr (by decide))

/-- Two sessions of one box of four slots, with one log call each. -/
def twoSessions : List BoxEvent :=
  [.init true, .log 10, .store 0 101, .shutdown, .init true, .log 20, .store 0 102, .shutdown]

/-- The second session leaves the first slot of its file blank and numbers its record `2`. -/
theorem twoSessions_incomplete :
    Exec (step 4) initial (trace (step 4) twoSessions initial).1
      (trace (step 4) twoSessions initial).2 ∧
    ∃ x ∈ (trace (step 4) twoSessions initial).1,
      x.obs = some ⟨[.blank, ⟨2, 20, 102⟩, .blank, .blank], 1, 1, [1]⟩ ∧
        ∀ f ∈ x.obs, ¬ f.Complete 4 := by
  refine ⟨Exec.of_trace _ _, (trace (step 4) twoSessions initial).1.get ⟨7, by decide +kernel⟩,
    List.get_mem _ _, by decide +kernel, ?_⟩
  intro f hf hcomplete
  obtain rfl : (⟨[.blank, ⟨2, 20, 102⟩, .blank, .blank], 1, 1, [1]⟩ : SessionFile) = f :=
    Option.some.inj ((show _ = _ by decide +kernel).symm.trans hf)
  have hvalid := (hcomplete.valid 0 (by decide)).mpr (by decide)
  exact absurd hvalid (by decide)

end Box

end FastLivo2
