import FastLivo2.GprmcSentences

/-!
# Which sentences reach the callback

Soundness and completeness of `Synchro` over whole streams, however they are cut into reads.

A callback is invoked at the last byte of a sentence exactly when the state before the sentence is
receptive (`callback_iff_receptive`).  What it is told to read goes up to, but does not include, the
last digit of the checksum: `ParseGps` returns before it has counted the byte that completes the
sentence.  So what it reports is never a complete sentence (`sound_iff_silent`), though one byte
more would be a text with a header and a checksum `sscanf` agrees with (`report_sentence`).
-/

namespace FastLivo2

/-! ## A sentence, and one that broke off -/

/-- `$GPRMC,123519,A,4807.038,N,01131.000,E,022.4,084.4,230394,003.1,W*6A` -/
def sampleSentence : RmcSentence where
  header := kGPRMC
  body := ascii [',', '1', '2', '3', '5', '1', '9', ',', 'A', ',', '4', '8', '0', '7', '.', '0',
    '3', '8', ',', 'N', ',', '0', '1', '1', '3', '1', '.', '0', '0', '0', ',', 'E', ',', '0', '2',
    '2', '.', '4', ',', '0', '8', '4', '.', '4', ',', '2', '3', '0', '3', '9', '4', ',', '0', '0',
    '3', '.', '1', ',', 'W']
  high := Char.toUInt8 '6'
  low := Char.toUInt8 'A'
  header_eq := kGPRMC_header
  star_notMem := by decide
  dollar_notMem := by decide
  checksum_eq := by decide +kernel
  fits := by decide

/-- `$GPRMC,1235`, a sentence that broke off. -/
def brokenOff : List UInt8 := kGPRMC ++ ascii [',', '1', '2', '3', '5']

/-! ## The code over a stream -/

namespace Synchro

/-- The state before a sentence of `n` bytes that will be recognised. -/
def Receptive (s : Synchro) (n : ℕ) : Prop :=
  s.curLen < 6 ∨ s.curLen + n ≤ 128 ∧
    xorSum (s.rmcBuff.bytes.take s.curLen).tail = dollar ∧
    ¬ RmcSentence.mask <:+ s.rmcBuff.bytes.take s.curLen

lemma receptive_iff {s : Synchro} (hs : s.curLen ≤ 128) (n : ℕ) :
    s.Receptive n ↔ RmcSentence.Receptive s.held n := by
  rw [Receptive, RmcSentence.Receptive, held_length hs, held]
  by_cases hlt : s.curLen < 6
  · simp [hlt]
  · simp [hlt]

/-- **No access leaves the buffer**, and what is held is what the machine holds. -/
theorem decode_returns (l : List UInt8) {s : Synchro} (hs : s.curLen ≤ 128)
    (hcb : s.syncTimerCb = true) :
    ∃ tr t, decode l s = .ok (tr, t) ∧ t.curLen ≤ 128 ∧ t.syncTimerCb = true ∧
      t.held = feed true s.held l := by
  induction l generalizing s with
  | nil => exact ⟨[], s, rfl, hs, hcb, rfl⟩
  | cons b l ih =>
      obtain ⟨u, o, hu, hulen, hucb, hrec, -⟩ := takesByte hs b
      rw [hcb] at hucb hrec
      obtain ⟨tr, t, ht, htlen, htcb, hheld⟩ := ih hulen hucb
      refine ⟨⟨s, b, o, u⟩ :: tr, t, ?_, htlen, htcb, ?_⟩
      · rw [decode] at ht ⊢
        simp [run, hu, ht]
      · rw [hheld, feed_cons, ← hrec]

/-- Whether there is a callback or not, every stream is read to its end. -/
theorem ioLoop_returns (reads : List (List UInt8)) (cb : Bool) :
    ∃ tr t, ioLoop reads (cleared cb) = .ok (tr, t) := by
  rw [ioLoop_eq]
  obtain ⟨tr, t, h, -⟩ := run_returns (I := fun s : Synchro => s.curLen ≤ 128)
    (fun s b hs => by
      obtain ⟨t, o, h, hlen, -⟩ := takesByte hs b
      exact ⟨t, o, h, hlen⟩) reads.flatten (s := cleared cb) (Nat.zero_le 128)
  exact ⟨tr, t, h⟩

/-- The callback is invoked where the machine reports something. -/
lemma obs_isSome_iff {s t : Synchro} {b : UInt8} {o : Option Report} (hs : s.curLen ≤ 128)
    (hcb : s.syncTimerCb = true) (h : s.decodeByte b = .ok (t, o)) :
    o.isSome = true ↔ Fires s.held b := by
  obtain ⟨t', o', h', -, -, hrec, -⟩ := takesByte hs b
  obtain ⟨rfl, rfl⟩ : t = t' ∧ o = o' := by simpa [h] using h'
  rw [hcb] at hrec
  have hobs : (recognise true s.held b).2 = o.map Report.sentence := by rw [← hrec]
  constructor
  · intro ho
    obtain ⟨r, rfl⟩ := Option.isSome_iff_exists.mp ho
    exact ((recognise_obs _ _ _ _).mp hobs).1.2
  · intro hf
    have hsome := (recognise_obs true _ _ _).mpr ⟨⟨rfl, hf⟩, rfl⟩
    rw [hobs] at hsome
    cases o with
    | none => cases hsome
    | some r => rfl

/-- A sentence read from a state: its turns, and the callback at the last of them. -/
lemma decode_sentence (w : RmcSentence) {s : Synchro} (hs : s.curLen ≤ 128)
    (hcb : s.syncTimerCb = true) :
    ∃ tr x t, decode w.text s = .ok (tr ++ [x], t) ∧ t.curLen ≤ 128 ∧ tr.length = w.front.length ∧
      (∃ y, (tr ++ [x])[0]? = some y ∧ y.pre = s) ∧
      (x.obs.isSome = true ↔ s.Receptive w.text.length) := by
  obtain ⟨tr, u, hu, hulen, hucb, hheld⟩ := decode_returns w.front hs hcb
  obtain ⟨t, o, ht, htlen, -⟩ := takesByte hulen w.low
  have hlen : tr.length = w.front.length := by
    have hevents := events_of_run hu
    rw [← hevents, List.length_map]
  refine ⟨tr, ⟨u, w.low, o, t⟩, t, ?_, htlen, hlen, ?_, ?_⟩
  · rw [decode] at hu ⊢
    rw [RmcSentence.text, run_append, hu]
    simp [Except.bind, Except.map, run, ht]
  · cases tr with
    | nil =>
        have hfront := w.length_front
        rw [← hlen] at hfront
        simp at hfront
    | cons y tr => exact ⟨y, rfl, pre_of_run hu⟩
  · rw [obs_isSome_iff hulen hucb ht, hheld, w.fires_iff ((held_length hs).le.trans hs),
      receptive_iff hs]

/-- **Completeness and resynchronisation.**  However the stream is cut into reads, it is read
without an access outside the buffer; and where a callback is registered it is invoked at the last
byte of a sentence exactly when the state before the sentence is receptive. -/
theorem callback_iff_receptive (reads : List (List UInt8)) (cb : Bool) :
    ∃ tr t, ioLoop reads (cleared cb) = .ok (tr, t) ∧
      (cb = true → ∀ (p : List UInt8) (w : RmcSentence) (q : List UInt8),
        reads.flatten = p ++ w.text ++ q → ∃ y x, tr[p.length]? = some y ∧
          tr[(p ++ w.text).length - 1]? = some x ∧
          (x.obs.isSome = true ↔ y.pre.Receptive w.text.length)) := by
  obtain ⟨tr, t, h⟩ := ioLoop_returns reads cb
  refine ⟨tr, t, h, ?_⟩
  rintro rfl p w q hsplit
  obtain ⟨tr₁, s, hs, hlen, hcb, -⟩ := decode_returns p (s := cleared true) (Nat.zero_le 128) rfl
  obtain ⟨tr₂, x, u, hu, -, hlen₂, ⟨y, hy, rfl⟩, hiff⟩ := decode_sentence w hlen hcb
  have hp : tr₁.length = p.length := by
    rw [← events_of_run hs, List.length_map]
  have htrace : ∃ tr₃, tr = tr₁ ++ (tr₂ ++ [x]) ++ tr₃ := by
    rw [ioLoop_eq, hsplit, decode, run_append, run_append, show run decodeByte p (cleared true) =
      .ok (tr₁, y.pre) from hs] at h
    simp only [Except.bind] at h
    rw [show run decodeByte w.text y.pre = .ok (tr₂ ++ [x], u) from hu] at h
    simp only [Except.map] at h
    cases hq : run decodeByte q u with
    | error e => simp [hq] at h
    | ok r =>
        refine ⟨r.1, ?_⟩
        rw [hq] at h
        simpa using (congrArg Prod.fst (Except.ok.inj h)).symm
  obtain ⟨tr₃, rfl⟩ := htrace
  have hlast : (p ++ w.text).length - 1 = p.length + tr₂.length := by
    rw [List.length_append, w.length_text, hlen₂, w.length_front]
    omega
  refine ⟨y, x, ?_, ?_, hiff⟩
  · rw [List.append_assoc, ← hp, List.getElem?_append_right le_rfl, Nat.sub_self,
      List.getElem?_append_left (by simp)]
    exact hy
  · rw [hlast, List.append_assoc, ← hp, List.getElem?_append_right (by omega),
      List.getElem?_append_left (by simp)]
    simp

/-- A sentence after one that broke off brings no callback. -/
theorem sentence_lost : ∃ tr t,
    ioLoop [brokenOff, sampleSentence.text] (cleared true) = .ok (tr, t) ∧
    ∀ x ∈ tr, x.obs = none := by
  obtain ⟨tr, t, h⟩ := ioLoop_returns [brokenOff, sampleSentence.text] true
  have hnone : (ioLoop [brokenOff, sampleSentence.text] (cleared true)).toOption.map
      (fun r => r.1.all fun x => x.obs.isNone) = some true := by
    decide +kernel
  rw [h] at hnone
  refine ⟨tr, t, h, fun x hx => ?_⟩
  have hall : (tr.all fun x => x.obs.isNone) = true := Option.some.inj hnone
  exact Option.isNone_iff_eq_none.mp (List.all_eq_true.mp hall x hx)

/-- The same sentence at the start of the stream brings one. -/
theorem sample_recognised : ∃ tr t x, ioLoop [sampleSentence.text] (cleared true) = .ok (tr, t) ∧
    tr[sampleSentence.text.length - 1]? = some x ∧ x.obs.isSome = true := by
  obtain ⟨tr, t, h, hall⟩ := callback_iff_receptive [sampleSentence.text] true
  obtain ⟨y, x, hy, hx, hiff⟩ := hall rfl [] sampleSentence [] (by simp)
  refine ⟨tr, t, x, h, hx, hiff.mpr (.inl ?_)⟩
  rw [ioLoop_eq] at h
  cases tr with
  | nil => simp at hy
  | cons z tr =>
      obtain rfl : z = y := by simpa using hy
      rw [pre_of_run h]
      decide

/-! ## What the callback is told to read -/

/-- The places a run can be in. -/
lemma places {reads : List (List UInt8)} {cb : Bool} {tr : List SynchroTurn} {t : Synchro}
    (h : ioLoop reads (cleared cb) = .ok (tr, t)) :
    ∀ x ∈ tr, x.Taken decodeByte ∧ x.pre.curLen ≤ 128 ∧ x.pre.syncTimerCb = cb := by
  rw [ioLoop_eq] at h
  have hexec : Exec decodeByte (cleared cb) tr t := Exec.of_run h
  have hinv := hexec.invariant (I := fun s => s.curLen ≤ 128 ∧ s.syncTimerCb = cb)
    (C := fun _ => True) ⟨Nat.zero_le 128, rfl⟩ (fun x hx _ hpre => by
      obtain ⟨u, o, hu, hlen, hcb, -⟩ := takesByte hpre.1 x.event
      obtain ⟨rfl, -⟩ : x.post = u ∧ x.obs = o := by
        have hx' : x.pre.decodeByte x.event = .ok (x.post, x.obs) := hx
        simpa [hx'] using hu
      exact ⟨hlen, hcb.trans hpre.2⟩) (fun _ _ => trivial)
  exact fun x hx => ⟨hexec.taken x hx, (hinv.2 x hx).1⟩

/-- A report is made where the machine makes one, and its length leaves out the last byte. -/
lemma report_eq {x : SynchroTurn} {r : Report} (hx : x.Taken decodeByte) (hlen : x.pre.curLen ≤ 128)
    (hr : r ∈ x.obs) : r.text = x.pre.held ∧ r.sentence = x.pre.held ++ [x.event] ∧
      Fires x.pre.held x.event := by
  obtain ⟨t, o, ht, -, -, hrec, htext⟩ := takesByte hlen x.event
  obtain ⟨-, rfl⟩ : x.post = t ∧ x.obs = o := by
    have hx' : x.pre.decodeByte x.event = .ok (x.post, x.obs) := hx
    simpa [hx'] using ht
  have hobs : (recognise x.pre.syncTimerCb x.pre.held x.event).2 = some r.sentence := by
    rw [← hrec, show x.obs = some r from hr]
    rfl
  obtain ⟨⟨-, hf⟩, hsentence⟩ := (recognise_obs _ _ _ _).mp hobs
  exact ⟨htext r hr, hsentence, hf⟩

/-- What the callback is told to read is never a complete sentence. -/
lemma report_incomplete {reads : List (List UInt8)} {cb : Bool} {tr : List SynchroTurn}
    {t : Synchro} (h : ioLoop reads (cleared cb) = .ok (tr, t)) :
    ∀ x ∈ tr, ∀ r ∈ x.obs, ¬ CompleteSentence r.text := by
  intro x hx r hr hcomplete
  obtain ⟨htaken, hlen, -⟩ := places h x hx
  obtain ⟨hheld, -, hlo, -, hcomp⟩ := report_eq htaken hlen hr
  obtain ⟨l, s, c, hl⟩ := exists_last_two (show 2 ≤ x.pre.held.length by omega)
  rw [hl, completes_append] at hcomp
  rw [hheld, hl, hcomp.1] at hcomplete
  exact not_completeSentence l c hcomplete

/-- **Soundness fails at the last digit.**  On no stream that brings a callback are the texts
reported complete sentences: they are so, having none to be, exactly where no byte ever passes the
checksum test. -/
theorem sound_iff_silent {reads : List (List UInt8)} {tr : List SynchroTurn} {t : Synchro}
    (h : ioLoop reads (cleared true) = .ok (tr, t)) :
    (∀ x ∈ tr, ∀ r ∈ x.obs, CompleteSentence r.text ∧ r.text <:+: reads.flatten) ↔
      ∀ x ∈ tr, ¬ Fires x.pre.held x.event := by
  constructor
  · intro hsound x hx hfires
    obtain ⟨htaken, hlen, hcb⟩ := places h x hx
    have hsome := (obs_isSome_iff hlen hcb htaken).mpr hfires
    obtain ⟨r, hr⟩ := Option.isSome_iff_exists.mp hsome
    exact report_incomplete h x hx r hr (hsound x hx r hr).1
  · intro hsilent x hx r hr
    obtain ⟨htaken, hlen, -⟩ := places h x hx
    exact absurd (report_eq htaken hlen hr).2.2 (hsilent x hx)

/-- What the callback is told to read of the sentence, at the start of the stream. -/
lemma sample_reports {tr : List SynchroTurn} {t : Synchro}
    (h : ioLoop [sampleSentence.text] (cleared true) = .ok (tr, t)) :
    ∃ x ∈ tr, ∃ r ∈ x.obs, r.text = sampleSentence.front := by
  have hreports : (ioLoop [sampleSentence.text] (cleared true)).toOption.map
      (fun r => (r.1.filterMap Turn.obs).map Report.text) = some [sampleSentence.front] := by
    decide +kernel
  rw [h] at hreports
  have hmem : sampleSentence.front ∈ (tr.filterMap Turn.obs).map Report.text := by
    rw [show (tr.filterMap Turn.obs).map Report.text = [sampleSentence.front] from
      Option.some.inj hreports]
    simp
  obtain ⟨r, hr, htext⟩ := List.mem_map.mp hmem
  obtain ⟨x, hx, hobs⟩ := List.mem_filterMap.mp hr
  exact ⟨x, hx, r, hobs, htext⟩

/-- The sentence is complete and correct; what the callback is told to read of it is not. -/
theorem sample_reported_short : ∃ tr t,
    ioLoop [sampleSentence.text] (cleared true) = .ok (tr, t) ∧
      CompleteSentence sampleSentence.text ∧
      ∃ x ∈ tr, ∃ r ∈ x.obs, r.text = sampleSentence.front ∧ ¬ CompleteSentence r.text := by
  obtain ⟨tr, t, h⟩ := ioLoop_returns [sampleSentence.text] true
  obtain ⟨x, hx, r, hr, htext⟩ := sample_reports h
  have hcomplete : CompleteSentence sampleSentence.text := by
    refine ⟨.inl rfl, sampleSentence.beforeStar, sampleSentence.high, sampleSentence.low, ?_,
      sampleSentence.checksum_eq⟩
    rw [RmcSentence.text, RmcSentence.front_eq, List.append_assoc]
    rfl
  refine ⟨tr, t, h, hcomplete, x, hx, r, hr, htext, ?_⟩
  rw [htext, RmcSentence.front_eq]
  exact not_completeSentence _ _

/-- The run above is not silent, so it is not sound. -/
theorem sample_unsound : ∃ tr t, ioLoop [sampleSentence.text] (cleared true) = .ok (tr, t) ∧
    ¬ ∀ x ∈ tr, ¬ Fires x.pre.held x.event := by
  obtain ⟨tr, t, h⟩ := ioLoop_returns [sampleSentence.text] true
  obtain ⟨x, hx, r, hr, htext⟩ := sample_reports h
  refine ⟨tr, t, h, fun hsilent => ?_⟩
  have hcomplete := ((sound_iff_silent h).mpr hsilent x hx r hr).1
  rw [htext, RmcSentence.front_eq] at hcomplete
  exact not_completeSentence _ _ hcomplete

/-- One byte more, and what is reported is a piece of the stream with a header, a `*` and two
characters that `sscanf` reads as the checksum. -/
theorem report_sentence {reads : List (List UInt8)} {tr : List SynchroTurn} {t : Synchro}
    (h : ioLoop reads (cleared true) = .ok (tr, t)) :
    ∀ x ∈ tr, ∀ r ∈ x.obs, r.sentence <:+: reads.flatten ∧ AtHeader r.sentence ∧
      ∃ l c d, r.sentence = l ++ [star, c, d] ∧
        xorSum l.tail = (scanHex (crcText c d)).toUInt8 := by
  have hplaces := places h
  rw [ioLoop_eq] at h
  have hexec : Exec decodeByte (cleared true) tr t := Exec.of_run h
  have hevents := events_of_run h
  have hhist := hexec.history (C := fun x => x.pre.curLen ≤ 128)
    (P := fun tr t => (t.syncTimerCb = true ∧ HeldOf (tr.map Turn.event) t.held) ∧
      ∀ x ∈ tr, ∀ r ∈ x.obs, r.sentence <:+: tr.map Turn.event ∧ AtHeader r.sentence)
    ⟨⟨rfl, List.nil_suffix, by simp⟩, by simp⟩ ?_ fun x hx => (hplaces x hx).2.1
  · intro x hx r hr
    obtain ⟨hpiece, hat⟩ := hhist.2 x hx r hr
    obtain ⟨-, hsentence, hlo, -, hcomp⟩ := report_eq (hplaces x hx).1 (hplaces x hx).2.1 hr
    obtain ⟨l, s, c, hl⟩ := exists_last_two (show 2 ≤ x.pre.held.length by omega)
    rw [hl, completes_append] at hcomp
    rw [hevents] at hpiece
    refine ⟨hpiece, hat, l, c, x.event, ?_, hcomp.2⟩
    rw [hsentence, hl, hcomp.1]
    simp
  · rintro tr x - hx hlen ⟨⟨hcb, hheld⟩, hall⟩
    obtain ⟨u, o, hu, -, hucb, hrec, -⟩ := takesByte hlen x.event
    obtain ⟨rfl, rfl⟩ : x.post = u ∧ x.obs = o := by
      have hx' : x.pre.decodeByte x.event = .ok (x.post, x.obs) := hx
      simpa [hx'] using hu
    rw [hcb] at hucb hrec
    have hnext := recognise_heldOf hheld x.event
    rw [← hrec] at hnext
    have hevent : (tr ++ [x]).map Turn.event = tr.map Turn.event ++ [x.event] := by simp
    rw [hevent]
    refine ⟨⟨hucb, hnext⟩, fun y hy r hr => ?_⟩
    obtain hy | hy := List.mem_append.mp hy
    · obtain ⟨hpiece, hat⟩ := hall y hy r hr
      exact ⟨hpiece.trans (List.prefix_append _ _).isInfix, hat⟩
    · obtain rfl := List.mem_singleton.mp hy
      obtain ⟨-, hsentence, hlo, -⟩ := report_eq hx hlen hr
      rw [hsentence]
      refine ⟨?_, atHeader_append (hheld.2 hlo) hlo _⟩
      obtain ⟨p, hp⟩ := hheld.1
      exact ⟨p, [], by rw [← hp]; simp⟩

end Synchro

end FastLivo2
