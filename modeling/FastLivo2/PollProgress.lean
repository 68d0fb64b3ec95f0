import FastLivo2.DriverQueues
import FastLivo2.PollThreads

/-!
# Nobody waits in vain

The thread that stores raises the semaphore only where it finds it lowered, and the one that
publishes lowers it before it goes through the lidars.  So whenever an item is in the queue of a
lidar that samples, the semaphore is raised or about to be, or the lidar is still to be visited
(`Covered`), unless the lidar had its settings only after all of its items had come
(`wakes_of_exec`).  Left alone the thread publishes what there is and waits (`drains_of_exec`).

Nobody raises the semaphore for the shutdown: a thread that waits for it then never ends
(`exits_iff`).
-/

namespace FastLivo2

namespace PollThreads

variable {Q α β : Type*} {H : HandoffQueue Q α β} {p : Publishing} {lidarCount : ℕ}
  {s s' t : PollThreads Q α β} {o : Option (PollSeen α β)} {l : ℕ → List β}
  {tr : List (Turn (PollThreads Q α β) (PollEvent α) (Option (PollSeen α β)))} {i : ℕ}

/-! ## What a run stores and takes -/

/-- The items of a lidar that are stored over a run. -/
def stored (i : ℕ) (tr : List (Turn (PollThreads Q α β) (PollEvent α) (Option (PollSeen α β)))) :
    List β := tr.flatMap fun x => storedOf i x.obs

/-- The items that are taken. -/
def taken (i : ℕ) (tr : List (Turn (PollThreads Q α β) (PollEvent α) (Option (PollSeen α β)))) :
    List β := tr.flatMap fun x => takenOf i x.obs

/-! ## Wake-ups -/

/-- The thread that stores will look at the semaphore for an item of lidar `i`. -/
def Storing.Signals (i : ℕ) : Storing α → Prop
  | .queueIsEmpty j => j = i
  | .getCount | .signal => True
  | _ => False

/-- The thread that publishes comes to lidar `i` before it waits again. -/
def Polling.Visits (i : ℕ) : Polling β → Prop
  | .lidar j | .polling j | .publish j | .rdIdx j _ => j ≤ i
  | _ => False

/-- An item of lidar `i` will be found. -/
def Covered (s : PollThreads Q α β) (i : ℕ) : Prop :=
  0 < s.semaphore ∨ Storing.Signals i s.storing ∨ Polling.Visits i s.polling

lemma visits_afterItem {j : ℕ} (h : j ≤ i) : Polling.Visits (β := β) i (afterItem p j) := by
  unfold afterItem
  split_ifs <;> exact h

/-- The thread that stores leaves no item behind. -/
lemma Covered.store (h : s.Covered i) (hs : Sound H s l) (hne : l i ≠ [])
    (hstep : StoreStep H s o s') : s'.Covered i := by
  have hquiet : ¬Storing.Signals i s.storing → 0 < s.semaphore ∨ Polling.Visits i s.polling :=
    fun hnot => h.imp_right fun hc => hc.resolve_left hnot
  cases hstep with
  | prepare next => exact (hquiet (by rw [next]; exact not_false)).imp_right .inr
  | refuse next full => exact .inr (.inl trivial)
  | room next full => exact (hquiet (by rw [next]; exact not_false)).imp_right .inr
  | write next => exact (hquiet (by rw [next]; exact not_false)).imp_right .inr
  | advance next => exact (hquiet (by rw [next]; exact not_false)).imp_right .inr
  | @gone j next empty =>
      refine (hquiet ?_).imp_right .inr
      rw [next]
      rintro rfl
      exact hne ((H.empty_iff (hs.holds j)).mp empty)
  | waits next empty => exact .inr (.inl trivial)
  | raised next pos => exact .inl pos
  | lowered next zero => exact .inr (.inl trivial)
  | signal next => exact .inl (Nat.succ_pos _)

/-- Nor does the thread that publishes, at a lidar that samples. -/
lemma Covered.poll (h : s.Covered i) (hs : Sound H s l) (hne : l i ≠ [])
    (hexit : s.requestExit = false) (hi : i < lidarCount) (hsampling : s.sampling i = true)
    (hstep : PollStep H p lidarCount s o s') : s'.Covered i := by
  -- the lidar is passed only after its queue was empty
  have hpass : ∀ {j : ℕ}, j ≤ i → j ≠ i → j + 1 ≤ i := fun hle hne => by omega
  have hempty : H.empty (s.queue i) ≠ true := fun hempty =>
    hne ((H.empty_iff (hs.holds i)).mp hempty)
  have hmoves : ∀ {next : Polling β}, (Polling.Visits i s.polling → Polling.Visits i next) →
      0 < s.semaphore ∨ Storing.Signals i s.storing ∨ Polling.Visits i next := fun hnext =>
    h.imp_right (Or.imp_right hnext)
  cases hstep with
  | exits next exit => exact absurd (exit.symm.trans hexit) (by simp)
  | enters next exit => exact hmoves (by rw [next]; exact False.elim)
  | acquire next pos => exact .inr (.inr (Nat.zero_le i))
  | swept next last =>
      refine hmoves ?_
      rw [next]
      exact fun hle => absurd (last.trans hle) (by omega)
  | visit next lidar sampling => exact hmoves (by rw [next]; exact id)
  | @skip j next lidar why =>
      refine hmoves ?_
      rw [next]
      refine fun hle => hpass hle ?_
      rintro rfl
      rcases why with hoff | habsent
      · exact absurd (hoff.symm.trans hsampling) (by simp)
      · exact hne (H.absent_nil (hs.holds j) habsent)
  | found next exit empty => exact hmoves (by rw [next]; exact id)
  | @leave j next why =>
      refine hmoves ?_
      rw [next]
      refine fun hle => hpass hle ?_
      rintro rfl
      rcases why with hquit | hnone
      · exact absurd (hquit.symm.trans hexit) (by simp)
      · exact hempty hnone
  | returns next why => exact hmoves (by rw [next]; exact id)
  | misses next empty item => exact hmoves (by rw [next]; exact visits_afterItem)
  | copy next takes empty item => exact hmoves (by rw [next]; exact id)
  | drop next => exact hmoves (by rw [next]; exact visits_afterItem)
  | ends next signal => exact hmoves (by rw [next]; exact False.elim)
  | again next signal => exact hmoves (by rw [next]; exact False.elim)

/-- **A step** leaves no item behind. -/
lemma Covered.step (h : s.Covered i) (hs : Sound H s l) (hne : l i ≠ [])
    (hexit : s'.requestExit = false) (hi : i < lidarCount) (hsampling : s.sampling i = true)
    {ev : PollEvent α} (hstep : Steps H p lidarCount s ev o s') : s'.Covered i := by
  cases hstep with
  | arrive idle lidar =>
      have hquiet : ¬Storing.Signals i s.storing := by
        rw [idle]
        exact not_false
      exact h.imp_right fun hc => .inr (hc.resolve_left hquiet)
  | store step => exact h.store hs hne step
  | poll step =>
      refine h.poll hs hne ?_ hi hsampling step
      cases step <;> exact hexit
  | connect => exact h
  | requestExit => exact h
  | setValue => exact h

/-- An item that is stored will be found. -/
lemma covered_of_stored {ev : PollEvent α} (hstep : Steps H p lidarCount s ev o s')
    (hstored : storedOf i o ≠ []) : s'.Covered i := by
  cases hstep with
  | store step =>
      cases step with
      | @advance j a next =>
          refine .inr (.inl ?_)
          by_contra hne
          exact hstored (if_neg hne)
      | _ => exact absurd rfl hstored
  | poll step => cases step <;> exact absurd rfl hstored
  | _ => exact absurd rfl hstored

/-- The lidar had its settings after the last of its items was stored. -/
def Late (i : ℕ) (tr : List (Turn (PollThreads Q α β) (PollEvent α) (Option (PollSeen α β)))) :
    Prop :=
  ∃ tr₁ x tr₂, tr = tr₁ ++ x :: tr₂ ∧ x.event = .connect i ∧ stored i tr₂ = []

lemma Late.snoc (h : Late i tr)
    {x : Turn (PollThreads Q α β) (PollEvent α) (Option (PollSeen α β))}
    (hx : storedOf i x.obs = []) : Late i (tr ++ [x]) := by
  obtain ⟨tr₁, y, tr₂, rfl, hy, hnone⟩ := h
  refine ⟨tr₁, y, tr₂ ++ [x], by simp, hy, ?_⟩
  unfold stored at hnone ⊢
  rw [List.flatMap_append, hnone, List.flatMap_singleton, hx, List.nil_append]

/-- A step leaves alone which lidars sample, and what is asked of the threads, but for its own
event. -/
lemma Steps.requestExit_of_true {ev : PollEvent α} (hstep : Steps H p lidarCount s ev o s')
    (h : s.requestExit = true) : s'.requestExit = true := by
  cases hstep with
  | store step => cases step <;> exact h
  | poll step => cases step <;> exact h
  | requestExit => rfl
  | _ => exact h

lemma Steps.event_of_sampling {ev : PollEvent α} (hstep : Steps H p lidarCount s ev o s')
    (hwas : s.sampling i ≠ true) (h : s'.sampling i = true) : ev = .connect i := by
  cases hstep with
  | store step => cases step <;> exact absurd h hwas
  | poll step => cases step <;> exact absurd h hwas
  | @connect j =>
      by_cases hj : i = j
      · rw [hj]
      · exact absurd ((Function.update_of_ne hj true s.sampling).symm.trans h) hwas
  | _ => exact absurd h hwas

/-- What a lidar that samples has in its queue will be found, or came before it sampled. -/
lemma covered_of_exec (h : Exec (step H p lidarCount) (start H) tr t) :
    ∃ l, Sound H t l ∧ (∀ i, stored i tr = taken i tr ++ l i) ∧ (t.requestExit = false →
      ∀ i < lidarCount, t.sampling i = true → l i ≠ [] → t.Covered i ∨ Late i tr) := by
  refine h.history (P := fun tr t => ∃ l, Sound H t l ∧ (∀ i, stored i tr = taken i tr ++ l i) ∧
    (t.requestExit = false → ∀ i < lidarCount, t.sampling i = true → l i ≠ [] →
      t.Covered i ∨ Late i tr)) (C := fun _ => True)
    ⟨fun _ => [], sound_start H, fun i => rfl, fun _ i _ _ hne => absurd rfl hne⟩ ?_
    fun _ _ => trivial
  rintro tr x - hx - ⟨l, hsound, horder, hcovered⟩
  have hstep := steps_of_step hx
  obtain ⟨l', hsound', hbalance⟩ := hsound.step hstep
  refine ⟨l', hsound', fun i => ?_, fun hexit i hi hsampling hne => ?_⟩
  · unfold stored taken at horder ⊢
    rw [List.flatMap_append, List.flatMap_append, List.flatMap_singleton, List.flatMap_singleton,
      horder, List.append_assoc, hbalance, List.append_assoc]
  by_cases hstored : storedOf i x.obs = []
  swap
  · exact .inl (covered_of_stored hstep hstored)
  have hbefore : l i ≠ [] := by
    intro hnil
    have hnone := hbalance i
    rw [hnil, hstored, List.append_nil] at hnone
    exact hne (List.append_eq_nil_iff.mp hnone.symm).2
  have hopen : x.pre.requestExit = false := by
    cases hexit' : x.pre.requestExit with
    | false => rfl
    | true =>
        rw [hstep.requestExit_of_true hexit'] at hexit
        cases hexit
  by_cases hwas : x.pre.sampling i = true
  · rcases hcovered hopen i hi hwas hbefore with hc | hlate
    · exact .inl (hc.step hsound hbefore hexit hi hwas hstep)
    · exact .inr (hlate.snoc hstored)
  · exact .inr ⟨tr, x, [], rfl, hstep.event_of_sampling hwas hsampling, rfl⟩

/-- **In order.**  Whatever the schedule, the items of a lidar that are stored over a run are those
taken, in order and as they were stored, and then those in its queue. -/
theorem order_of_exec (h : Exec (step H p lidarCount) (start H) tr t) :
    ∃ l : ℕ → List β, (∀ i, H.Holds (t.queue i) (l i)) ∧
      ∀ i, stored i tr = taken i tr ++ l i := by
  obtain ⟨l, hsound, horder, -⟩ := covered_of_exec h
  exact ⟨l, hsound.holds, horder⟩

/-- **Nobody waits in vain.**  When the thread that publishes is blocked and the other idle, all
items of a lidar that samples have been taken, unless it had its settings only after them. -/
theorem wakes_of_exec (h : Exec (step H p lidarCount) (start H) tr t)
    (hexit : t.requestExit = false) (hidle : t.storing = .idle) (hwait : t.polling = .wait)
    (hsemaphore : t.semaphore = 0) :
    ∀ i < lidarCount, t.sampling i = true → taken i tr = stored i tr ∨ Late i tr := by
  obtain ⟨l, -, horder, hcovered⟩ := covered_of_exec h
  intro i hi hsampling
  by_cases hnil : l i = []
  · refine .inl ?_
    rw [horder, hnil, List.append_nil]
  · refine .inr ((hcovered hexit i hi hsampling hnil).resolve_left ?_)
    rintro (hpos | hsignals | hvisits)
    · omega
    · rw [hidle] at hsignals
      exact hsignals
    · rw [hwait] at hvisits
      exact hvisits

/-! ## Progress -/

/-- The thread publishes of a lidar that there is. -/
def Polling.InRange (lidarCount : ℕ) : Polling β → Prop
  | .polling i | .publish i | .rdIdx i _ => i < lidarCount
  | _ => True

lemma inRange_afterItem (hi : i < lidarCount) :
    Polling.InRange (β := β) lidarCount (afterItem p i) := by
  unfold afterItem
  split_ifs <;> exact hi

lemma PollStep.inRange (h : Polling.InRange lidarCount s.polling)
    (hstep : PollStep H p lidarCount s o s') : Polling.InRange lidarCount s'.polling := by
  cases hstep with
  | visit next lidar sampling => exact lidar
  | found next exit empty => rwa [next] at h
  | returns next why => rwa [next] at h
  | misses next empty item => exact inRange_afterItem (by rwa [next] at h)
  | copy next takes empty item => rwa [next] at h
  | drop next => exact inRange_afterItem (by rwa [next] at h)
  | _ => trivial

lemma Steps.inRange {ev : PollEvent α} (h : Polling.InRange lidarCount s.polling)
    (hstep : Steps H p lidarCount s ev o s') : Polling.InRange lidarCount s'.polling := by
  cases hstep with
  | store step => cases step <;> exact h
  | poll step => exact step.inRange h
  | _ => exact h

lemma inRange_of_exec (h : Exec (step H p lidarCount) (start H) tr t) :
    Polling.InRange lidarCount t.polling := by
  have hstart : Polling.InRange lidarCount (start H).polling := trivial
  exact (h.invariant (I := fun s => Polling.InRange lidarCount s.polling) (C := fun _ => True)
    hstart (fun x hx _ hpre => (steps_of_step hx).inRange hpre) fun _ _ => trivial).1

/-- How far the thread is from the end of a round, or from its own end. -/
def stage (lidarCount : ℕ) (s : PollThreads Q α β) : ℕ :=
  match s.polling with
  | .ended => 0
  | .wait => if s.requestExit then 3 else 1
  | .distribute => 2
  | .future => if s.requestExit then 1 else 3
  | .lidar i | .polling i | .publish i | .rdIdx i _ => 4 + (lidarCount - i)

/-- The items in the queue of the lidar it visits. -/
def remaining (H : HandoffQueue Q α β) (s : PollThreads Q α β) : ℕ :=
  match s.polling with
  | .lidar i | .polling i | .publish i | .rdIdx i _ => H.used (s.queue i)
  | _ => 0

/-- How far it is from taking an item, or from passing a lidar that has none. -/
def turn (H : HandoffQueue Q α β) (p : Publishing) (s : PollThreads Q α β) : ℕ :=
  match s.polling with
  | .lidar _ => 4
  | .polling i => if s.requestExit || H.empty (s.queue i) then 0 else 3
  | .publish i => if p = .nothing ∨ H.empty (s.queue i) = true then 1 else 2
  | .rdIdx _ _ => 1
  | _ => 0

/-- The measure of the thread that publishes. -/
def rank (H : HandoffQueue Q α β) (p : Publishing) (lidarCount : ℕ) (s : PollThreads Q α β) :
    ℕ ×ₗ ℕ ×ₗ ℕ ×ₗ ℕ :=
  toLex (s.semaphore, toLex (s.stage lidarCount, toLex (s.remaining H, s.turn H p)))

lemma rank_lt_of_semaphore (h : s'.semaphore < s.semaphore) :
    rank H p lidarCount s' < rank H p lidarCount s :=
  Prod.Lex.toLex_lt_toLex.mpr (.inl h)

lemma rank_lt_of_stage (hsemaphore : s'.semaphore = s.semaphore)
    (h : s'.stage lidarCount < s.stage lidarCount) :
    rank H p lidarCount s' < rank H p lidarCount s :=
  Prod.Lex.toLex_lt_toLex.mpr (.inr ⟨hsemaphore, Prod.Lex.toLex_lt_toLex.mpr (.inl h)⟩)

lemma rank_lt_of_remaining (hsemaphore : s'.semaphore = s.semaphore)
    (hstage : s'.stage lidarCount = s.stage lidarCount) (h : s'.remaining H < s.remaining H) :
    rank H p lidarCount s' < rank H p lidarCount s :=
  Prod.Lex.toLex_lt_toLex.mpr (.inr ⟨hsemaphore, Prod.Lex.toLex_lt_toLex.mpr
    (.inr ⟨hstage, Prod.Lex.toLex_lt_toLex.mpr (.inl h)⟩)⟩)

lemma rank_lt_of_turn (hsemaphore : s'.semaphore = s.semaphore)
    (hstage : s'.stage lidarCount = s.stage lidarCount)
    (hremaining : s'.remaining H = s.remaining H) (h : s'.turn H p < s.turn H p) :
    rank H p lidarCount s' < rank H p lidarCount s :=
  Prod.Lex.toLex_lt_toLex.mpr (.inr ⟨hsemaphore, Prod.Lex.toLex_lt_toLex.mpr
    (.inr ⟨hstage, Prod.Lex.toLex_lt_toLex.mpr (.inr ⟨hremaining, h⟩)⟩)⟩)

/-- An item that is dropped is one fewer. -/
lemma used_drop (hs : Sound H s l) {b : β} (hnext : s.polling = .rdIdx i b) :
    H.used (H.drop (s.queue i)) < H.used (s.queue i) := by
  obtain ⟨k, hk⟩ := List.head?_eq_some_iff.mp (hs.copied i b hnext)
  have hqueue := hk ▸ hs.holds i
  rw [H.used_eq (H.drop_holds hqueue), H.used_eq hqueue, List.length_cons]
  exact Nat.lt_succ_self _

/-- **Each step of the thread lowers the measure**, whether it is to end or not. -/
lemma PollStep.lowers (hs : Sound H s l) (hrange : Polling.InRange lidarCount s.polling)
    (hkind : s.exitSignal = s.requestExit) (hp : p ≠ .nothing ∨ s.requestExit = true)
    (hstep : PollStep H p lidarCount s o s') :
    rank H p lidarCount s' < rank H p lidarCount s := by
  cases hstep with
  | exits next exit => exact rank_lt_of_stage rfl (by simp [stage, next, exit])
  | enters next exit => exact rank_lt_of_stage rfl (by simp [stage, next, exit])
  | acquire next pos => exact rank_lt_of_semaphore (Nat.sub_lt pos Nat.one_pos)
  | swept next last =>
      refine rank_lt_of_stage rfl ?_
      simp only [stage, next]
      split_ifs <;> omega
  | visit next lidar sampling =>
      refine rank_lt_of_turn rfl (by simp [stage, next]) (by simp [remaining, next]) ?_
      simp only [turn, next]
      split_ifs <;> omega
  | skip next lidar why =>
      refine rank_lt_of_stage rfl ?_
      simp only [stage, next]
      omega
  | found next exit empty =>
      refine rank_lt_of_turn rfl (by simp [stage, next]) (by simp [remaining, next]) ?_
      have hthree : s.turn H p = 3 := by simp [turn, next, exit, empty]
      rw [hthree]
      simp only [turn]
      split_ifs <;> omega
  | @leave i next why =>
      have hi : i < lidarCount := by rwa [next] at hrange
      refine rank_lt_of_stage rfl ?_
      simp only [stage, next]
      omega
  | @returns i next why =>
      have hleaves : (s.requestExit || H.empty (s.queue i)) = true := by
        rw [Bool.or_eq_true]
        rcases why with hnothing | hempty
        · exact .inl (hp.resolve_left (not_not.mpr hnothing))
        · exact .inr hempty
      refine rank_lt_of_turn rfl (by simp [stage, next]) (by simp [remaining, next]) ?_
      simp only [turn, next, hleaves, if_true, if_pos why]
      omega
  | @misses i next empty item =>
      cases hl : l i with
      | nil => exact absurd ((H.empty_iff (hs.holds i)).mpr hl) (by simp [empty])
      | cons b k => exact absurd ((H.peek_eq (hl ▸ hs.holds i)).symm.trans item) (by simp)
  | copy next takes empty item =>
      refine rank_lt_of_turn rfl (by simp [stage, next]) (by simp [remaining, next]) ?_
      simp [turn, next, takes, empty]
  | @drop i b next =>
      have hfewer := used_drop hs next
      unfold afterItem
      split_ifs
      · exact rank_lt_of_remaining rfl (by simp [stage, next]) (by simpa [remaining, next])
      · exact rank_lt_of_remaining rfl (by simp [stage, next]) (by simpa [remaining, next])
  | ends next signal =>
      refine rank_lt_of_stage rfl ?_
      simp only [stage, next]
      split_ifs <;> omega
  | again next signal =>
      have hexit : s.requestExit = false := hkind.symm.trans signal
      exact rank_lt_of_stage rfl (by simp [stage, next, hexit])

/-- The thread is blocked for the semaphore. -/
def Waits (s : PollThreads Q α β) : Prop := s.polling = .wait ∧ s.semaphore = 0

/-- The thread takes its next step, unless it is blocked or has ended. -/
lemma exists_poll (hwaits : ¬s.Waits) (hended : s.polling ≠ .ended) :
    ∃ s' o, s.step H p lidarCount .poll = .ok (s', o) := by
  unfold step poll
  cases hnext : s.polling with
  | wait =>
      have hpos : 0 < s.semaphore := Nat.pos_of_ne_zero fun hzero => hwaits ⟨hnext, hzero⟩
      simp only [if_pos hpos]
      exact ⟨_, _, rfl⟩
  | ended => exact absurd hnext hended
  | lidar i =>
      dsimp only
      split_ifs <;> exact ⟨_, _, rfl⟩
  | polling i =>
      dsimp only
      split_ifs <;> exact ⟨_, _, rfl⟩
  | publish i =>
      dsimp only
      split_ifs
      · exact ⟨_, _, rfl⟩
      · split <;> exact ⟨_, _, rfl⟩
  | _ => exact ⟨_, _, rfl⟩

/-- A step of the thread that publishes leaves alone where the other one is and what is asked. -/
lemma PollStep.frame (hstep : PollStep H p lidarCount s o s') :
    s'.storing = s.storing ∧ s'.sampling = s.sampling ∧ s'.requestExit = s.requestExit ∧
      s'.exitSignal = s.exitSignal ∧ ∀ i, storedOf i o = [] := by
  cases hstep <;> exact ⟨rfl, rfl, rfl, rfl, fun _ => rfl⟩

/-- What stands while only the thread that publishes goes on from `t`. -/
structure Alone (H : HandoffQueue Q α β) (lidarCount : ℕ) (t s : PollThreads Q α β) : Prop where
  sound : ∃ l, Sound H s l
  inRange : Polling.InRange lidarCount s.polling
  storing : s.storing = t.storing
  sampling : s.sampling = t.sampling
  requestExit : s.requestExit = t.requestExit
  exitSignal : s.exitSignal = t.exitSignal

lemma alone_of_exec (h : Exec (step H p lidarCount) (start H) tr t) : Alone H lidarCount t t := by
  obtain ⟨l, hsound, -⟩ := covered_of_exec h
  exact ⟨⟨l, hsound⟩, inRange_of_exec h, rfl, rfl, rfl, rfl⟩

/-- **Left alone the thread comes to an end of its own**: it is blocked, or it has ended. -/
lemma exec_alone (h : Exec (step H p lidarCount) (start H) tr t)
    (hkind : t.exitSignal = t.requestExit) (hp : p ≠ .nothing ∨ t.requestExit = true) :
    ∃ tr' t', Exec (step H p lidarCount) t tr' t' ∧ (∀ x ∈ tr', x.event = .poll) ∧
      Alone H lidarCount t t' ∧ (t'.Waits ∨ t'.polling = .ended) := by
  refine Exec.reaches (I := Alone H lidarCount t) (r := fun s' s => rank H p lidarCount s' <
    rank H p lidarCount s) (InvImage.wf (rank H p lidarCount) wellFounded_lt) ?_ (alone_of_exec h)
  intro s hs hdone
  rw [not_or] at hdone
  obtain ⟨s', o, hstep⟩ : ∃ s' o, s.poll H p lidarCount = .ok (s', o) :=
    exists_poll hdone.1 hdone.2
  have hpoll : PollStep H p lidarCount s o s' := pollStep_of_poll hstep
  obtain ⟨l, hsound⟩ := hs.sound
  obtain ⟨l', hsound', -⟩ := hsound.poll hpoll
  obtain ⟨hstoring, hsampling, hexit, hsignal, -⟩ := hpoll.frame
  refine ⟨⟨s, .poll, o, s'⟩, rfl, hstep, rfl, ?_, ⟨l', hsound'⟩, hpoll.inRange hs.inRange,
    hstoring.trans hs.storing, hsampling.trans hs.sampling, hexit.trans hs.requestExit,
    hsignal.trans hs.exitSignal⟩
  refine hpoll.lowers hsound hs.inRange ?_ ?_
  · rw [hs.exitSignal, hs.requestExit, hkind]
  · rw [hs.requestExit]
    exact hp

lemma Steps.exitSignal_of_true {ev : PollEvent α} (hstep : Steps H p lidarCount s ev o s')
    (h : s.exitSignal = true) : s'.exitSignal = true := by
  cases hstep with
  | store step => cases step <;> exact h
  | poll step => exact step.frame.2.2.2.1.trans h
  | setValue => rfl
  | _ => exact h

/-- A thread that has not been told to end had ended before. -/
lemma Steps.ended_before {ev : PollEvent α} (hstep : Steps H p lidarCount s ev o s')
    (hsignal : s.exitSignal = false) (h : s'.polling = .ended) : s.polling = .ended := by
  cases hstep with
  | store step => cases step <;> exact h
  | poll step =>
      cases step with
      | ends next signal => exact absurd (signal.symm.trans hsignal) (by simp)
      | misses =>
          unfold afterItem at h
          split_ifs at h
      | drop =>
          unfold afterItem at h
          split_ifs at h
      | _ => cases h
  | _ => exact h

/-- A blocked thread has no step. -/
lemma Waits.not_pollStep (h : s.Waits) : ¬PollStep H p lidarCount s o s' := by
  intro hstep
  have hzero := h.2
  cases hstep with
  | acquire next pos => omega
  | _ next => exact absurd (h.1.symm.trans next) (by simp)

/-- A thread that is to exit does not come to wait. -/
lemma PollStep.ne_wait (hstep : PollStep H p lidarCount s o s') (hexit : s.requestExit = true) :
    s'.polling ≠ .wait := by
  cases hstep with
  | enters next exit => exact absurd (exit.symm.trans hexit) (by simp)
  | misses =>
      unfold afterItem
      split_ifs <;> exact nofun
  | drop =>
      unfold afterItem
      split_ifs <;> exact nofun
  | _ => exact nofun

/-- The thread ends only when it has been told to. -/
lemma exitSignal_of_ended (h : Exec (step H p lidarCount) (start H) tr t)
    (hended : t.polling = .ended) : t.exitSignal = true := by
  refine (h.invariant (I := fun s => s.polling = .ended → s.exitSignal = true)
    (C := fun _ => True) (fun hended => by cases hended) (fun x hx _ hpre => ?_)
    fun _ _ => trivial).1 hended
  have hstep := steps_of_step hx
  intro hpost
  cases hstep' : x.pre.exitSignal with
  | true => exact hstep.exitSignal_of_true hstep'
  | false =>
      exfalso
      rw [hstep'] at hpre
      exact Bool.false_ne_true (hpre (hstep.ended_before hstep' hpost))

/-- What only the thread that publishes does, stores nothing. -/
lemma stored_of_alone (h : Exec (step H p lidarCount) s tr t)
    (halone : ∀ x ∈ tr, x.event = .poll) (i : ℕ) : stored i tr = [] := by
  refine List.flatMap_eq_nil_iff.mpr fun x hx => ?_
  have hstep : x.pre.step H p lidarCount x.event = .ok (x.post, x.obs) := h.taken x hx
  rw [halone x hx] at hstep
  exact (pollStep_of_poll hstep).frame.2.2.2.2 i

lemma Late.of_alone {tr' : List (Turn (PollThreads Q α β) (PollEvent α) (Option (PollSeen α β)))}
    (halone : ∀ x ∈ tr', x.event = .poll) (h : Late i (tr ++ tr')) : Late i tr := by
  obtain ⟨tr₁, x, tr₂, heq, hx, hnone⟩ := h
  rcases List.append_eq_append_iff.mp heq with ⟨mid, htr₁, htr'⟩ | ⟨mid, htr, hmid⟩
  · have hmem : x ∈ tr' := by
      rw [htr']
      exact List.mem_append_right _ List.mem_cons_self
    exact absurd ((halone x hmem).symm.trans hx) (by simp)
  · cases mid with
    | nil =>
        have hmem : x ∈ tr' := by
          rw [← show x :: tr₂ = tr' from hmid]
          exact List.mem_cons_self
        exact absurd ((halone x hmem).symm.trans hx) (by simp)
    | cons y mid =>
        rw [List.cons_append] at hmid
        obtain ⟨rfl, rfl⟩ := List.cons.inj hmid
        refine ⟨tr₁, x, mid, htr, hx, ?_⟩
        unfold stored at hnone ⊢
        rw [List.flatMap_append] at hnone
        exact (List.append_eq_nil_iff.mp hnone).1

/-- **Left alone the thread publishes what there is.**  If nothing more arrives, it goes on until it
is blocked, and then everything stored for the lidars that sample has been taken, but for those that
had their settings only after it. -/
theorem drains_of_exec (h : Exec (step H p lidarCount) (start H) tr t) (hp : p ≠ .nothing)
    (hexit : t.requestExit = false) (hsignal : t.exitSignal = false) (hidle : t.storing = .idle) :
    ∃ tr' t', Exec (step H p lidarCount) t tr' t' ∧ (∀ x ∈ tr', x.event = .poll) ∧ t'.Waits ∧
      ∀ i < lidarCount, t.sampling i = true → taken i (tr ++ tr') = stored i tr ∨ Late i tr := by
  obtain ⟨tr', t', hexec, halone, hstands, hend⟩ :=
    exec_alone h (hsignal.trans hexit.symm) (.inl hp)
  have hwhole := h.trans hexec
  have hwaits : t'.Waits := hend.resolve_right fun hended => by
    have htold := exitSignal_of_ended hwhole hended
    rw [hstands.exitSignal, hsignal] at htold
    cases htold
  refine ⟨tr', t', hexec, halone, hwaits, fun i hi hsampling => ?_⟩
  have hwakes := wakes_of_exec hwhole (hstands.requestExit.trans hexit)
    (hstands.storing.trans hidle) hwaits.1 hwaits.2 i hi (by rwa [hstands.sampling])
  refine hwakes.imp (fun htaken => ?_) (Late.of_alone halone)
  rw [htaken]
  unfold stored
  rw [List.flatMap_append]
  exact (congrArg _ (stored_of_alone hexec halone i)).trans (List.append_nil _)

/-- A lidar has its settings, and then one sample of its IMU is stored. -/
def oneSample : List (PollEvent ℕ) := [.connect 0, .arrive 0 7] ++ List.replicate 7 .store

/-- The thread is woken for the sample, takes it, and waits. -/
theorem drains_of_exec_oneSample :
    let run := trace (step (HandoffQueue.locked ℕ) .one 1) oneSample (start (.locked ℕ))
    ∃ tr' t', Exec (step (HandoffQueue.locked ℕ) .one 1) run.2 tr' t' ∧ t'.Waits ∧
      (taken 0 (run.1 ++ tr') = [7] ∨ Late 0 run.1) := by
  intro run
  have hrun : Exec (step (HandoffQueue.locked ℕ) .one 1) (start (.locked ℕ)) run.1 run.2 :=
    Exec.of_trace oneSample _
  have hstored : stored 0 run.1 = [7] := by decide +kernel
  obtain ⟨tr', t', hexec, -, hwaits, htaken⟩ := drains_of_exec hrun nofun rfl rfl rfl
  have hone := htaken 0 Nat.one_pos rfl
  rw [hstored] at hone
  exact ⟨tr', t', hexec, hwaits, hone⟩

/-! ## The shutdown -/

/-- **The shutdown.**  Once the thread has been told to end and nothing more arrives, it ends
exactly if it is not blocked already. -/
theorem exits_iff (h : Exec (step H p lidarCount) (start H) tr t) (hexit : t.requestExit = true)
    (hsignal : t.exitSignal = true) :
    (∃ tr' t', Exec (step H p lidarCount) t tr' t' ∧ (∀ x ∈ tr', x.event = .poll) ∧
      t'.polling = .ended) ↔ ¬t.Waits := by
  constructor
  · rintro ⟨tr', t', hexec, halone, hended⟩ hwaits
    have hstays : t' = t := by
      refine (hexec.invariant (I := fun s => s = t) (C := fun x => x.event = .poll) rfl
        (fun x hx hpoll hpre => ?_) halone).1
      have hstep : x.pre.step H p lidarCount x.event = .ok (x.post, x.obs) := hx
      rw [hpoll, hpre] at hstep
      exact absurd (pollStep_of_poll hstep) hwaits.not_pollStep
    rw [hstays, hwaits.1] at hended
    cases hended
  · intro hwaits
    obtain ⟨tr', t', hexec, halone, -, hend⟩ :=
      exec_alone h (hsignal.trans hexit.symm) (.inr hexit)
    refine ⟨tr', t', hexec, halone, hend.resolve_left ?_⟩
    refine (hexec.invariant (I := fun s => s.requestExit = true ∧ ¬s.Waits)
      (C := fun x => x.event = .poll) ⟨hexit, hwaits⟩ (fun x hx hpoll hpre => ?_) halone).1.2
    have hstep : x.pre.step H p lidarCount x.event = .ok (x.post, x.obs) := hx
    rw [hpoll] at hstep
    have hpollStep := pollStep_of_poll hstep
    refine ⟨hpollStep.frame.2.2.1.trans hpre.1, fun hblocked => ?_⟩
    exact hpollStep.ne_wait hpre.1 hblocked.1

/-- A thread that found nothing is still blocked when it is told to end. -/
theorem exits_iff_blocked :
    let t := (trace (step (HandoffQueue.locked ℕ) .one 1) [.poll, .requestExit, .setValue]
      (start (.locked ℕ))).2
    ¬∃ tr' t', Exec (step (HandoffQueue.locked ℕ) .one 1) t tr' t' ∧
      (∀ x ∈ tr', x.event = .poll) ∧ t'.polling = .ended := by
  intro t
  rw [exits_iff (Exec.of_trace [.poll, .requestExit, .setValue] _) rfl rfl, not_not]
  exact ⟨rfl, rfl⟩

/-! ## Which lidars are published -/

/-- The thread publishes of lidar `i`. -/
def Polling.At (i : ℕ) : Polling β → Prop
  | .polling j | .publish j | .rdIdx j _ => j = i
  | _ => False

lemma at_afterItem {j : ℕ} (h : Polling.At (β := β) i (afterItem p j)) : j = i := by
  unfold afterItem at h
  split_ifs at h <;> exact h

lemma Steps.sampling_of_true {ev : PollEvent α} (hstep : Steps H p lidarCount s ev o s')
    (h : s.sampling i = true) : s'.sampling i = true := by
  cases hstep with
  | store step => cases step <;> exact h
  | poll step => cases step <;> exact h
  | @connect j =>
      show Function.update s.sampling j true i = true
      by_cases hij : i = j
      · rw [hij, Function.update_self]
      · rwa [Function.update_of_ne hij]
  | _ => exact h

/-- It comes to lidars that sample only. -/
lemma Steps.sampling_of_at (h : ∀ i, Polling.At i s.polling → s.sampling i = true)
    {ev : PollEvent α} (hstep : Steps H p lidarCount s ev o s') :
    ∀ i, Polling.At i s'.polling → s'.sampling i = true := by
  have hmono : ∀ {i : ℕ}, s.sampling i = true → s'.sampling i = true := hstep.sampling_of_true
  cases hstep with
  | store step => cases step <;> exact h
  | poll step =>
      cases step with
      | visit next lidar sampling =>
          rintro i rfl
          exact sampling
      | found next exit empty =>
          rintro i rfl
          exact h _ (by rw [next]; exact rfl)
      | returns next why =>
          rintro i rfl
          exact h _ (by rw [next]; exact rfl)
      | copy next takes empty item =>
          rintro i rfl
          exact h _ (by rw [next]; exact rfl)
      | misses next empty item =>
          intro i hi
          obtain rfl := at_afterItem hi
          exact h _ (by rw [next]; exact rfl)
      | drop next =>
          intro i hi
          obtain rfl := at_afterItem hi
          exact h _ (by rw [next]; exact rfl)
      | _ => exact nofun
  | connect => exact fun i hi => hmono (h i hi)
  | _ => exact h

lemma Steps.at_of_taken {ev : PollEvent α} (hstep : Steps H p lidarCount s ev o s')
    (h : takenOf i o ≠ []) : Polling.At i s.polling := by
  cases hstep with
  | store step => cases step <;> exact absurd rfl h
  | poll step =>
      cases step with
      | drop next =>
          rw [next]
          by_contra hne
          exact h (if_neg hne)
      | _ => exact absurd rfl h
  | _ => exact absurd rfl h

/-- Nothing is taken of a lidar that does not sample. -/
lemma sampling_of_taken (h : Exec (step H p lidarCount) (start H) tr t) :
    ∀ i, taken i tr ≠ [] → t.sampling i = true := by
  have hstart : ∀ i, Polling.At i (start H).polling → (start H).sampling i = true := fun _ =>
    False.elim
  have hall : (∀ i, Polling.At i t.polling → t.sampling i = true) ∧
      ∀ i, taken i tr ≠ [] → t.sampling i = true := by
    refine h.history (P := fun tr t => (∀ i, Polling.At i t.polling → t.sampling i = true) ∧
      ∀ i, taken i tr ≠ [] → t.sampling i = true) (C := fun _ => True)
      ⟨hstart, fun _ hi => absurd rfl hi⟩ ?_ fun _ _ => trivial
    rintro tr x - hx - ⟨hat, htaken⟩
    have hstep := steps_of_step hx
    refine ⟨hstep.sampling_of_at hat, fun i hi => hstep.sampling_of_true ?_⟩
    by_cases hbefore : taken i tr = []
    · refine hat i (hstep.at_of_taken fun hnone => hi ?_)
      unfold taken at hbefore ⊢
      rw [List.flatMap_append, hbefore, List.flatMap_singleton, hnone, List.nil_append]
    · exact htaken i hbefore
  exact hall.2

/-! ## A format that publishes nothing -/

lemma Steps.takes_nothing (hp : p = .nothing) (h : ∀ i b, s.polling ≠ .rdIdx i b)
    {ev : PollEvent α} (hstep : Steps H p lidarCount s ev o s') :
    (∀ i b, s'.polling ≠ .rdIdx i b) ∧ ∀ i, takenOf i o = [] := by
  cases hstep with
  | store step => cases step <;> exact ⟨h, fun _ => rfl⟩
  | poll step =>
      cases step with
      | misses => exact ⟨afterItem_ne p _, fun _ => rfl⟩
      | copy next takes empty item => exact absurd hp takes
      | drop next => exact absurd next (h _ _)
      | _ => exact ⟨nofun, fun _ => rfl⟩
  | _ => exact ⟨h, fun _ => rfl⟩

lemma Steps.requestExit_of_ne {ev : PollEvent α} (hstep : Steps H p lidarCount s ev o s')
    (hev : ev ≠ .requestExit) (h : s.requestExit = false) : s'.requestExit = false := by
  cases hstep with
  | store step => cases step <;> exact h
  | poll step => exact step.frame.2.2.1.trans h
  | requestExit => exact absurd rfl hev
  | _ => exact h

lemma Steps.spins (hp : p = .nothing) (hs : Sound H s l) (hexit : s.requestExit = false)
    (hne : l i ≠ []) (hat : s.polling = .polling i ∨ s.polling = .publish i) {ev : PollEvent α}
    (hstep : Steps H p lidarCount s ev o s') :
    s'.polling = .polling i ∨ s'.polling = .publish i := by
  have hempty : H.empty (s.queue i) ≠ true := fun hempty =>
    hne ((H.empty_iff (hs.holds i)).mp hempty)
  cases hstep with
  | store step => cases step <;> exact hat
  | poll step =>
      cases step with
      | found next exit empty =>
          rcases hat with hat | hat
          · cases next.symm.trans hat
            exact .inr rfl
          · cases next.symm.trans hat
      | leave next why =>
          rcases hat with hat | hat
          · cases next.symm.trans hat
            rcases why with hquit | hnone
            · exact absurd (hquit.symm.trans hexit) (by simp)
            · exact absurd hnone hempty
          · cases next.symm.trans hat
      | returns next why =>
          rcases hat with hat | hat
          · cases next.symm.trans hat
          · cases next.symm.trans hat
            exact .inl rfl
      | misses next empty item =>
          rcases hat with hat | hat
          · cases next.symm.trans hat
          · cases next.symm.trans hat
            exact .inl (by rw [hp]; rfl)
      | copy next takes empty item => exact absurd hp takes
      | _ next => rcases hat with hat | hat <;> cases next.symm.trans hat
  | _ => exact hat

/-- With a format that publishes nothing, no item is ever taken. -/
lemma taken_of_nothing (hp : p = .nothing) (h : Exec (step H p lidarCount) (start H) tr t) :
    (∀ i b, t.polling ≠ .rdIdx i b) ∧ ∀ i, taken i tr = [] := by
  refine h.history (P := fun tr t => (∀ i b, t.polling ≠ .rdIdx i b) ∧ ∀ i, taken i tr = [])
    (C := fun _ => True) ⟨nofun, fun _ => rfl⟩ ?_ fun _ _ => trivial
  rintro tr x - hx - ⟨hnever, hnone⟩
  have hstep := steps_of_step hx
  obtain ⟨hnever', hnone'⟩ := hstep.takes_nothing hp hnever
  refine ⟨hnever', fun i => ?_⟩
  have htaken := hnone i
  unfold taken at htaken ⊢
  rw [List.flatMap_append, htaken, List.flatMap_singleton, hnone', List.nil_append]

/-- **It spins.**  With a format that publishes nothing, the thread never leaves the first lidar
with an item that it comes to, until it is told to exit. -/
theorem spins_of_nothing (hp : p = .nothing) (h : Exec (step H p lidarCount) (start H) tr t)
    (hexit : t.requestExit = false) (hat : t.polling = .polling i) (hne : stored i tr ≠ [])
    {tr' : List (Turn (PollThreads Q α β) (PollEvent α) (Option (PollSeen α β)))}
    {t' : PollThreads Q α β} (h' : Exec (step H p lidarCount) t tr' t')
    (hon : ∀ x ∈ tr', x.event ≠ .requestExit) :
    taken i (tr ++ tr') = [] ∧ (t'.polling = .polling i ∨ t'.polling = .publish i) := by
  refine ⟨(taken_of_nothing hp (h.trans h')).2 i, ?_⟩
  obtain ⟨l, hsound, horder, -⟩ := covered_of_exec h
  rw [horder i, (taken_of_nothing hp h).2 i, List.nil_append] at hne
  refine (h'.invariant (I := fun s => s.requestExit = false ∧
    (s.polling = .polling i ∨ s.polling = .publish i) ∧ ∃ l, Sound H s l ∧ l i ≠ [])
    (C := fun x => x.event ≠ .requestExit) ⟨hexit, .inl hat, l, hsound, hne⟩ ?_ hon).1.2.1
  rintro x hx hcont ⟨hopen, hspin, l, hsound, hne⟩
  have hstep := steps_of_step hx
  obtain ⟨l', hsound', hbalance⟩ := hsound.step hstep
  have hnever : ∀ j b, x.pre.polling ≠ .rdIdx j b := by
    rintro j b hcopied
    rcases hspin with hspin | hspin <;> cases hspin.symm.trans hcopied
  refine ⟨hstep.requestExit_of_ne hcont hopen, hstep.spins hp hsound hopen hne hspin, l',
    hsound', ?_⟩
  intro hnil
  have hnone := hbalance i
  rw [(hstep.takes_nothing hp hnever).2 i, hnil] at hnone
  exact hne (List.append_eq_nil_iff.mp hnone).1

/-- Two lidars have their settings, and a frame of each is stored. -/
def twoFrames : List (PollEvent (PointPacket ℚ × UInt64)) :=
  [.connect 0, .connect 1, .arrive 1 (LidarDataQueue.onePoint 1, 10)] ++ List.replicate 7 .store ++
    .arrive 0 (LidarDataQueue.onePoint 2, 20) :: List.replicate 6 .store

/-- The thread comes to the frame of the first and finds it again and again, and the next frame that
is stored does not help. -/
theorem spins_of_nothing_twoFrames :
    let ring := LidarDataQueue.handoff 4
    let first := trace (step ring .nothing 2) (twoFrames ++ List.replicate 3 .poll) (start ring)
    let rest := trace (step ring .nothing 2) (List.replicate 5 .poll ++
      .arrive 0 (LidarDataQueue.onePoint 3, 30) :: List.replicate 6 .store ++
      List.replicate 5 .poll) first.2
    taken 0 (first.1 ++ rest.1) = [] ∧
      (rest.2.polling = .polling 0 ∨ rest.2.polling = .publish 0) := by
  intro ring first rest
  have hfirst : Exec (step ring .nothing 2) (start ring) first.1 first.2 := Exec.of_trace _ _
  have hrest : Exec (step ring .nothing 2) first.2 rest.1 rest.2 := Exec.of_trace _ _
  have hstored : (stored 0 first.1).length = 1 := by decide +kernel
  have hne : stored 0 first.1 ≠ [] := List.ne_nil_of_length_pos (by omega)
  have hat : first.2.polling = .polling 0 := by decide +kernel
  exact spins_of_nothing rfl hfirst (by decide +kernel) hat hne hrest (by decide +kernel)

end PollThreads

end FastLivo2
