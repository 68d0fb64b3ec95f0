import FastLivo2.Lib.Custody

/-!
# The commands of the Livox SDK

`GeneralCommandHandler` gives each command a number, sends it and keeps it in a map under its number
until the lidar answers or a second has passed.  Then its callback is called.  To send and to
register are two steps, and between them other threads run: those that read the sockets, those that
look for commands whose time is over, and those that send as well.  A call is therefore kept in a
list with what it still has to do, and any of them may go on next.

The number of a command has 16 bits.  A command that finds its number taken displaces the other, and
the callback of that one is never called.  A callback is called twice only where the socket refused
the command: `SendCommand` calls it, and registers the command all the same.

The lidars are of the types Mid360 and Mid360s.  `HapCommandHandler::SendCommand` registers a
command that `GeneralCommandHandler::SendCommand` registers once more, and is left out.
-/

namespace FastLivo2

/-- `livox_status`, as callbacks are given it. -/
inductive LivoxStatus
  | success
  | timeout
  | sendFailed
  deriving DecidableEq

/-- A command, with what its callback is. -/
structure Command (R : Type*) where
  /-- How many numbers were given out before its own. -/
  serial : ℕ
  seqNum : ℕ
  handle : UInt32
  cb : R
  deriving DecidableEq

/-- What a call has still to do. -/
inductive Remaining
  /-- `SendCommand` of `GeneralCommandHandler`: the command is sent and then registered. -/
  | sendAdd
  | add
  /-- `SendCommand` of a handler, to a port: it is registered and then sent. -/
  | addSend
  | send
  deriving DecidableEq

/-- The call has the command still to register. -/
def Remaining.registers : Remaining → Bool
  | .send => false
  | _ => true

/-- How a number is used. -/
inductive CommandPath
  /-- No handler for the lidar is found, or the packet needs no answer. -/
  | none
  | general
  | toPort
  deriving DecidableEq

/-- The `time_out` of every command, in milliseconds. -/
def kDefaultTimeOut : ℕ := 1000

/-- The step of `GenerateSeq::GetSeq`. -/
def getSeq (value : ℕ) : ℕ := if value = 65535 then 1 else value + 1

structure GeneralCommandHandler (R : Type*) where
  /-- The counter of `GetSeq`. -/
  seq : ℕ := 1
  serial : ℕ := 0
  calls : List (Command R × Remaining) := []
  /-- `commands_`, in the order of its keys, with the time at which each is given up. -/
  commands : List (Command R × ℕ) := []

/-- What may happen next. -/
inductive CommandEvent (R A : Type*)
  | sendCommand (handle : UInt32) (cb : R) (path : CommandPath)
  /-- The command goes to the socket, which takes it or not. -/
  | send (serial : ℕ) (sent : Bool)
  | addCommand (serial : ℕ) (now : ℕ)
  /-- The answer of a lidar arrives. -/
  | handler (handle : UInt32) (seqNum : UInt32) (answer : A)
  | commandsHandle (now : ℕ)

/-- What becomes of a command. -/
inductive Notice (R A : Type*)
  | issued (c : Command R)
  | sent (c : Command R)
  /-- Its callback is called with `kLivoxLidarStatusSendFailed`. -/
  | sendFailed (c : Command R)
  /-- Another one takes its place in the map. -/
  | displaced (c other : Command R)
  /-- Its callback is called with `kLivoxLidarStatusSuccess`, and with who answered. -/
  | answered (c : Command R) (handle : UInt32) (answer : A)
  /-- Its callback is called with `kLivoxLidarStatusTimeout`. -/
  | timedOut (c : Command R)

/-- The command that a notice is about. -/
def Notice.command {R A : Type*} : Notice R A → Command R
  | .issued c | .sent c | .sendFailed c | .displaced c _ | .answered c _ _ | .timedOut c => c

/-- The notice that a lidar has answered. -/
def Notice.isAnswer {R A : Type*} : Notice R A → Bool
  | .answered _ _ _ => true
  | _ => false

namespace GeneralCommandHandler

variable {R A : Type*}

/-- A command gets its number. -/
def issue (s : GeneralCommandHandler R) (handle : UInt32) (cb : R) (remaining : Remaining) :
    GeneralCommandHandler R × List (Notice R A) :=
  let c : Command R := ⟨s.serial, getSeq s.seq, handle, cb⟩
  ({ s with seq := getSeq s.seq, serial := s.serial + 1, calls := s.calls ++ [(c, remaining)] },
    [.issued c])

def findCall (s : GeneralCommandHandler R) (serial : ℕ) : Option (Command R × Remaining) :=
  s.calls.find? fun call => call.1.serial = serial

/-- The call returns. -/
def returns (s : GeneralCommandHandler R) (serial : ℕ) : GeneralCommandHandler R :=
  { s with calls := s.calls.eraseP fun call => call.1.serial = serial }

/-- The call goes on with what remains. -/
def goOn (s : GeneralCommandHandler R) (c : Command R) (remaining : Remaining) :
    GeneralCommandHandler R :=
  { s with calls := (s.calls.eraseP fun call => call.1.serial = c.serial) ++ [(c, remaining)] }

/-- `AddCommand`. -/
def addCommand (s : GeneralCommandHandler R) (c : Command R) (now : ℕ) :
    GeneralCommandHandler R × List (Notice R A) :=
  ({ s with
      commands := (s.commands.eraseP fun e => e.1.seqNum = c.seqNum).orderedInsert
        (fun e e' => e.1.seqNum ≤ e'.1.seqNum) (c, now + kDefaultTimeOut) },
    ((s.commands.find? fun e => e.1.seqNum = c.seqNum).toList.map fun e => .displaced e.1 c))

/-- The socket takes the command, or the callback is told that it did not. -/
def sending (c : Command R) (sent : Bool) : Notice R A := if sent then .sent c else .sendFailed c

/-- One step. -/
def step (s : GeneralCommandHandler R) :
    CommandEvent R A → Except Blocked (GeneralCommandHandler R × List (Notice R A))
  | .sendCommand _ _ .none => .ok ({ s with seq := getSeq s.seq, serial := s.serial + 1 }, [])
  | .sendCommand handle cb .general => .ok (s.issue handle cb .sendAdd)
  | .sendCommand handle cb .toPort => .ok (s.issue handle cb .addSend)
  | .send serial sent =>
      match s.findCall serial with
      | some (c, .sendAdd) => .ok (s.goOn c .add, [sending c sent])
      | some (c, .send) => .ok (s.returns c.serial, [sending c sent])
      | _ => .error .blocked
  | .addCommand serial now =>
      match s.findCall serial with
      | some (c, .add) => .ok ((s.returns c.serial).addCommand c now)
      | some (c, .addSend) => .ok ((s.goOn c .send).addCommand c now)
      | _ => .error .blocked
  | .handler handle seqNum answer =>
      -- the number is compared with 16 bits of the packet's
      match s.commands.find? fun e => e.1.seqNum = seqNum.toUInt16.toNat with
      | none => .ok (s, [])
      | some (c, _) =>
          .ok ({ s with
              commands := s.commands.eraseP fun e => e.1.seqNum = seqNum.toUInt16.toNat },
            [.answered c handle answer])
  | .commandsHandle now =>
      .ok ({ s with commands := s.commands.filter fun e => !decide (e.2 < now) },
        (s.commands.filter fun e => e.2 < now).map fun e => .timedOut e.1)

/-! ## What a step does -/

/-- The steps, with the calls and the commands up to their order. -/
inductive Steps (s : GeneralCommandHandler R) :
    CommandEvent R A → List (Notice R A) → GeneralCommandHandler R → Prop
  | none {handle : UInt32} {cb : R} :
      Steps s (.sendCommand handle cb .none) []
        { s with seq := getSeq s.seq, serial := s.serial + 1 }
  | issue {handle : UInt32} {cb : R} {path : CommandPath} {remaining : Remaining}
      (registers : remaining = .sendAdd ∨ remaining = .addSend) (path_ne : path ≠ .none) :
      Steps s (.sendCommand handle cb path) [.issued ⟨s.serial, getSeq s.seq, handle, cb⟩]
        { s with
          seq := getSeq s.seq, serial := s.serial + 1
          calls := s.calls ++ [(⟨s.serial, getSeq s.seq, handle, cb⟩, remaining)] }
  | send {c : Command R} {sent : Bool} {rest : List (Command R × Remaining)}
      (call : s.calls.Perm ((c, .sendAdd) :: rest)) :
      Steps s (.send c.serial sent) [sending c sent] { s with calls := rest ++ [(c, .add)] }
  | sendLast {c : Command R} {sent : Bool} {rest : List (Command R × Remaining)}
      (call : s.calls.Perm ((c, .send) :: rest)) :
      Steps s (.send c.serial sent) [sending c sent] { s with calls := rest }
  | add {c : Command R} {now : ℕ} {rest calls' : List (Command R × Remaining)}
      {others commands' displaced : List (Command R × ℕ)}
      (call : s.calls.Perm ((c, .add) :: rest) ∧ calls' = rest ∨
        s.calls.Perm ((c, .addSend) :: rest) ∧ calls' = rest ++ [(c, .send)])
      (before : s.commands.Perm (displaced ++ others))
      (after : commands'.Perm ((c, now + kDefaultTimeOut) :: others))
      (same : ∀ e ∈ displaced, e.1.seqNum = c.seqNum) :
      Steps s (.addCommand c.serial now) (displaced.map fun e => .displaced e.1 c)
        { s with calls := calls', commands := commands' }
  | unknown {handle seqNum : UInt32} {answer : A}
      (free : ∀ e ∈ s.commands, e.1.seqNum ≠ seqNum.toUInt16.toNat) :
      Steps s (.handler handle seqNum answer) [] s
  | answer {handle seqNum : UInt32} {answer : A} {c : Command R} {deadline : ℕ}
      {others : List (Command R × ℕ)} (same : c.seqNum = seqNum.toUInt16.toNat)
      (commands : s.commands.Perm ((c, deadline) :: others)) :
      Steps s (.handler handle seqNum answer) [.answered c handle answer]
        { s with commands := others }
  | timeOut {now : ℕ} {late others : List (Command R × ℕ)}
      (commands : s.commands.Perm (late ++ others)) (late_iff : ∀ e ∈ late, e.2 < now) :
      Steps s (.commandsHandle now) (late.map fun e => .timedOut e.1)
        { s with commands := others }

variable {s s' t : GeneralCommandHandler R} {ev : CommandEvent R A} {o : List (Notice R A)}

lemma steps_addCommand {c : Command R} {now : ℕ} {rest calls' : List (Command R × Remaining)}
    (call : s.calls.Perm ((c, .add) :: rest) ∧ calls' = rest ∨
      s.calls.Perm ((c, .addSend) :: rest) ∧ calls' = rest ++ [(c, .send)]) :
    Steps (A := A) s (.addCommand c.serial now) (addCommand { s with calls := calls' } c now).2
      (addCommand (A := A) { s with calls := calls' } c now).1 := by
  refine .add call (perm_find_append_eraseP (fun e : Command R × ℕ =>
    decide (e.1.seqNum = c.seqNum)) _) (List.perm_orderedInsert ..) fun e he => ?_
  have hsame := List.find?_some (Option.mem_toList.mp he)
  exact of_decide_eq_true hsame

/-- **What a step does.** -/
theorem steps_of_step (h : s.step ev = .ok (s', o)) : Steps s ev o s' := by
  have hfind : ∀ {serial : ℕ} {c : Command R} {remaining : Remaining},
      s.findCall serial = some (c, remaining) → c.serial = serial ∧ s.calls.Perm
        ((c, remaining) :: s.calls.eraseP fun call => call.1.serial = c.serial) := by
    intro serial c remaining hfind
    have hsome := List.find?_some hfind
    have hserial : c.serial = serial := of_decide_eq_true hsome
    rw [hserial]
    exact ⟨rfl, perm_cons_eraseP hfind⟩
  cases ev with
  | sendCommand handle cb path =>
      cases path with
      | none =>
          obtain ⟨rfl, rfl⟩ := Prod.mk.inj (Except.ok.inj h)
          exact .none
      | general =>
          obtain ⟨rfl, rfl⟩ := Prod.mk.inj (Except.ok.inj h)
          exact .issue (.inl rfl) nofun
      | toPort =>
          obtain ⟨rfl, rfl⟩ := Prod.mk.inj (Except.ok.inj h)
          exact .issue (.inr rfl) nofun
  | send serial sent =>
      unfold step at h
      cases hcall : s.findCall serial with
      | none => simp only [hcall, reduceCtorEq] at h
      | some call =>
          obtain ⟨c, remaining⟩ := call
          obtain ⟨rfl, hperm⟩ := hfind hcall
          cases remaining with
          | sendAdd =>
              simp only [hcall, Except.ok.injEq, Prod.mk.injEq] at h
              obtain ⟨rfl, rfl⟩ := h
              exact .send hperm
          | send =>
              simp only [hcall, Except.ok.injEq, Prod.mk.injEq] at h
              obtain ⟨rfl, rfl⟩ := h
              exact .sendLast hperm
          | _ => simp only [hcall, reduceCtorEq] at h
  | addCommand serial now =>
      unfold step at h
      cases hcall : s.findCall serial with
      | none => simp only [hcall, reduceCtorEq] at h
      | some call =>
          obtain ⟨c, remaining⟩ := call
          obtain ⟨rfl, hperm⟩ := hfind hcall
          cases remaining with
          | add =>
              simp only [hcall, Except.ok.injEq] at h
              obtain ⟨rfl, rfl⟩ := Prod.mk.inj h
              exact steps_addCommand (.inl ⟨hperm, rfl⟩)
          | addSend =>
              simp only [hcall, Except.ok.injEq] at h
              obtain ⟨rfl, rfl⟩ := Prod.mk.inj h
              exact steps_addCommand (.inr ⟨hperm, rfl⟩)
          | _ => simp only [hcall, reduceCtorEq] at h
  | handler handle seqNum answer =>
      unfold step at h
      cases hfound : s.commands.find? fun e => e.1.seqNum = seqNum.toUInt16.toNat with
      | none =>
          simp only [hfound, Except.ok.injEq, Prod.mk.injEq] at h
          obtain ⟨rfl, rfl⟩ := h
          refine .unknown fun e he heq => ?_
          exact List.find?_eq_none.mp hfound e he (decide_eq_true heq)
      | some e =>
          obtain ⟨c, deadline⟩ := e
          simp only [hfound, Except.ok.injEq, Prod.mk.injEq] at h
          obtain ⟨rfl, rfl⟩ := h
          have hsame := List.find?_some hfound
          exact .answer (of_decide_eq_true hsame) (perm_cons_eraseP hfound)
  | commandsHandle now =>
      obtain ⟨rfl, rfl⟩ := Prod.mk.inj (Except.ok.inj h)
      refine .timeOut (List.filter_append_perm _ _).symm fun e he => ?_
      exact decide_eq_true_eq.mp (List.mem_filter.mp he).2

lemma sendFailed_mem_sending {c c' : Command R} {sent : Bool}
    (hmem : .sendFailed c ∈ [sending (A := A) c' sent]) : c' = c ∧ sent = false := by
  cases sent with
  | true => cases List.mem_singleton.mp hmem
  | false => exact ⟨(Notice.sendFailed.inj (List.mem_singleton.mp hmem)).symm, rfl⟩

lemma Steps.sendFailed (h : Steps s ev o s') {c : Command R} (hmem : .sendFailed c ∈ o) :
    ev = .send c.serial false := by
  cases h with
  | send call =>
      obtain ⟨rfl, rfl⟩ := sendFailed_mem_sending hmem
      rfl
  | sendLast call =>
      obtain ⟨rfl, rfl⟩ := sendFailed_mem_sending hmem
      rfl
  | issue => cases List.mem_singleton.mp hmem
  | add =>
      obtain ⟨e, -, heq⟩ := List.mem_map.mp hmem
      cases heq
  | answer => cases List.mem_singleton.mp hmem
  | timeOut =>
      obtain ⟨e, -, heq⟩ := List.mem_map.mp hmem
      cases heq
  | _ => cases hmem

/-- An answer is all that its step tells of. -/
lemma Steps.isAnswer (h : Steps s ev o s') : ∀ n ∈ o, n.isAnswer = true → o = [n] := by
  have hsending : ∀ {c : Command R} {sent : Bool} {n : Notice R A}, n ∈ [sending c sent] →
      n.isAnswer ≠ true := by
    intro c sent n hn
    rw [List.mem_singleton.mp hn]
    cases sent <;> exact nofun
  intro n hn hanswer
  cases h with
  | answer =>
      rw [List.mem_singleton.mp hn]
  | send => exact absurd hanswer (hsending hn)
  | sendLast => exact absurd hanswer (hsending hn)
  | issue =>
      rw [List.mem_singleton.mp hn] at hanswer
      cases hanswer
  | add =>
      obtain ⟨e, -, rfl⟩ := List.mem_map.mp hn
      cases hanswer
  | timeOut =>
      obtain ⟨e, -, rfl⟩ := List.mem_map.mp hn
      cases hanswer
  | _ => cases hn

/-- The commands that calls have still to register. -/
def unregistered (calls : List (Command R × Remaining)) : List (Command R) :=
  (calls.filter fun call => call.2.registers).map Prod.fst

/-- The commands that are still to be called back. -/
def held (s : GeneralCommandHandler R) : List (Command R) :=
  unregistered s.calls ++ s.commands.map Prod.fst

/-- The commands that are issued. -/
def issued : List (Notice R A) → List (Command R) :=
  List.filterMap fun n => match n with
    | .issued c => some c
    | _ => none

/-- The commands that are called back for good, or never. -/
def left : List (Notice R A) → List (Command R) :=
  List.filterMap fun n => match n with
    | .displaced c _ | .answered c _ _ | .timedOut c => some c
    | _ => none

lemma unregistered_append (calls calls' : List (Command R × Remaining)) :
    unregistered (calls ++ calls') = unregistered calls ++ unregistered calls' := by
  unfold unregistered
  rw [List.filter_append, List.map_append]

lemma unregistered_cons_of_registers (c : Command R) {remaining : Remaining}
    (h : remaining.registers = true) (calls : List (Command R × Remaining)) :
    unregistered ((c, remaining) :: calls) = c :: unregistered calls := by
  unfold unregistered
  rw [List.filter_cons, if_pos (show remaining.registers = true from h), List.map_cons]

lemma unregistered_cons_send (c : Command R) (calls : List (Command R × Remaining)) :
    unregistered ((c, .send) :: calls) = unregistered calls := by
  unfold unregistered
  rw [List.filter_cons_of_neg (by simp [Remaining.registers])]

lemma unregistered_perm {calls calls' : List (Command R × Remaining)} (h : calls.Perm calls') :
    (unregistered calls).Perm (unregistered calls') := (h.filter _).map _

lemma left_displaced (l : List (Command R × ℕ)) (c : Command R) :
    left (A := A) (l.map fun e => .displaced e.1 c) = l.map Prod.fst := by
  unfold left
  rw [List.filterMap_map]
  exact congrFun (List.filterMap_eq_map (f := Prod.fst)) l

lemma left_timedOut (l : List (Command R × ℕ)) :
    left (A := A) (l.map fun e => .timedOut e.1) = l.map Prod.fst := by
  unfold left
  rw [List.filterMap_map]
  exact congrFun (List.filterMap_eq_map (f := Prod.fst)) l

lemma issued_displaced (l : List (Command R × ℕ)) (c : Command R) :
    issued (A := A) (l.map fun e => .displaced e.1 c) = [] := by
  unfold issued
  rw [List.filterMap_map]
  exact List.filterMap_eq_nil_iff.mpr fun _ _ => rfl

lemma issued_timedOut (l : List (Command R × ℕ)) :
    issued (A := A) (l.map fun e => .timedOut e.1) = [] := by
  unfold issued
  rw [List.filterMap_map]
  exact List.filterMap_eq_nil_iff.mpr fun _ _ => rfl

lemma sending_places (c : Command R) (sent : Bool) :
    issued [sending (A := A) c sent] = [] ∧ left [sending (A := A) c sent] = [] := by
  cases sent <;> exact ⟨rfl, rfl⟩

/-- **A step** keeps every command that it does not call back. -/
lemma Steps.custody (h : Steps s ev o s') :
    (s.held ++ issued o).Perm (left o ++ s'.held) := by
  classical
  refine List.perm_iff_count.mpr fun a => ?_
  cases h with
  | none => simp [held, issued, left]
  | @issue handle cb path remaining registers path_ne =>
      have hregisters : remaining.registers = true := by
        rcases registers with rfl | rfl <;> rfl
      simp only [held, issued, left, unregistered_append, List.count_append, List.filterMap_cons,
        List.filterMap_nil, List.count_nil, unregistered_cons_of_registers _ hregisters]
      simp only [unregistered, List.filter_nil, List.map_nil]
      omega
  | @send c sent rest call =>
      have hcall := (unregistered_perm call).count_eq a
      rw [unregistered_cons_of_registers _ rfl] at hcall
      rw [(sending_places c sent).1, (sending_places c sent).2]
      simp only [held, unregistered_append, List.count_append, List.count_nil, hcall,
        unregistered_cons_of_registers c (show Remaining.add.registers = true from rfl),
        List.count_cons]
      simp only [unregistered, List.filter_nil, List.map_nil, List.count_nil]
      omega
  | @sendLast c sent rest call =>
      have hcall := (unregistered_perm call).count_eq a
      rw [unregistered_cons_send] at hcall
      rw [(sending_places c sent).1, (sending_places c sent).2]
      simp only [held, List.count_append, List.count_nil, hcall]
      omega
  | @add c now rest calls' others commands' displaced call before after same =>
      have hcalls : (unregistered s.calls).count a = (c :: unregistered calls').count a := by
        rcases call with ⟨hperm, rfl⟩ | ⟨hperm, rfl⟩
        · rw [(unregistered_perm hperm).count_eq a, unregistered_cons_of_registers _ rfl]
        · rw [(unregistered_perm hperm).count_eq a, unregistered_cons_of_registers _ rfl,
            unregistered_append, unregistered_cons_send]
          simp [unregistered]
      have hbefore := (before.map Prod.fst).count_eq a
      have hafter := (after.map Prod.fst).count_eq a
      rw [issued_displaced, left_displaced]
      simp only [held, List.count_append, List.count_nil, hcalls, hbefore, hafter, List.map_append,
        List.map_cons, List.count_cons]
      omega
  | unknown => simp [held, issued, left]
  | @answer handle seqNum answer c deadline others same commands =>
      have hcommands := (commands.map Prod.fst).count_eq a
      simp only [held, issued, left, List.filterMap_cons, List.filterMap_nil, List.count_append,
        List.count_nil, hcommands, List.map_cons, List.count_cons]
      omega
  | @timeOut now late others commands late_iff =>
      have hcommands := (commands.map Prod.fst).count_eq a
      rw [issued_timedOut, left_timedOut]
      simp only [held, List.count_append, List.count_nil, hcommands, List.map_append]
      omega

/-- What is issued is what was to be sent, where a handler for it was found. -/
lemma Steps.issued_eq (h : Steps s ev o s') :
    issued o = [] ∧ (∀ handle cb path, ev = .sendCommand handle cb path → path = .none) ∨
      ∃ c path, ev = .sendCommand c.handle c.cb path ∧ path ≠ .none ∧ issued o = [c] := by
  cases h with
  | none =>
      refine .inl ⟨rfl, fun _ _ path heq => ?_⟩
      obtain ⟨-, -, rfl⟩ := CommandEvent.sendCommand.inj heq
      rfl
  | issue registers path_ne => exact .inr ⟨_, _, rfl, path_ne, rfl⟩
  | send => exact .inl ⟨(sending_places _ _).1, nofun⟩
  | sendLast => exact .inl ⟨(sending_places _ _).1, nofun⟩
  | add => exact .inl ⟨issued_displaced _ _, nofun⟩
  | unknown => exact .inl ⟨rfl, nofun⟩
  | answer => exact .inl ⟨rfl, nofun⟩
  | timeOut => exact .inl ⟨issued_timedOut _, nofun⟩

/-- Calls and map have only commands that were issued. -/
structure Known (s : GeneralCommandHandler R) (cs : List (Command R)) : Prop where
  calls : ∀ call ∈ s.calls, call.1 ∈ cs
  commands : ∀ e ∈ s.commands, e.1 ∈ cs

lemma Known.held {cs : List (Command R)} (hs : Known s cs) : ∀ c ∈ s.held, c ∈ cs := by
  intro c hc
  rcases List.mem_append.mp hc with hcall | hkept
  · obtain ⟨call, hmem, rfl⟩ := List.mem_map.mp hcall
    exact hs.calls call (List.mem_filter.mp hmem).1
  · obtain ⟨e, hmem, rfl⟩ := List.mem_map.mp hkept
    exact hs.commands e hmem

/-- What calls and map have is still known when more is issued. -/
lemma Known.mono {cs : List (Command R)} (hs : Known s cs) (cs' : List (Command R))
    {calls : List (Command R × Remaining)} {commands : List (Command R × ℕ)} {seq serial : ℕ}
    (hcalls : calls ⊆ s.calls) (hcommands : commands ⊆ s.commands) :
    Known ⟨seq, serial, calls, commands⟩ (cs ++ cs') :=
  ⟨fun call hmem => List.mem_append_left _ (hs.calls call (hcalls hmem)),
    fun e hmem => List.mem_append_left _ (hs.commands e (hcommands hmem))⟩

/-- And with one more call, whose command is known. -/
lemma Known.snoc {cs : List (Command R)} (hs : Known s cs) {c : Command R} (hc : c ∈ cs)
    (remaining : Remaining) : Known { s with calls := s.calls ++ [(c, remaining)] } cs := by
  refine ⟨fun call hmem => ?_, hs.commands⟩
  rcases List.mem_append.mp hmem with hmem | hmem
  · exact hs.calls call hmem
  · rw [List.mem_singleton.mp hmem]
    exact hc

lemma subset_of_perm_cons {α : Type*} {l l' : List α} {a : α} (h : l.Perm (a :: l')) :
    a ∈ l ∧ l' ⊆ l :=
  ⟨h.symm.subset List.mem_cons_self, fun _ hmem => h.symm.subset (List.mem_cons_of_mem _ hmem)⟩

/-- **A step** knows no other commands, and tells of no others. -/
lemma Steps.known {cs : List (Command R)} (hs : Known s cs) (h : Steps s ev o s') :
    Known s' (cs ++ issued o) ∧ ∀ n ∈ o, n.command ∈ cs ++ issued o := by
  have hsame : Known s (cs ++ issued o) := hs.mono _ (List.Subset.refl _) (List.Subset.refl _)
  have hsending : ∀ {c : Command R} {sent : Bool}, c ∈ cs → ∀ n ∈ [sending (A := A) c sent],
      n.command ∈ cs ++ issued o := by
    intro c sent hc n hn
    rw [List.mem_singleton.mp hn]
    refine List.mem_append_left _ ?_
    cases sent <;> exact hc
  cases h with
  | none => exact ⟨hs.mono _ (List.Subset.refl _) (List.Subset.refl _), nofun⟩
  | issue registers path_ne =>
      refine ⟨Known.snoc (s := { s with seq := _, serial := _ })
        (hs.mono _ (List.Subset.refl _) (List.Subset.refl _))
        (List.mem_append_right _ (List.mem_singleton_self _)) _, fun n hn => ?_⟩
      rw [List.mem_singleton.mp hn]
      exact List.mem_append_right _ (List.mem_singleton_self _)
  | @send c sent rest call =>
      obtain ⟨hc, hrest⟩ := subset_of_perm_cons call
      exact ⟨Known.snoc (s := { s with calls := rest }) (hs.mono _ hrest (List.Subset.refl _))
        (List.mem_append_left _ (hs.calls _ hc)) _, hsending (hs.calls _ hc)⟩
  | @sendLast c sent rest call =>
      obtain ⟨hc, hrest⟩ := subset_of_perm_cons call
      exact ⟨hs.mono _ hrest (List.Subset.refl _), hsending (hs.calls _ hc)⟩
  | @add c now rest calls' others commands' displaced call before after same =>
      have hmine : c ∈ cs ∧ ∀ call' ∈ calls', call'.1 ∈ cs := by
        rcases call with ⟨hperm, rfl⟩ | ⟨hperm, rfl⟩
        · obtain ⟨hc, hrest⟩ := subset_of_perm_cons hperm
          exact ⟨hs.calls _ hc, fun call' hmem => hs.calls call' (hrest hmem)⟩
        · obtain ⟨hc, hrest⟩ := subset_of_perm_cons hperm
          exact ⟨hs.calls _ hc, (Known.snoc (s := { s with calls := rest })
            ⟨fun call' hmem => hs.calls call' (hrest hmem), hs.commands⟩ (hs.calls _ hc) _).calls⟩
      refine ⟨⟨fun call' hmem => List.mem_append_left _ (hmine.2 call' hmem), fun e hmem => ?_⟩,
        fun n hn => ?_⟩
      · refine List.mem_append_left _ ?_
        rcases List.mem_cons.mp (after.subset hmem) with rfl | hmem
        · exact hmine.1
        · exact hs.commands e (before.symm.subset (List.mem_append_right _ hmem))
      · obtain ⟨e, hmem, rfl⟩ := List.mem_map.mp hn
        exact List.mem_append_left _
          (hs.commands e (before.symm.subset (List.mem_append_left _ hmem)))
  | unknown free => exact ⟨hsame, nofun⟩
  | answer same commands =>
      obtain ⟨hc, hothers⟩ := subset_of_perm_cons commands
      refine ⟨hs.mono _ (List.Subset.refl _) hothers, fun n hn => ?_⟩
      rw [List.mem_singleton.mp hn]
      exact List.mem_append_left _ (hs.commands _ hc)
  | timeOut commands late_iff =>
      refine ⟨hs.mono _ (List.Subset.refl _) fun e hmem =>
        commands.symm.subset (List.mem_append_right _ hmem), fun n hn => ?_⟩
      obtain ⟨e, hmem, rfl⟩ := List.mem_map.mp hn
      exact List.mem_append_left _
        (hs.commands e (commands.symm.subset (List.mem_append_left _ hmem)))

/-! ## Over a run -/

variable {tr : List (Turn (GeneralCommandHandler R) (CommandEvent R A) (List (Notice R A)))}

/-- The commands that are issued over a run. -/
def issuedIn
    (tr : List (Turn (GeneralCommandHandler R) (CommandEvent R A) (List (Notice R A)))) :
    List (Command R) := tr.flatMap fun x => issued x.obs

/-- The commands that are called back for good, or displaced. -/
def leftIn
    (tr : List (Turn (GeneralCommandHandler R) (CommandEvent R A) (List (Notice R A)))) :
    List (Command R) := tr.flatMap fun x => left x.obs

lemma getSeq_mod (n : ℕ) : getSeq (n % 65535 + 1) = (n + 1) % 65535 + 1 := by
  unfold getSeq
  split_ifs <;> omega

/-- The numbers are given out in turn, and those of commands are among them. -/
structure Numbered (s : GeneralCommandHandler R) (cs : List (Command R)) : Prop where
  seq : s.seq = s.serial % 65535 + 1
  lt : ∀ c ∈ cs, c.serial < s.serial
  seqNum : ∀ c ∈ cs, c.seqNum = (c.serial + 1) % 65535 + 1
  nodup : (cs.map Command.serial).Nodup

lemma Numbered.step {cs : List (Command R)} (hs : Numbered s cs) (h : Steps s ev o s') :
    Numbered s' (cs ++ issued o) := by
  have hnext : getSeq s.seq = (s.serial + 1) % 65535 + 1 := by rw [hs.seq, getSeq_mod]
  have hsame : ∀ {s' : GeneralCommandHandler R} {o : List (Notice R A)}, issued o = [] →
      s'.seq = s.seq → s'.serial = s.serial → Numbered s' (cs ++ issued o) := by
    intro s' o ho hseq hserial
    rw [ho, List.append_nil]
    exact ⟨by rw [hseq, hserial, hs.seq], hserial ▸ hs.lt, hs.seqNum, hs.nodup⟩
  cases h with
  | none =>
      rw [show issued ([] : List (Notice R A)) = [] from rfl, List.append_nil]
      exact ⟨hnext, fun c hc => (hs.lt c hc).trans (Nat.lt_succ_self _), hs.seqNum, hs.nodup⟩
  | @issue handle cb path remaining registers path_ne =>
      rw [show issued [Notice.issued (A := A) (⟨s.serial, getSeq s.seq, handle, cb⟩ : Command R)] =
        [⟨s.serial, getSeq s.seq, handle, cb⟩] from rfl]
      refine ⟨hnext, ?_, ?_, ?_⟩
      · refine List.forall_mem_append.mpr ⟨fun c hc => (hs.lt c hc).trans (Nat.lt_succ_self _), ?_⟩
        exact List.forall_mem_singleton.mpr (Nat.lt_succ_self _)
      · exact List.forall_mem_append.mpr ⟨hs.seqNum, List.forall_mem_singleton.mpr hnext⟩
      · rw [List.map_append]
        refine List.nodup_append.mpr ⟨hs.nodup, List.nodup_singleton _, ?_⟩
        intro n hn m hm
        obtain ⟨c, hc, rfl⟩ := List.mem_map.mp hn
        rw [List.mem_singleton.mp hm]
        exact (hs.lt c hc).ne
  | send call => exact hsame (sending_places _ _).1 rfl rfl
  | sendLast call => exact hsame (sending_places _ _).1 rfl rfl
  | add call before after same => exact hsame (issued_displaced _ _) rfl rfl
  | unknown => exact hsame rfl rfl rfl
  | answer => exact hsame rfl rfl rfl
  | timeOut => exact hsame (issued_timedOut _) rfl rfl

/-- Two commands that are held are two, and if one displaces the other, their numbers have gone
round in between. -/
lemma Steps.displaced {cs : List (Command R)} (hs : Numbered s cs) (hheld : s.held ⊆ cs)
    (hnodup : (s.held.map Command.serial).Nodup) (h : Steps s ev o s') {c c' : Command R}
    (hdisplaced : .displaced c c' ∈ o) :
    c.serial ≠ c'.serial ∧ c.serial ≡ c'.serial [MOD 65535] := by
  cases h with
  | @add c₁ now rest calls' others commands' displaced call before after same =>
      obtain ⟨e, he, heq⟩ := List.mem_map.mp hdisplaced
      obtain ⟨rfl, rfl⟩ := Notice.displaced.inj heq
      have hkept : e.1 ∈ s.commands.map Prod.fst :=
        List.mem_map_of_mem (before.symm.subset (List.mem_append_left _ he))
      have hcall : c₁ ∈ unregistered s.calls := by
        rcases call with ⟨hperm, -⟩ | ⟨hperm, -⟩
        all_goals
          refine (unregistered_perm hperm).symm.subset ?_
          rw [unregistered_cons_of_registers _ rfl]
          exact List.mem_cons_self
      have hne : c₁.serial ≠ e.1.serial := by
        unfold held at hnodup
        rw [List.map_append] at hnodup
        exact (List.nodup_append.mp hnodup).2.2 _ (List.mem_map_of_mem hcall) _
          (List.mem_map_of_mem hkept)
      have hnum := hs.seqNum e.1 (hheld (List.mem_append_right _ hkept))
      have hnum₁ := hs.seqNum c₁ (hheld (List.mem_append_left _ hcall))
      have hsame := same e he
      refine ⟨hne.symm, ?_⟩
      unfold Nat.ModEq
      omega
  | @send c₁ sent rest call => cases sent <;> cases List.mem_singleton.mp hdisplaced
  | @sendLast c₁ sent rest call => cases sent <;> cases List.mem_singleton.mp hdisplaced
  | timeOut commands late_iff =>
      obtain ⟨e, -, heq⟩ := List.mem_map.mp hdisplaced
      cases heq
  | issue => cases List.mem_singleton.mp hdisplaced
  | answer => cases List.mem_singleton.mp hdisplaced
  | none => cases hdisplaced
  | unknown => cases hdisplaced

/-- Where the deadlines of the map come from. -/
lemma Steps.deadline (h : Steps s ev o s') {e : Command R × ℕ} (he : e ∈ s'.commands) :
    e ∈ s.commands ∨ ∃ now, ev = .addCommand e.1.serial now ∧ e.2 = now + kDefaultTimeOut := by
  cases h with
  | @add c now rest calls' others commands' displaced call before after same =>
      rcases List.mem_cons.mp (after.subset he) with rfl | hothers
      · exact .inr ⟨now, rfl, rfl⟩
      · exact .inl (before.symm.subset (List.mem_append_right _ hothers))
  | answer same commands => exact .inl (commands.symm.subset (List.mem_cons_of_mem _ he))
  | timeOut commands late_iff => exact .inl (commands.symm.subset (List.mem_append_right _ he))
  | _ => exact .inl he

lemma Steps.late (h : Steps s ev o s') {c : Command R} (hlate : .timedOut c ∈ o) :
    ∃ deadline now, (c, deadline) ∈ s.commands ∧ ev = .commandsHandle now ∧ deadline < now := by
  cases h with
  | @timeOut now late others commands late_iff =>
      obtain ⟨e, he, heq⟩ := List.mem_map.mp hlate
      obtain rfl := Notice.timedOut.inj heq
      exact ⟨e.2, now, commands.symm.subset (List.mem_append_left _ he), rfl, late_iff e he⟩
  | @send c₁ sent rest call => cases sent <;> cases List.mem_singleton.mp hlate
  | @sendLast c₁ sent rest call => cases sent <;> cases List.mem_singleton.mp hlate
  | add =>
      obtain ⟨e, -, heq⟩ := List.mem_map.mp hlate
      cases heq
  | issue => cases List.mem_singleton.mp hlate
  | answer => cases List.mem_singleton.mp hlate
  | none => cases hlate
  | unknown => cases hlate

lemma perm_of_exec (h : Exec (step (R := R) (A := A)) {} tr t) :
    (issuedIn tr).Perm (leftIn tr ++ t.held) :=
  Exec.custody held (fun x => issued x.obs) (fun x => left x.obs)
    (fun _ hx => (steps_of_step hx).custody) h

lemma numbered_of_exec (h : Exec (step (R := R) (A := A)) {} tr t) : Numbered t (issuedIn tr) := by
  refine h.history (P := fun tr t => Numbered t (issuedIn tr)) (C := fun _ => True)
    ⟨rfl, nofun, nofun, List.nodup_nil⟩ ?_ fun _ _ => trivial
  intro tr x _ hx _ hpre
  have hpost := hpre.step (steps_of_step hx)
  unfold issuedIn at hpost ⊢
  rwa [List.flatMap_append, List.flatMap_singleton]

lemma deadline_of_exec (h : Exec (step (R := R) (A := A)) {} tr t) :
    ∀ e ∈ t.commands, ∃ y ∈ tr, ∃ since,
      y.event = .addCommand e.1.serial since ∧ e.2 = since + kDefaultTimeOut := by
  refine h.history (P := fun tr t => ∀ e ∈ t.commands, ∃ y ∈ tr, ∃ since,
    y.event = .addCommand e.1.serial since ∧ e.2 = since + kDefaultTimeOut) (C := fun _ => True)
    nofun ?_ fun _ _ => trivial
  intro tr x _ hx _ hpre e he
  rcases (steps_of_step hx).deadline he with hbefore | ⟨now, hevent, hdeadline⟩
  · obtain ⟨y, hy, hsince⟩ := hpre e hbefore
    exact ⟨y, List.mem_append_left _ hy, hsince⟩
  · exact ⟨x, List.mem_append_right _ (List.mem_singleton_self x), now, hevent, hdeadline⟩

/-- No command is held twice. -/
lemma nodup_held_of_exec (h : Exec (step (R := R) (A := A)) {} tr t) :
    (t.held.map Command.serial).Nodup := by
  have hall := ((perm_of_exec h).map Command.serial).nodup_iff.mp (numbered_of_exec h).nodup
  rw [List.map_append] at hall
  exact (List.nodup_append.mp hall).2.1

lemma displaced_of_exec (h : Exec (step (R := R) (A := A)) {} tr t) :
    ∀ x ∈ tr, ∀ c c', .displaced c c' ∈ x.obs →
      c.serial ≠ c'.serial ∧ c.serial ≡ c'.serial [MOD 65535] := by
  refine Exec.each (fun tr x hexec hx c c' hdisplaced => ?_) h
  exact (steps_of_step hx).displaced (numbered_of_exec hexec)
    (fun a ha => (perm_of_exec hexec).symm.subset (List.mem_append_right _ ha))
    (nodup_held_of_exec hexec) hdisplaced

lemma late_of_exec (h : Exec (step (R := R) (A := A)) {} tr t) :
    ∀ x ∈ tr, ∀ c, .timedOut c ∈ x.obs → ∃ now, x.event = .commandsHandle now ∧
      ∃ y ∈ tr, ∃ since, y.event = .addCommand c.serial since ∧ since + kDefaultTimeOut < now := by
  refine h.history (P := fun tr t => ∀ x ∈ tr, ∀ c, .timedOut c ∈ x.obs →
    ∃ now, x.event = .commandsHandle now ∧ ∃ y ∈ tr, ∃ since,
      y.event = .addCommand c.serial since ∧ since + kDefaultTimeOut < now)
    (C := fun _ => True) nofun ?_ fun _ _ => trivial
  intro tr x hexec hx _ hbefore y hy c hlate
  rcases List.mem_append.mp hy with hy | hy
  · obtain ⟨now, hevent, z, hz, hsince⟩ := hbefore y hy c hlate
    exact ⟨now, hevent, z, List.mem_append_left _ hz, hsince⟩
  obtain rfl := List.mem_singleton.mp hy
  obtain ⟨deadline, now, hkept, hevent, hlt⟩ := (steps_of_step hx).late hlate
  obtain ⟨z, hz, since, hadd, hdeadline⟩ := deadline_of_exec hexec _ hkept
  dsimp only at hadd hdeadline
  exact ⟨now, hevent, z, List.mem_append_left _ hz, since, hadd, by omega⟩

/-- **Every command is called back once.**  Whatever the schedule, the commands issued over a run
are those called back for good, those displaced and those that calls or the map still hold, each
once.  A command is displaced only by another whose number is the same, a multiple of 65535 numbers
before or after it.  It is given up only more than a second after it was registered. -/
theorem custody_of_exec (h : Exec (step (R := R) (A := A)) {} tr t) :
    ((issuedIn tr).map Command.serial).Nodup ∧ (issuedIn tr).Perm (leftIn tr ++ t.held) ∧
      ∀ x ∈ tr, ∀ c,
        (∀ c', .displaced c c' ∈ x.obs →
          c.serial ≠ c'.serial ∧ c.serial ≡ c'.serial [MOD 65535]) ∧
        (.timedOut c ∈ x.obs → ∃ now, x.event = .commandsHandle now ∧
          ∃ y ∈ tr, ∃ since, y.event = .addCommand c.serial since ∧
            since + kDefaultTimeOut < now) :=
  ⟨(numbered_of_exec h).nodup, perm_of_exec h, fun x hx c =>
    ⟨displaced_of_exec h x hx c, late_of_exec h x hx c⟩⟩

/-- An answer that is faster than `AddCommand` finds no command, which is then given up. -/
theorem custody_of_exec_early :
    let run := trace (step (R := Unit) (A := Unit)) [.sendCommand 100 () .general, .send 0 true,
      .handler 100 2 (), .addCommand 0 100, .commandsHandle 1101] {}
    (issuedIn run.1).Perm (leftIn run.1 ++ run.2.held) ∧ run.2.held = [] ∧
      (leftIn run.1).map Command.serial = [0] :=
  ⟨(custody_of_exec (Exec.of_trace _ _)).2.1, by decide +kernel, by decide +kernel⟩

end GeneralCommandHandler

end FastLivo2
