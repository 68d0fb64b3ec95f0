import Mathlib

/-!
# Executions of a machine whose step may fault

A *machine* is a step function `step : σ → ε → Except φ (σ × ω)`: from a state and an event it
either faults or moves to a new state and lets an observer see something.  `Exec step s tr t`
says that the turns `tr` lead from `s` to `t`, every one of them without a fault.  The turns
keep their end states, so a statement about "every state reached" or "every group handed out"
is a statement about the list `tr`.

Three rules carry every result over it: `Exec.invariant` (a property kept by each turn that
meets a side condition holds at both ends of every such turn), `Exec.history` (the same for
a property of the past together with the state) and `Exec.conservation` (a queue whose turns
balance what enters against what leaves balances over the whole run).  `Exec.simulation` matches an
execution of one machine by one of another, and `Exec.reaches` leads to a goal by a measure.  `run`
is the executable counterpart, and `Exec.of_run` reads an execution off its result.
-/

namespace FastLivo2

/-- One turn of a run: the state before, the event, what was observed, the state after. -/
structure Turn (σ ε ω : Type*) where
  pre : σ
  event : ε
  obs : ω
  post : σ

/-- The fault of a step that cannot be taken now. -/
inductive Blocked
  | blocked
  deriving DecidableEq

variable {σ ε ω φ : Type*}

/-- The turn is one the machine takes. -/
def Turn.Taken (step : σ → ε → Except φ (σ × ω)) (x : Turn σ ε ω) : Prop :=
  step x.pre x.event = .ok (x.post, x.obs)

/-- From `s` the machine takes the turns `tr`, none of which faults, and ends in `t`. -/
inductive Exec (step : σ → ε → Except φ (σ × ω)) (s : σ) : List (Turn σ ε ω) → σ → Prop
  | nil : Exec step s [] s
  | snoc {tr : List (Turn σ ε ω)} {x : Turn σ ε ω} :
      Exec step s tr x.pre → x.Taken step → Exec step s (tr ++ [x]) x.post

namespace Exec

variable {step : σ → ε → Except φ (σ × ω)} {s t u : σ} {tr tr' : List (Turn σ ε ω)}

/-! ## Structure of an execution -/

lemma taken (h : Exec step s tr t) : ∀ x ∈ tr, x.Taken step := by
  induction h with
  | nil => simp
  | snoc _ hx ih =>
      intro y hy
      rcases List.mem_append.mp hy with hy | hy
      · exact ih y hy
      · rwa [List.mem_singleton.mp hy]

lemma trans (h : Exec step s tr t) (h' : Exec step t tr' u) : Exec step s (tr ++ tr') u := by
  induction h' with
  | nil => simpa using h
  | snoc _ hx ih =>
      rw [← List.append_assoc]
      exact ih.snoc hx

lemma cons {x : Turn σ ε ω} (hx : x.Taken step) (h : Exec step x.post tr t) :
    Exec step x.pre (x :: tr) t :=
  ((Exec.nil (s := x.pre)).snoc hx).trans h

/-- An execution of two lots of turns goes through a state between them. -/
lemma append_inv (h : Exec step s (tr ++ tr') t) : ∃ u, Exec step s tr u ∧ Exec step u tr' t := by
  induction tr' using List.reverseRecOn generalizing t with
  | nil => exact ⟨t, by rwa [List.append_nil] at h, .nil⟩
  | append_singleton tr' x ih =>
      rw [← List.append_assoc] at h
      generalize hall : tr ++ tr' ++ [x] = all at h
      cases h with
      | nil => simp at hall
      | snoc h hx =>
          obtain ⟨rfl, hx'⟩ := List.append_inj' hall rfl
          obtain rfl := List.singleton_inj.mp hx'
          obtain ⟨u, h, h'⟩ := ih h
          exact ⟨u, h, h'.snoc hx⟩

/-- An execution sets out from the state before its first turn. -/
lemma pre_head (h : Exec step s tr t) : (tr = [] → t = s) ∧ ∀ x ∈ tr.head?, x.pre = s := by
  induction h with
  | nil => exact ⟨fun _ => rfl, nofun⟩
  | @snoc tr x h hx ih =>
      refine ⟨by simp, fun y hy => ?_⟩
      cases tr with
      | nil =>
          obtain rfl := Option.some.inj hy
          exact ih.1 rfl
      | cons z tr => exact ih.2 y hy

/-- Each turn sets out from where an execution leads. -/
lemma each {P : Turn σ ε ω → Prop}
    (hP : ∀ tr x, Exec step s tr x.pre → x.Taken step → P x) (h : Exec step s tr t) :
    ∀ x ∈ tr, P x := by
  induction h with
  | nil => simp
  | snoc h hx ih =>
      intro y hy
      rcases List.mem_append.mp hy with hy | hy
      · exact ih y hy
      · rw [List.mem_singleton.mp hy]
        exact hP _ _ h hx

/-! ## Invariants -/

/-- **History rule.**  A property of the turns taken so far and the state they lead to holds
of every execution, if it holds at the start and every turn meeting `C` carries it on. -/
theorem history {P : List (Turn σ ε ω) → σ → Prop} {C : Turn σ ε ω → Prop} (h₀ : P [] s)
    (hstep : ∀ tr x, Exec step s tr x.pre → x.Taken step → C x → P tr x.pre →
      P (tr ++ [x]) x.post)
    (h : Exec step s tr t) (hC : ∀ x ∈ tr, C x) : P tr t := by
  induction h with
  | nil => exact h₀
  | snoc h hx ih =>
      exact hstep _ _ h hx (hC _ (by simp)) (ih fun y hy => hC y (by simp [hy]))

/-- **Invariant rule.**  A state property kept by every turn meeting `C` holds at both ends of
every turn of an execution whose turns meet `C`, and at its end. -/
theorem invariant {I : σ → Prop} {C : Turn σ ε ω → Prop} (h₀ : I s)
    (hstep : ∀ x : Turn σ ε ω, x.Taken step → C x → I x.pre → I x.post)
    (h : Exec step s tr t) (hC : ∀ x ∈ tr, C x) :
    I t ∧ ∀ x ∈ tr, I x.pre ∧ I x.post := by
  refine history (P := fun tr t => I t ∧ ∀ x ∈ tr, I x.pre ∧ I x.post) (C := C)
    ⟨h₀, by simp⟩ ?_ h hC
  rintro tr x - hx hc ⟨hpre, hall⟩
  have hpost := hstep x hx hc hpre
  refine ⟨hpost, fun y hy => ?_⟩
  rcases List.mem_append.mp hy with hy | hy
  · exact hall y hy
  · rw [List.mem_singleton.mp hy]
    exact ⟨hpre, hpost⟩

/-- **Conservation rule.**  If each turn balances a queue, what the queue held and gained over
the run is what it lost, in order, followed by what it still holds. -/
theorem conservation {α : Type*} {queue : σ → List α} {gained lost : Turn σ ε ω → List α}
    {C : Turn σ ε ω → Prop}
    (hstep : ∀ x : Turn σ ε ω, x.Taken step → C x →
      queue x.pre ++ gained x = lost x ++ queue x.post)
    (h : Exec step s tr t) (hC : ∀ x ∈ tr, C x) :
    queue s ++ tr.flatMap gained = tr.flatMap lost ++ queue t := by
  refine history (P := fun tr t => queue s ++ tr.flatMap gained = tr.flatMap lost ++ queue t)
    (C := C) (by simp) ?_ h hC
  intro tr x _ hx hc ih
  simp only [List.flatMap_append, List.flatMap_singleton]
  rw [← List.append_assoc, ih, List.append_assoc, hstep x hx hc, List.append_assoc]

/-- **Simulation rule.**  If every turn meeting `C` is matched by an execution of another machine
between the views of its ends, so is an execution whose turns meet `C`, lot by lot. -/
theorem simulation {σ' ε' ω' φ' : Type*} {step' : σ' → ε' → Except φ' (σ' × ω')} (view : σ → σ')
    {R : Turn σ ε ω → List (Turn σ' ε' ω') → Prop} {C : Turn σ ε ω → Prop}
    (hstep : ∀ x : Turn σ ε ω, x.Taken step → C x →
      ∃ lot, Exec step' (view x.pre) lot (view x.post) ∧ R x lot)
    (h : Exec step s tr t) (hC : ∀ x ∈ tr, C x) :
    ∃ lots, List.Forall₂ R tr lots ∧ Exec step' (view s) lots.flatten (view t) := by
  refine history (P := fun tr t => ∃ lots, List.Forall₂ R tr lots ∧
    Exec step' (view s) lots.flatten (view t)) (C := C) ⟨[], .nil, .nil⟩ ?_ h hC
  rintro tr x - hx hc ⟨lots, hlots, hexec⟩
  obtain ⟨lot, hlot, hR⟩ := hstep x hx hc
  refine ⟨lots ++ [lot], List.rel_append hlots (.cons hR .nil), ?_⟩
  rw [List.flatten_append, List.flatten_singleton]
  exact hexec.trans hlot

/-- The simulation rule where one turn is matched by one turn. -/
lemma lockstep {σ' ε' ω' φ' : Type*} {step' : σ' → ε' → Except φ' (σ' × ω')} (view : σ → σ')
    {R : Turn σ ε ω → Turn σ' ε' ω' → Prop}
    (hstep : ∀ x : Turn σ ε ω, x.Taken step →
      ∃ y, y.Taken step' ∧ y.pre = view x.pre ∧ y.post = view x.post ∧ R x y)
    (h : Exec step s tr t) : ∃ tr', List.Forall₂ R tr tr' ∧ Exec step' (view s) tr' (view t) := by
  have hlots : ∃ lots, List.Forall₂ (fun x lot => ∃ y, lot = [y] ∧ R x y) tr lots ∧
      Exec step' (view s) lots.flatten (view t) := by
    refine h.simulation view (C := fun _ => True) (fun x hx _ => ?_) fun _ _ => trivial
    obtain ⟨y, hy, hpre, hpost, hR⟩ := hstep x hx
    rw [← hpre, ← hpost]
    exact ⟨[y], .cons hy .nil, y, rfl, hR⟩
  obtain ⟨lots, hlots, hexec⟩ := hlots
  refine ⟨lots.flatten, ?_, hexec⟩
  clear h hexec
  induction hlots with
  | nil => exact .nil
  | cons hx _ ih =>
      obtain ⟨y, rfl, hR⟩ := hx
      exact .cons hR ih

/-! ## Progress -/

/-- **Measure rule.**  If every state that meets `I` and is not done has a turn meeting `C` that
lowers a well-founded measure and keeps `I`, such turns lead to a state that is done. -/
theorem reaches {I Done : σ → Prop} {C : Turn σ ε ω → Prop} {r : σ → σ → Prop}
    (hwf : WellFounded r)
    (hstep : ∀ s, I s → ¬Done s → ∃ x : Turn σ ε ω, x.pre = s ∧ x.Taken step ∧ C x ∧
      r x.post s ∧ I x.post)
    (hs : I s) : ∃ tr t, Exec step s tr t ∧ (∀ x ∈ tr, C x) ∧ I t ∧ Done t := by
  induction s using hwf.induction with
  | _ s ih =>
      by_cases hdone : Done s
      · exact ⟨[], s, .nil, by simp, hs, hdone⟩
      · obtain ⟨x, rfl, hx, hc, hlower, hpost⟩ := hstep s hs hdone
        obtain ⟨tr, t, hexec, hall, ht⟩ := ih _ hlower hpost
        exact ⟨x :: tr, t, .cons hx hexec, List.forall_mem_cons.mpr ⟨hc, hall⟩, ht⟩

end Exec

/-! ## Running the machine -/

/-- Take the events one after the other, recording the turns. -/
def run (step : σ → ε → Except φ (σ × ω)) : List ε → σ → Except φ (List (Turn σ ε ω) × σ)
  | [], s => .ok ([], s)
  | e :: es, s =>
      match step s e with
      | .error f => .error f
      | .ok (u, o) =>
          match run step es u with
          | .error f => .error f
          | .ok (tr, t) => .ok (⟨s, e, o, u⟩ :: tr, t)

/-- A run that takes an event takes its step, and goes on from the state it leads to. -/
lemma run_cons_eq_ok {step : σ → ε → Except φ (σ × ω)} {e : ε} {es : List ε} {s t : σ}
    {tr : List (Turn σ ε ω)} (h : run step (e :: es) s = .ok (tr, t)) :
    ∃ u o tr', step s e = .ok (u, o) ∧ run step es u = .ok (tr', t) ∧
      tr = ⟨s, e, o, u⟩ :: tr' := by
  cases hs : step s e with
  | error f => simp [run, hs] at h
  | ok p =>
      obtain ⟨u, o⟩ := p
      cases hr : run step es u with
      | error f => simp [run, hs, hr] at h
      | ok q =>
          obtain ⟨tr', t'⟩ := q
          obtain ⟨rfl, rfl⟩ : ⟨s, e, o, u⟩ :: tr' = tr ∧ t' = t := by
            simpa [run, hs, hr] using h
          exact ⟨u, o, tr', rfl, hr, rfl⟩

/-- A run that ends without a fault is an execution. -/
theorem Exec.of_run {step : σ → ε → Except φ (σ × ω)} :
    ∀ {es : List ε} {s t : σ} {tr : List (Turn σ ε ω)},
      run step es s = .ok (tr, t) → Exec step s tr t
  | [], s, t, tr, h => by
      obtain ⟨rfl, rfl⟩ : [] = tr ∧ s = t := by simpa [run] using h
      exact .nil
  | e :: es, s, t, tr, h => by
      obtain ⟨u, o, tr', hs, hr, rfl⟩ := run_cons_eq_ok h
      exact Exec.cons (x := ⟨s, e, o, u⟩) hs (Exec.of_run hr)

/-- The turns of a run and the state it ends in; nothing when the run faults. -/
def trace (step : σ → ε → Except φ (σ × ω)) (es : List ε) (s : σ) : List (Turn σ ε ω) × σ :=
  match run step es s with
  | .ok r => r
  | .error _ => ([], s)

/-- The trace of a run is an execution, whether or not the run went through. -/
lemma Exec.of_trace {step : σ → ε → Except φ (σ × ω)} (es : List ε) (s : σ) :
    Exec step s (trace step es s).1 (trace step es s).2 := by
  unfold trace
  split
  · exact Exec.of_run ‹_›
  · exact .nil

lemma event_mem_of_run {step : σ → ε → Except φ (σ × ω)} {x : Turn σ ε ω} :
    ∀ {es : List ε} {s t : σ} {tr : List (Turn σ ε ω)},
      run step es s = .ok (tr, t) → x ∈ tr → x.event ∈ es
  | [], s, t, tr, h, hx => by
      obtain ⟨rfl, -⟩ : [] = tr ∧ s = t := by simpa [run] using h
      cases hx
  | e :: es, s, t, tr, h, hx => by
      obtain ⟨u, o, tr', -, hr, rfl⟩ := run_cons_eq_ok h
      rcases List.mem_cons.mp hx with rfl | hx
      · exact List.mem_cons_self ..
      · exact List.mem_cons_of_mem _ (event_mem_of_run hr hx)

/-- The turns of a trace take events of its list. -/
lemma event_mem_of_trace {step : σ → ε → Except φ (σ × ω)} {es : List ε} {s : σ}
    {x : Turn σ ε ω} (h : x ∈ (trace step es s).1) : x.event ∈ es := by
  unfold trace at h
  split at h
  · exact event_mem_of_run ‹_› h
  · cases h

/-- Events taken in two lots are taken one after the other. -/
lemma run_append {step : σ → ε → Except φ (σ × ω)} :
    ∀ (es es' : List ε) (s : σ), run step (es ++ es') s =
      (run step es s).bind fun r => (run step es' r.2).map fun r' => (r.1 ++ r'.1, r'.2)
  | [], es', s => by
      cases h : run step es' s <;> simp [run, Except.bind, Except.map, h]
  | e :: es, es', s => by
      rw [List.cons_append, run, run]
      cases step s e with
      | error f => simp [Except.bind]
      | ok p =>
          dsimp only
          rw [run_append es es' p.1]
          cases run step es p.1 with
          | error f => simp [Except.bind]
          | ok q => cases h : run step es' q.2 <;> simp [Except.bind, Except.map, h]

/-- **Progress rule.**  If no state that meets `I` faults, and each event leads to another one,
every list of events is taken to its end. -/
theorem run_returns {step : σ → ε → Except φ (σ × ω)} {I : σ → Prop}
    (hstep : ∀ s e, I s → ∃ t o, step s e = .ok (t, o) ∧ I t) :
    ∀ (es : List ε) {s : σ}, I s → ∃ tr t, run step es s = .ok (tr, t) ∧ I t
  | [], s, hs => ⟨[], s, rfl, hs⟩
  | e :: es, s, hs => by
      obtain ⟨u, o, hu, hIu⟩ := hstep s e hs
      obtain ⟨tr, t, ht, hIt⟩ := run_returns hstep es hIu
      exact ⟨⟨s, e, o, u⟩ :: tr, t, by simp [run, hu, ht], hIt⟩

/-- The turns of a run take its events in order. -/
lemma events_of_run {step : σ → ε → Except φ (σ × ω)} :
    ∀ {es : List ε} {s t : σ} {tr : List (Turn σ ε ω)},
      run step es s = .ok (tr, t) → tr.map Turn.event = es
  | [], s, t, tr, h => by
      obtain ⟨rfl, -⟩ : [] = tr ∧ s = t := by simpa [run] using h
      rfl
  | e :: es, s, t, tr, h => by
      obtain ⟨u, o, tr', -, hr, rfl⟩ := run_cons_eq_ok h
      rw [List.map_cons, events_of_run hr]

/-- A run sets out from its start. -/
lemma pre_of_run {step : σ → ε → Except φ (σ × ω)} {es : List ε} {s t : σ} {x : Turn σ ε ω}
    {tr : List (Turn σ ε ω)} (h : run step es s = .ok (x :: tr, t)) : x.pre = s := by
  cases es with
  | nil => simp [run] at h
  | cons e es =>
      obtain ⟨u, o, tr', -, -, htr⟩ := run_cons_eq_ok h
      obtain ⟨rfl, -⟩ := List.cons.inj htr
      rfl

end FastLivo2
