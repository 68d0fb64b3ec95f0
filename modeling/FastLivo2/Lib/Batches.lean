import FastLivo2.Lib.Exec

/-!
# Batches

A machine collects items and hands them out in batches: in each turn some items arrive, behind those
that it holds, and then it either keeps them all or hands them all out.  Its batches are numbered.

`closedIn_iff` is about a property of an item that refers to the first of its batch.  The machine is
known by when it closes a batch, and the rule says of which arrivals the property then holds: those
of a batch have it if, from the turn that opens the batch, a turn comes that would close it before
an item arrives that has not.
-/

namespace FastLivo2

variable {σ ε ω φ α : Type*}

/-- What a turn does to the items: they are kept, or handed out. -/
def Batches (held : σ → List α) (number : σ → ℕ) (arrived : Turn σ ε ω → List α)
    (out : Turn σ ε ω → Option (List α)) (x : Turn σ ε ω) : Prop :=
  (out x = none ∧ held x.post = held x.pre ++ arrived x ∧ number x.post = number x.pre) ∨
    (out x = some (held x.pre ++ arrived x) ∧ held x.post = [] ∧ number x.post = number x.pre + 1)

/-- The items of `l` are right by the first of them. -/
def RightIn (P : α → α → Prop) (l : List α) : Prop := ∀ a ∈ l.head?, ∀ b ∈ l, P a b

/-- From a turn on, one comes that closes a batch that begins with `a`, before an item arrives that
is not right in it. -/
def ClosedIn (closes : List α → Turn σ ε ω → Prop) (arrived : Turn σ ε ω → List α)
    (P : α → α → Prop) (a : α) (later : List (Turn σ ε ω)) : Prop :=
  ∃ before y after, later = before ++ y :: after ∧
    closes ((before ++ [y]).flatMap arrived) y ∧ ∀ z ∈ before ++ [y], ∀ b ∈ arrived z, P a b

variable {step : σ → ε → Except φ (σ × ω)} {s t : σ} {tr : List (Turn σ ε ω)}
  {held : σ → List α} {number : σ → ℕ} {arrived : Turn σ ε ω → List α}
  {out : Turn σ ε ω → Option (List α)} {x : Turn σ ε ω}

lemma Batches.number_le (hx : Batches held number arrived out x) :
    number x.pre ≤ number x.post := by
  obtain ⟨-, -, hnumber⟩ | ⟨-, -, hnumber⟩ := hx <;> omega

lemma number_mono (h : Exec step s tr t)
    (hlaw : ∀ x ∈ tr, Batches held number arrived out x) : number s ≤ number t :=
  h.history (P := fun _ t => number s ≤ number t) le_rfl
    (fun _ _ _ _ hx hle => hle.trans hx.number_le) hlaw

/-- While its batch is open, the machine holds all that has arrived. -/
lemma held_of_open (h : Exec step s tr t)
    (hlaw : ∀ x ∈ tr, Batches held number arrived out x) (hopen : number t = number s) :
    held t = held s ++ tr.flatMap arrived := by
  induction h with
  | nil => exact (List.append_nil _).symm
  | @snoc tr x h hx ih =>
      have hbefore : ∀ y ∈ tr, Batches held number arrived out y :=
        fun y hy => hlaw y (List.mem_append_left _ hy)
      have hmono := number_mono h hbefore
      obtain ⟨-, hheld, hnumber⟩ | ⟨-, -, hnumber⟩ := hlaw x (by simp)
      · rw [hheld, ih hbefore (hnumber ▸ hopen), List.flatMap_append, List.flatMap_singleton,
          List.append_assoc]
      · omega

lemma number_lt_of_out (h : Exec step s tr t)
    (hlaw : ∀ x ∈ tr, Batches held number arrived out x) :
    ∀ x ∈ tr, out x ≠ none → number x.pre < number t :=
  h.history (P := fun tr t => ∀ x ∈ tr, out x ≠ none → number x.pre < number t) nofun
    (fun _ x _ _ hx ih y hy hout => by
      obtain hy | hy := List.mem_append.mp hy
      · exact (ih y hy hout).trans_le hx.number_le
      · obtain rfl := List.mem_singleton.mp hy
        obtain ⟨hnone, -⟩ | ⟨-, -, hnumber⟩ := hx
        · exact absurd hnone hout
        · omega) hlaw

/-- The batch that is open has been closed by a turn, if one of a higher number is. -/
lemma exists_closing (h : Exec step s tr t)
    (hlaw : ∀ x ∈ tr, Batches held number arrived out x) (hlt : number s < number t) :
    ∃ before y after, tr = before ++ y :: after ∧ number y.pre = number s ∧
      out y = some (held s ++ (before ++ [y]).flatMap arrived) := by
  induction h with
  | nil => exact absurd hlt (lt_irrefl _)
  | @snoc tr x h hx ih =>
      have hbefore : ∀ y ∈ tr, Batches held number arrived out y :=
        fun y hy => hlaw y (List.mem_append_left _ hy)
      obtain hlt' | hle := lt_or_ge (number s) (number x.pre)
      · obtain ⟨before, y, after, rfl, hy⟩ := ih hbefore hlt'
        exact ⟨before, y, after ++ [x], by simp, hy⟩
      · have hopen := hle.antisymm (number_mono h hbefore)
        obtain ⟨-, -, hnumber⟩ | ⟨hout, -, -⟩ := hlaw x (by simp)
        · omega
        · refine ⟨tr, x, [], rfl, hopen, ?_⟩
          rw [hout, held_of_open h hbefore hopen, List.flatMap_append, List.flatMap_singleton,
            List.append_assoc]

/-- The batch that a turn adds to has been opened by a turn, whose items are its first. -/
lemma exists_opening (hs : held s = []) (h : Exec step s tr x.pre)
    (hlaw : ∀ x ∈ tr, Batches held number arrived out x) (hne : held x.pre ++ arrived x ≠ []) :
    ∃ past first mid, tr ++ [x] = past ++ first :: mid ∧ held first.pre = [] ∧
      arrived first ≠ [] ∧ number first.pre = number x.pre ∧
      held x.pre ++ arrived x = (first :: mid).flatMap arrived := by
  have hfirst : ∀ {tr : List (Turn σ ε ω)} {x : Turn σ ε ω}, held x.pre = [] →
      held x.pre ++ arrived x ≠ [] → ∃ past first mid, tr ++ [x] = past ++ first :: mid ∧
        held first.pre = [] ∧ arrived first ≠ [] ∧ number first.pre = number x.pre ∧
        held x.pre ++ arrived x = (first :: mid).flatMap arrived := by
    intro tr x hnil hne
    rw [hnil, List.nil_append] at hne ⊢
    exact ⟨tr, x, [], rfl, hnil, hne, rfl, by simp⟩
  obtain ⟨u, hu⟩ : ∃ u, x.pre = u := ⟨_, rfl⟩
  rw [hu] at h
  induction h generalizing x with
  | nil => exact hfirst (hu ▸ hs) hne
  | @snoc tr z h hz ih =>
      have hbefore : ∀ y ∈ tr, Batches held number arrived out y :=
        fun y hy => hlaw y (List.mem_append_left _ hy)
      by_cases hnil : held x.pre = []
      · exact hfirst hnil hne
      · obtain ⟨-, hheld, hnumber⟩ | ⟨-, hheld, -⟩ := hlaw z (by simp)
        · rw [hu, hheld] at hnil
          obtain ⟨past, first, mid, hsplit, hopen, harrived, hsame, hall⟩ := ih hbefore hnil rfl
          refine ⟨past, first, mid ++ [x], ?_, hopen, harrived, ?_, ?_⟩
          · rw [hsplit, List.append_assoc]
            rfl
          · rw [hsame, hu, hnumber]
          · rw [hu, hheld, hall, ← List.cons_append, List.flatMap_append, List.flatMap_singleton]
        · exact absurd (hu ▸ hheld) hnil

/-- No turn closes a batch that stays open. -/
lemma not_closes_of_open {closes : List α → Turn σ ε ω → Prop} {before rest : List (Turn σ ε ω)}
    {z : Turn σ ε ω} (hs : held s = []) (h : Exec step s (before ++ z :: rest) t)
    (hlaw : ∀ x ∈ before ++ z :: rest, Batches held number arrived out x)
    (hcloses : ∀ x ∈ before ++ z :: rest, held x.pre ++ arrived x ≠ [] →
      (out x ≠ none ↔ closes (held x.pre ++ arrived x) x))
    (hopen : number t = number s) (hne : (before ++ [z]).flatMap arrived ≠ []) :
    ¬closes ((before ++ [z]).flatMap arrived) z := by
  intro hclose
  obtain ⟨u, hbefore, hrest⟩ := h.append_inv
  obtain rfl := hrest.pre_head.2 z rfl
  have hlawb := fun w hw => hlaw w (List.mem_append_left _ hw)
  have hlawr := fun w hw => hlaw w (List.mem_append_right _ hw)
  have hle := number_mono hbefore hlawb
  have hge := number_mono hrest hlawr
  have hsame : held z.pre ++ arrived z = (before ++ [z]).flatMap arrived := by
    rw [held_of_open hbefore hlawb (by omega), hs, List.nil_append, List.flatMap_append,
      List.flatMap_singleton]
  rw [← hsame] at hne hclose
  have hlt := number_lt_of_out hrest hlawr z (List.mem_cons_self ..)
    ((hcloses z (by simp) hne).mpr hclose)
  omega

lemma Batches.eq_of_out {l : List α} (hx : Batches held number arrived out x)
    (hl : out x = some l) : held x.pre ++ arrived x = l := by
  obtain ⟨hnone, -⟩ | ⟨hsome, -⟩ := hx
  · exact absurd (hnone.symm.trans hl) (Option.some_ne_none _).symm
  · exact Option.some.inj (hsome.symm.trans hl)

lemma head_flatMap {l : List (Turn σ ε ω)} {a : α} (hx : x ∈ l.head?)
    (ha : a ∈ (arrived x).head?) : a ∈ (l.flatMap arrived).head? := by
  obtain ⟨rest, rfl⟩ := List.head?_eq_some_iff.mp hx
  rw [List.flatMap_cons, List.head?_append, show (arrived x).head? = some a from ha]
  rfl

/-- The first turn of a stretch is the first up to any turn of it. -/
lemma head_of_split {before after later : List (Turn σ ε ω)} {y : Turn σ ε ω}
    (h : x :: later = before ++ y :: after) (rest : List (Turn σ ε ω)) :
    x ∈ (before ++ y :: rest).head? := by
  cases before with
  | nil => exact congrArg some (List.cons.inj h).1.symm
  | cons z before => exact congrArg some (List.cons.inj h).1.symm

section Closed

variable {closes : List α → Turn σ ε ω → Prop} {P : α → α → Prop}

/-- A batch that is right has been closed before an item arrived that is not. -/
lemma closedIn_of_rightIn {later : List (Turn σ ε ω)} {a : α}
    (h : Exec step x.pre (x :: later) t)
    (hlaw : ∀ y ∈ x :: later, Batches held number arrived out y)
    (hcloses : ∀ y ∈ x :: later, held y.pre ++ arrived y ≠ [] →
      (out y ≠ none ↔ closes (held y.pre ++ arrived y) y))
    (hright : ∀ y ∈ x :: later, number y.pre = number x.pre → ∀ l ∈ out y, RightIn P l)
    (hopen : held x.pre = []) (hlt : number x.pre < number t) (ha : a ∈ (arrived x).head?) :
    ClosedIn closes arrived P a (x :: later) := by
  obtain ⟨before, y, after, hsplit, hnumber, hout⟩ := exists_closing h hlaw hlt
  rw [hopen, List.nil_append] at hout
  have hy : y ∈ x :: later := by simp [hsplit]
  have hhead : a ∈ ((before ++ [y]).flatMap arrived).head? :=
    head_flatMap (head_of_split hsplit []) ha
  refine ⟨before, y, after, hsplit, ?_, fun z hz b hb => ?_⟩
  · rw [← (hlaw y hy).eq_of_out hout] at hhead ⊢
    refine (hcloses y hy fun hnil => ?_).mp (by simp [hout])
    rw [hnil] at hhead
    cases hhead
  · exact hright y hy hnumber _ hout a hhead b (List.mem_flatMap.mpr ⟨z, hz, hb⟩)

/-- A batch that is closed before an item arrives that is not right has none that is not. -/
lemma rightIn_of_closedIn {past later : List (Turn σ ε ω)} {l : List α}
    (hs : held s = []) (h : Exec step s (past ++ x :: later) t)
    (hlaw : ∀ y ∈ past ++ x :: later, Batches held number arrived out y)
    (hcloses : ∀ y ∈ past ++ x :: later, held y.pre ++ arrived y ≠ [] →
      (out y ≠ none ↔ closes (held y.pre ++ arrived y) y))
    (hclosed : ∀ y rest, (y :: rest) <:+ past ++ x :: later → held y.pre = [] →
      number y.pre = number x.pre → ∀ a ∈ (arrived y).head?, ClosedIn closes arrived P a (y :: rest))
    (hl : l ∈ out x) : RightIn P l := by
  intro a ha b hb
  obtain ⟨u, hpast, hlater⟩ := h.append_inv
  obtain rfl := hlater.pre_head.2 x rfl
  have hbefore : ∀ y ∈ past, Batches held number arrived out y :=
    fun y hy => hlaw y (List.mem_append_left _ hy)
  obtain rfl := (hlaw x (by simp)).eq_of_out hl
  obtain ⟨past', first, mid, hsplit, hopen, harrived, hnumber, hall⟩ :=
    exists_opening hs hpast hbefore (List.ne_nil_of_mem hb)
  have hwhole : past ++ x :: later = past' ++ first :: (mid ++ later) := by
    rw [← List.singleton_append, ← List.append_assoc, hsplit]
    simp
  have hfirst : a ∈ (arrived first).head? := by
    obtain ⟨c, hc⟩ := Option.isSome_iff_exists.mp (List.isSome_head?.mpr harrived)
    rw [hall] at ha
    exact Option.some.inj (ha.symm.trans (head_flatMap rfl hc)) ▸ hc
  obtain ⟨before, z, after, hcut, hclose, hbound⟩ := hclosed first (mid ++ later)
    ⟨past', hwhole.symm⟩ hopen hnumber a hfirst
  rw [hall] at hb
  obtain ⟨y, hy, hby⟩ := List.mem_flatMap.mp hb
  have hcut' : (first :: mid) ++ later = (before ++ [z]) ++ after := by
    rw [List.append_assoc]
    exact hcut
  obtain ⟨rest, hrest, -⟩ | ⟨rest, hrest, -⟩ := List.append_eq_append_iff.mp hcut'
  · exact hbound y (hrest ▸ List.mem_append_left _ hy) b hby
  obtain rfl | ⟨rest, x', rfl⟩ := List.eq_nil_or_concat rest
  · exact hbound y (by rwa [hrest, List.append_nil] at hy) b hby
  -- the turn would have closed the batch before `x`, but it was open then
  have hlists : past ++ [x] = past' ++ (before ++ z :: rest) ++ [x'] := by
    rw [hsplit, hrest]
    simp
  obtain ⟨rfl, -⟩ := List.append_inj' hlists rfl
  obtain ⟨v, -, hframe⟩ := hpast.append_inv
  obtain rfl := hframe.pre_head.2 first (head_of_split hcut rest)
  have hmem : first ∈ before ++ [z] := List.mem_of_head? (head_of_split hcut [])
  exact absurd hclose (not_closes_of_open hopen hframe
    (fun w hw => hbefore w (List.mem_append_right _ hw))
    (fun w hw => hcloses w (List.mem_append_left _ (List.mem_append_right _ hw)))
    hnumber.symm (List.ne_nil_of_mem (List.mem_flatMap.mpr
      ⟨first, hmem, List.mem_of_head? hfirst⟩)))

/-- **The batches of a run.**  They are right exactly when from the opening of each, a turn comes
that would close it before an item arrives that is not. -/
theorem closedIn_iff {N : ℕ → Prop} (hs : held s = []) (h : Exec step s tr t)
    (hlaw : ∀ x ∈ tr, Batches held number arrived out x)
    (hcloses : ∀ x ∈ tr, held x.pre ++ arrived x ≠ [] →
      (out x ≠ none ↔ closes (held x.pre ++ arrived x) x)) :
    (∀ x ∈ tr, N (number x.pre) → ∀ l ∈ out x, RightIn P l) ↔
      ∀ x later, (x :: later) <:+ tr → held x.pre = [] → number x.pre < number t →
        N (number x.pre) → ∀ a ∈ (arrived x).head?, ClosedIn closes arrived P a (x :: later) := by
  constructor
  · rintro hright x later ⟨past, rfl⟩ hopen hlt hN a ha
    obtain ⟨u, -, hlater⟩ := h.append_inv
    obtain rfl := hlater.pre_head.2 x rfl
    exact closedIn_of_rightIn hlater (fun y hy => hlaw y (List.mem_append_right _ hy))
      (fun y hy => hcloses y (List.mem_append_right _ hy))
      (fun y hy hsame => hright y (List.mem_append_right _ hy) (hsame ▸ hN)) hopen hlt ha
  · intro hclosed x hx hN l hl
    have hlt := number_lt_of_out h hlaw x hx (by simp [show out x = some l from hl])
    obtain ⟨past, later, rfl⟩ := List.append_of_mem hx
    exact rightIn_of_closedIn hs h hlaw hcloses (fun y rest hrest hopen hsame =>
      hclosed y rest hrest hopen (hsame ▸ hlt) (hsame ▸ hN)) hl

end Closed

end FastLivo2
