import FastLivo2.Lib.Exec

/-!
# Gates that remember the last stamp they let through

A gate compares each stamp with the last one it accepted, and a rejected stamp leaves no trace.
So it accepts everything from some stamp on exactly when each of these stamps passes after its
predecessor, and the first of them after whatever the gate remembers by then
(`verdicts_drop_iff`).  `verdicts_exec` reads the gate off a machine that runs it.
-/

namespace FastLivo2

namespace Gate

variable {K : Type*} (pass : K → K → Prop) [DecidableRel pass]

/-- What the gate says to each stamp, `last` being the one it remembers. -/
def verdicts : K → List K → List Bool
  | _, [] => []
  | last, t :: ts =>
      if pass last t then true :: verdicts t ts else false :: verdicts last ts

/-- The stamp remembered afterwards. -/
def remembered : K → List K → K
  | last, [] => last
  | last, t :: ts => if pass last t then remembered t ts else remembered last ts

lemma remembered_snoc (last : K) (ts : List K) (t : K) :
    remembered pass last (ts ++ [t]) =
      if pass (remembered pass last ts) t then t else remembered pass last ts := by
  induction ts generalizing last with
  | nil => rfl
  | cons u ts ih =>
      by_cases h : pass last u <;> simp [remembered, h, ih]

lemma verdicts_append (last : K) (ts us : List K) :
    verdicts pass last (ts ++ us) =
      verdicts pass last ts ++ verdicts pass (remembered pass last ts) us := by
  induction ts generalizing last with
  | nil => rfl
  | cons t ts ih =>
      by_cases h : pass last t <;> simp [verdicts, remembered, h, ih]

lemma length_verdicts (last : K) (ts : List K) :
    (verdicts pass last ts).length = ts.length := by
  induction ts generalizing last with
  | nil => rfl
  | cons t ts ih =>
      by_cases h : pass last t <;> simp [verdicts, h, ih]

/-- A gate lets a stretch through exactly when each stamp passes after the one before it. -/
theorem verdicts_true_iff {last : K} {ts : List K} :
    (∀ v ∈ verdicts pass last ts, v = true) ↔ (last :: ts).IsChain pass := by
  induction ts generalizing last with
  | nil => simp [verdicts]
  | cons t ts ih =>
      rw [List.isChain_cons_cons]
      by_cases h : pass last t
      · rw [verdicts, if_pos h, List.forall_mem_cons, ih]
        simp [h]
      · rw [verdicts, if_neg h, List.forall_mem_cons]
        simp [h]

/-- **When a gate accepts everything after its first stamps**: exactly when each stamp passes
after the one before it, the first of them after the stamp that is remembered then. -/
theorem verdicts_drop_iff {last : K} (ts : List K) {us : List K} {n : ℕ} (hn : ts.length = n) :
    (∀ v ∈ (verdicts pass last (ts ++ us)).drop n, v = true) ↔
      (remembered pass last ts :: us).IsChain pass := by
  have hlength : (verdicts pass last ts).length = n := (length_verdicts pass last ts).trans hn
  rw [verdicts_append, List.drop_left' hlength, verdicts_true_iff]

/-! ## A gate inside a machine -/

/-- **A machine that runs a gate.**  If every arrival is judged by the gate against the stamp the
machine remembers, and nothing else moves that stamp, then along a run the judgements are
the gate's verdicts on the arrivals. -/
theorem verdicts_exec {σ ε ω φ A : Type*} {step : σ → ε → Except φ (σ × ω)} {s t : σ}
    {tr : List (Turn σ ε ω)} (last : σ → K) {arrives : Turn σ ε ω → Option A} {time : A → K}
    {accepts : A → Bool} {C : Turn σ ε ω → Prop}
    (hidle : ∀ x : Turn σ ε ω, x.Taken step → C x → arrives x = none →
      last x.post = last x.pre)
    (harrive : ∀ (x : Turn σ ε ω) (a : A), x.Taken step → C x → arrives x = some a →
      accepts a = decide (pass (last x.pre) (time a)) ∧
        last x.post = if pass (last x.pre) (time a) then time a else last x.pre)
    (h : Exec step s tr t) (hC : ∀ x ∈ tr, C x) :
    (tr.filterMap arrives).map accepts =
        verdicts pass (last s) ((tr.filterMap arrives).map time) ∧
      last t = remembered pass (last s) ((tr.filterMap arrives).map time) := by
  refine Exec.history (P := fun tr t => (tr.filterMap arrives).map accepts =
      verdicts pass (last s) ((tr.filterMap arrives).map time) ∧
    last t = remembered pass (last s) ((tr.filterMap arrives).map time))
    (C := C) ⟨rfl, rfl⟩ ?_ h hC
  rintro tr x - hx hc ⟨hverdicts, hlast⟩
  rw [List.filterMap_append]
  cases ha : arrives x with
  | none =>
      have hsame := hidle x hx hc ha
      have hnil : [x].filterMap arrives = [] := by simp [ha]
      rw [hnil, List.append_nil]
      exact ⟨hverdicts, hsame.trans hlast⟩
  | some a =>
      obtain ⟨haccepts, hmoves⟩ := harrive x a hx hc ha
      have hone : [x].filterMap arrives = [a] := by simp [ha]
      rw [hone, List.map_append, List.map_append, List.map_singleton, List.map_singleton,
        verdicts_append, remembered_snoc, ← hlast, ← hverdicts, haccepts, hmoves]
      by_cases hp : pass (last x.pre) (time a) <;> simp [verdicts, hp]

end Gate

end FastLivo2
