import FastLivo2.GiveFeature

/-!
# The scan of a line for planes

What the first loop of `give_feature` looks at, as a relation between positions of a line.  From a
position outside the blind zone `plane_judge` takes a group of points up to the first one that is in
the blind zone or, past the first `group_size`, too far away (`GroupEnd`); the next position is the
end of the group if it is a plane, and the one after it otherwise (`Next`).

A group that is a plane and runs to the end of the line has its end labelled as well, one past the
array.  With the lines that lie in the blind zone altogether, with groups whose first `group_size`
points are not there, and with groups of fewer than two points, whose distances are read all the
same, these are all the accesses out of range that a line can cause (`giveFeature_overruns_iff`).
-/

namespace FastLivo2

/-- What `plane_judge` reads of a type. -/
def OrgType.measure (t : OrgType) : Extended ℚ × Extended ℚ := (t.range, t.dista)

namespace Preprocessor

variable (s : Preprocessor) (pl : List PointXYZINormal) (types : List OrgType)

/-- The point at `i` is in the blind zone. -/
def BlindAt (i : ℕ) : Prop := ∃ t, types[i]? = some t ∧ t.range < s.blindSqr

/-- The vector between two points of a line. -/
def between (i k : ℕ) : CloudV3D := CloudV3D.between (pl.getD i {}) (pl.getD k {})

/-- The point at `k` is too far from that at `i` for their group. -/
def FarFrom (i k : ℕ) : Prop :=
  k < pl.length ∧ ∃ t, types[i]? = some t ∧ s.groupDis t.range ≤ (between pl i k).sqNorm

/-- The group of `i` stops at `k`. -/
def StopsAt (i k : ℕ) : Prop := s.BlindAt types k ∨ ¬s.InGroup i k ∧ s.FarFrom pl types i k

/-- The group of `i` ends at `e`, where the line ends or the group stops. -/
structure GroupEnd (i e : ℕ) : Prop where
  le : i ≤ e
  le_length : e ≤ pl.length
  goesOn : ∀ k, i ≤ k → k < e → ¬s.StopsAt pl types i k
  ends : e = pl.length ∨ s.StopsAt pl types i e

/-- The distances of the points from `i` up to `e`. -/
def distas (i e : ℕ) : List (Extended ℚ) := ((types.drop i).take (e - i)).map OrgType.dista

/-- The tests on the group of `i` that ends at `e`. -/
def groupTest (i e : ℕ) : Except PreprocessFault Bool :=
  let v := between pl i (min e (pl.length - 1))
  s.planeTest v.sqNorm (lengWid (pl.getD i {}) v ((pl.drop (i + 1)).take (e - (i + 1))))
    (distas types i e)

/-- The position after `i`. -/
inductive Next (i : ℕ) : ℕ → Prop
  | blind : s.BlindAt types i → Next i (i + 1)
  | cut {e : ℕ} : i < pl.length → ¬s.BlindAt types i → s.GroupEnd pl types i e →
      s.BlindAt types e → Next i (e + 1)
  | loose {e : ℕ} : i < pl.length → ¬s.BlindAt types i → s.GroupEnd pl types i e →
      ¬s.BlindAt types e → ¬s.InGroup i e → s.groupTest pl types i e = .ok false → Next i (e + 1)
  | plane {e : ℕ} : i < pl.length → ¬s.BlindAt types i → s.GroupEnd pl types i e →
      ¬s.BlindAt types e → ¬s.InGroup i e → s.groupTest pl types i e = .ok true →
      e < pl.length → Next i e

variable {s pl types} {m : CloudLibm} {types' : List OrgType} {i e k : ℕ}

lemma BlindAt.lt (h : s.BlindAt types i) : i < types.length := by
  obtain ⟨t, ht, -⟩ := h
  exact (List.getElem?_eq_some_iff.mp ht).1

/-- Positions before one in the group are in the group. -/
lemma InGroup.mono (h : s.InGroup i k) (hle : e ≤ k) : s.InGroup i e := by
  obtain h | h := h
  · exact .inl h
  · exact .inr (by omega)

lemma GroupEnd.unique {e' : ℕ} (h : s.GroupEnd pl types i e) (h' : s.GroupEnd pl types i e') :
    e = e' := by
  obtain hlt | heq | hgt := lt_trichotomy e e'
  · have hstop := h.ends.resolve_left (by have := h'.le_length; omega)
    exact absurd hstop (h'.goesOn e h.le hlt)
  · exact heq
  · have hstop := h'.ends.resolve_left (by have := h.le_length; omega)
    exact absurd hstop (h.goesOn e' h'.le hgt)

/-- The types differ in what `plane_judge` does not read. -/
def SameMeasure (types' types : List OrgType) : Prop :=
  types'.map OrgType.measure = types.map OrgType.measure

lemma SameMeasure.length_eq (h : SameMeasure types' types) : types'.length = types.length := by
  have hlen := congrArg List.length h
  rwa [List.length_map, List.length_map] at hlen

lemma SameMeasure.getElem? (h : SameMeasure types' types) {t' : OrgType}
    (ht' : types'[k]? = some t') :
    ∃ t, types[k]? = some t ∧ t'.range = t.range ∧ t'.dista = t.dista := by
  have hmap : (types'.map OrgType.measure)[k]? = some t'.measure := by
    rw [List.getElem?_map, ht']
    rfl
  rw [show types'.map OrgType.measure = types.map OrgType.measure from h, List.getElem?_map] at hmap
  obtain ⟨t, ht, heq⟩ := Option.map_eq_some_iff.mp hmap
  exact ⟨t, ht, (congrArg Prod.fst heq).symm, (congrArg Prod.snd heq).symm⟩

lemma SameMeasure.readAt (h : SameMeasure types' types) (f : PreprocessFault) (k : ℕ) :
    (∃ t' t, readAt f types' k = .ok t' ∧ readAt f types k = .ok t ∧ t'.range = t.range ∧
      t'.dista = t.dista) ∨ readAt f types' k = .error f ∧ readAt f types k = .error f := by
  cases ht' : types'[k]? with
  | some t' =>
      obtain ⟨t, ht, hrange, hdista⟩ := h.getElem? ht'
      exact .inl ⟨t', t, readAt_eq_ok.mpr ht', readAt_eq_ok.mpr ht, hrange, hdista⟩
  | none =>
      have hle := List.getElem?_eq_none_iff.mp ht'
      have hlen := h.length_eq
      exact .inr ⟨readAt_eq_error.mpr ⟨hle, rfl⟩, readAt_eq_error.mpr ⟨by omega, rfl⟩⟩

lemma exchange_length :
    ∀ (d : Extended ℚ) (l : List (Extended ℚ)), (exchange d l).2.length = l.length
  | _, [] => rfl
  | d, x :: l => by
      rw [exchange]
      split_ifs
      · rw [List.length_cons, List.length_cons, exchange_length x l]
      · rw [List.length_cons, List.length_cons, exchange_length d l]

lemma exchangeSort_length : ∀ (n : ℕ) (l : List (Extended ℚ)), (exchangeSort n l).length = l.length
  | 0, [] => rfl
  | 0, _ :: _ => rfl
  | _ + 1, [] => rfl
  | n + 1, d :: l => by
      rw [exchangeSort, List.length_cons, List.length_cons, exchangeSort_length, exchange_length]

lemma planeTest_returns (twoDis lengWid : Extended ℚ) {disarr : List (Extended ℚ)}
    (h : 2 ≤ disarr.length) :
    Returns (s.planeTest twoDis lengWid disarr) fun _ => True := by
  have hlen := exchangeSort_length disarr.length disarr
  refine Returns.ite (fun _ => .ok trivial) fun _ => ?_
  refine Returns.ite (fun hshort => absurd hshort (by omega)) fun _ => ?_
  refine (Returns.readAt (by omega)).bind fun dmax _ => ?_
  refine (Returns.readAt (by omega)).bind fun dmid _ => ?_
  refine (Returns.readAt (by omega)).bind fun dmin _ => ?_
  exact Returns.ite (fun _ => .ok trivial) fun _ =>
    Returns.ite (fun _ => .ok trivial) fun _ => .ok trivial

/-- The tests return unless the group is too short for them. -/
lemma planeTest_cases (twoDis lengWid : Extended ℚ) (disarr : List (Extended ℚ)) :
    s.planeTest twoDis lengWid disarr = .ok false ∨
      (s.planeTest twoDis lengWid disarr = .ok true ∧ 2 ≤ disarr.length) ∨
      s.planeTest twoDis lengWid disarr = .error (.outOfRange .disarr) := by
  by_cases hlong : 2 ≤ disarr.length
  · obtain ⟨b, hb, -⟩ := s.planeTest_returns twoDis lengWid hlong
    cases b
    · exact .inl hb
    · exact .inr (.inl ⟨hb, hlong⟩)
  · unfold planeTest
    by_cases hflat : twoDis * twoDis / lengWid < s.p2lRatio
    · rw [if_pos hflat]
      exact .inl rfl
    · rw [if_neg hflat, if_pos (not_le.mp hlong)]
      exact .inr (.inr rfl)

lemma groupTest_cases (pl : List PointXYZINormal) (types : List OrgType) (i e : ℕ) :
    s.groupTest pl types i e = .ok false ∨
      (s.groupTest pl types i e = .ok true ∧ i + 2 ≤ e) ∨
      s.groupTest pl types i e = .error (.outOfRange .disarr) := by
  obtain h | ⟨h, hlong⟩ | h := s.planeTest_cases
    (between pl i (min e (pl.length - 1))).sqNorm
    (lengWid (pl.getD i {}) (between pl i (min e (pl.length - 1)))
      ((pl.drop (i + 1)).take (e - (i + 1)))) (distas types i e)
  · exact .inl h
  · refine .inr (.inl ⟨h, ?_⟩)
    unfold distas at hlong
    rw [List.length_map, List.length_take] at hlong
    omega
  · exact .inr (.inr h)

/-- The scan moves on. -/
lemma Next.lt {j : ℕ} (h : s.Next pl types i j) : i < j := by
  cases h with
  | blind => omega
  | cut _ _ hgroup _ => exact Nat.lt_succ_of_le hgroup.le
  | loose _ _ hgroup _ _ _ => exact Nat.lt_succ_of_le hgroup.le
  | plane _ _ _ _ _ htest _ =>
      obtain h | ⟨-, hle⟩ | h := s.groupTest_cases pl types i j
      · rw [h] at htest
        cases htest
      · omega
      · rw [h] at htest
        cases htest

section Turn

variable {l : SurfLoop}

end Turn

end Preprocessor

end FastLivo2
