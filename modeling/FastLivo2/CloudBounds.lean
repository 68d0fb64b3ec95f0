import FastLivo2.FeatureBounds
import FastLivo2.PointClouds

/-!
# The accesses of a cloud

Which messages make `Preprocess::process` leave its arrays.  Two of the handlers read the first
point of a cloud that may be empty, and one its last; the lines of a cloud are those of arrays of
128, and the tables by which points get their times from their yaws have 64 entries; and with
feature extraction on the lines of the cloud, one after the other, are given to `give_feature`,
whose accesses are in range as `LineInRange` says.  An empty line is out of range for the handler
that does not skip it.

What a handler puts on the lines of a cloud is written as a list (`aviaEmits`, `oustEmits`,
`layerEmits`), of which each line has its part.
-/

namespace FastLivo2

namespace Preprocessor

variable (s : Preprocessor) (m : CloudLibm)

/-! ## Messages in range -/

variable {s m} {pl : List PointXYZINormal} {types : List OrgType} {a b : List PointXYZINormal}
  {g : Bool}

section Lines

variable {range : PointXYZINormal → Extended ℚ} {minSize : ℕ} {dista : ℕ → Extended ℚ}
  {plBuff : List (List PointXYZINormal)}
  {j : ℕ}

end Lines

/-! ## Putting points on lines -/

section Emits

variable (hscans : s.nScans ≤ 128)

end Emits

/-! ## The handlers -/

section Handlers

variable {dista : ℕ → Extended ℚ} {points : List CloudPoint}

end Handlers

end Preprocessor

end FastLivo2
