/-!
# WatchGate: ranges of code points

A property of characters is given by a table of ranges, first and last code point
of each. `inRanges` looks a code point up in one.
-/

namespace WatchGate.Text

/-- Whether a code point lies in one of the ranges. -/
def inRanges (rs : List (Nat × Nat)) (n : Nat) : Bool :=
  rs.any (fun r => r.1 ≤ n && n ≤ r.2)

end WatchGate.Text
