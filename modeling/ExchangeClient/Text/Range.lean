/-!
# Sets of characters given by ranges of code points
-/

namespace ExchangeClient.Text

/-- Whether a code point lies in one of the ranges, ends included. -/
def inRanges (ranges : List (Nat × Nat)) (n : Nat) : Bool :=
  ranges.any fun r => r.1 ≤ n && n ≤ r.2

end ExchangeClient.Text
