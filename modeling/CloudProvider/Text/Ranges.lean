/-! Sets of characters, given as ranges of code points in increasing order. -/

namespace CloudProvider.Text

/-- Whether one of the ranges, ends included, holds `c`. -/
def within (ranges : List (Nat × Nat)) (c : Char) : Bool :=
  ranges.any fun (low, high) => low ≤ c.toNat && c.toNat ≤ high

end CloudProvider.Text
