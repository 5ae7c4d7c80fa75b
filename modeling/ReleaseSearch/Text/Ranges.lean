/-! Sets of characters given as ranges of code points. -/
namespace ReleaseSearch.Text

/-- Whether one of the ranges holds the character, ends included. -/
def inRanges (ranges : List (Nat × Nat)) (c : Char) : Bool :=
  ranges.any fun r => r.1 ≤ c.toNat && c.toNat ≤ r.2

end ReleaseSearch.Text
