/-!
# Ranges of characters

The classes of characters that go beyond ASCII are given by the ranges of their numbers.
-/

namespace ApiCatalog.Text

/-- The number of the character lies in one of the ranges, both ends included. -/
def inRanges (c : Char) (ranges : List (Nat × Nat)) : Bool :=
  ranges.any fun (first, last) => first ≤ c.toNat && c.toNat ≤ last

end ApiCatalog.Text
