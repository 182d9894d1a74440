/-!
# Ranges of characters

A class of characters is listed as ranges of code points, both ends included, in order.
-/

namespace WarmCache

/-- The code points from the first to the second. -/
abbrev CharRange := Nat × Nat

namespace CharRange

/-- Whether a character lies in a range. -/
def contains (range : CharRange) (c : Char) : Bool := range.1 ≤ c.toNat && c.toNat ≤ range.2

/-- Whether a character lies in one of several ranges. -/
def anyContains (ranges : List CharRange) (c : Char) : Bool := ranges.any fun r => r.contains c

end CharRange

end WarmCache
