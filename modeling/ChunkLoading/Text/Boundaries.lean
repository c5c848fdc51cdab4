/-!
# Sets of characters by their boundaries

A set of code points is given by the ascending list of the points where membership changes:
the first begins a run, the second ends it, and so on.
-/

namespace ChunkLoading.Boundaries

/-- Whether `c` lies in the set with the given boundaries. -/
def contains : List Nat → Nat → Bool
  | [], _ => false
  | b :: bs, c => b ≤ c && !contains bs c

end ChunkLoading.Boundaries
