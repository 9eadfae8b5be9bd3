/-!
# Load limits

A load limit is a multiplier times a number of workers. The product is kept in one machine word and
stops at the largest word instead of wrapping. Counts never exceed a word, so the cap never changes
the outcome of a comparison with a count.

`loadLimit` is the saturating product that `ThreadPool` and `TaskSetBase` take at their creation.
-/

namespace TaskPool

/-- The largest number that a machine word holds. -/
def maxWord : Nat := UInt64.size - 1

/-- `multiplier * workers`, capped at the largest word. -/
def loadLimit (multiplier workers : Nat) : Nat := min (multiplier * workers) maxWord

/-- A count exceeds the capped limit exactly when it exceeds the true product. -/
theorem loadLimit_lt_iff {multiplier workers count : Nat} (bounded : count ≤ maxWord) :
    loadLimit multiplier workers < count ↔ multiplier * workers < count := by
  unfold loadLimit
  omega

end TaskPool
