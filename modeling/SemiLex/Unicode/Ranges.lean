/-!
# Sorted ranges of code points

A character property is a table of inclusive ranges in ascending order, none touching the
next.  Membership is a binary search over the rows.
-/

namespace SemiLex.Unicode

/-- Inclusive ranges `(first, last)` of code points, in ascending order. -/
abbrev Ranges := Array (Nat × Nat)

namespace Ranges

/-- Whether one of the rows from `low` up to, but not including, `high` holds `n`.  Each step
halves the rows left, so `⌊log₂ (high - low)⌋ + 1` steps reach an answer. -/
def search (table : Ranges) (n : Nat) : (steps low high : Nat) → Bool
  | 0, _, _ => false
  | steps + 1, low, high =>
    if low < high then
      let middle := (low + high) / 2
      match table[middle]? with
      | none => false
      | some (first, last) =>
        if n < first then search table n steps low middle
        else if last < n then search table n steps (middle + 1) high
        else true
    else false

def contains (table : Ranges) (n : Nat) : Bool :=
  search table n (table.size.log2 + 1) 0 table.size

end Ranges

end SemiLex.Unicode
