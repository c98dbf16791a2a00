namespace ShiftReduce.Unicode

/-- Closed ranges of code points, in ascending order and apart. -/
abbrev Ranges := List (Nat × Nat)

namespace Ranges

/-- Stops at the first range that begins behind `n`. -/
def covers (n : Nat) : Ranges → Bool
  | [] => false
  | (first, last) :: rest => if n < first then false else n ≤ last || covers n rest

end Ranges

end ShiftReduce.Unicode
