/-!
Sets of code points as ascending arrays of ranges, searched by halving.
-/

namespace TorrentHandle.Text

/-- Whether `n` lies in a range with an index from `low` up to but not including `high`. -/
def inRangesBetween (ranges : Array (Nat × Nat)) (n low high : Nat) (bound : high ≤ ranges.size) :
    Bool :=
  if h : low < high then
    let middle := low + (high - low) / 2
    have : middle < ranges.size := by omega
    if n < ranges[middle].1 then inRangesBetween ranges n low middle (by omega)
    else if ranges[middle].2 < n then inRangesBetween ranges n (middle + 1) high bound
    else true
  else false
termination_by high - low

/-- Whether `n` lies in a range. Both ends belong to a range. -/
def inRanges (ranges : Array (Nat × Nat)) (n : Nat) : Bool :=
  inRangesBetween ranges n 0 ranges.size (Nat.le_refl _)

end TorrentHandle.Text
