import Std.Data.ExtTreeMap
import Std.Data.ExtTreeSet

/-!
Finite maps from piece numbers and finite sets of them, both in ascending order of the pieces. Maps
with the same answers are equal.
-/

namespace TorrentHandle

/-- A map from pieces to values. -/
abbrev PieceMap (α : Type) := Std.ExtTreeMap Nat α

abbrev PieceSet := Std.ExtTreeSet Nat

namespace PieceSet

def ofList (pieces : List Nat) : PieceSet := Std.ExtTreeSet.ofList pieces

/-- Whether `count` pieces from `first` on are in the set. -/
def covers (s : PieceSet) (first : Nat) : Nat → Bool
  | 0 => true
  | count + 1 => s.contains first && covers s (first + 1) count

theorem covers_iff {s : PieceSet} {first count : Nat} :
    covers s first count = true ↔ ∀ piece, first ≤ piece → piece < first + count → piece ∈ s := by
  induction count generalizing first with
  | zero => simp [covers]; omega
  | succ count ih =>
    rw [covers, Bool.and_eq_true, ih, ← Std.ExtTreeSet.mem_iff_contains]
    constructor
    · rintro ⟨here, others⟩ piece above below
      by_cases h : piece = first
      · exact h ▸ here
      · exact others piece (by omega) (by omega)
    · exact fun h => ⟨h first (by omega) (by omega), fun piece _ _ => h piece (by omega) (by omega)⟩

theorem mem_toList_ofList {pieces : List Nat} {piece : Nat} :
    piece ∈ (ofList pieces).toList ↔ piece ∈ pieces := by
  rw [Std.ExtTreeSet.mem_toList, ofList, Std.ExtTreeSet.mem_ofList, List.contains_iff_mem]

theorem ascending_toList (s : PieceSet) : s.toList.Pairwise (· < ·) :=
  s.ordered_toList.imp fun h => Nat.compare_eq_lt.1 h

end PieceSet

end TorrentHandle
