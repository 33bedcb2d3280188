import Mathlib.Data.List.Chain
import Mathlib.Data.Nat.Notation
import Mathlib.Tactic.Lemma
import TorrentHandle.Text.Alphanumeric
import TorrentHandle.Text.Unprintable

/-!
Search in tables of ranges. In a table whose ranges ascend, halving finds a code point if and only
if some range has it. The three tables ascend.
-/

namespace TorrentHandle.Text

variable {ranges : Array (ℕ × ℕ)} {n low high i j : ℕ} {c : Char}

/-- Each range ends before the next one begins. -/
def Ascending (ranges : Array (ℕ × ℕ)) : Prop :=
  ranges.toList.IsChain fun r s => r.1 ≤ r.2 ∧ r.2 < s.1

lemma Ascending.apart (ascending : Ascending ranges) (before : i < j) (inside : j < ranges.size) :
    ranges[i].1 ≤ ranges[i].2 ∧ ranges[i].2 < ranges[j].1 := by
  have trans : IsTrans (ℕ × ℕ) fun r s => r.1 ≤ r.2 ∧ r.2 < s.1 :=
    ⟨fun r s t h h' => ⟨h.1, by omega⟩⟩
  exact List.pairwise_iff_getElem.1 (List.isChain_iff_pairwise.1 ascending) i j _ _ before

/-- What is found lies in a range with an index between the bounds, and what lies there is found:
the half that is left out has only ranges on the wrong side. -/
lemma inRangesBetween_iff (ascending : Ascending ranges) (bound : high ≤ ranges.size) :
    inRangesBetween ranges n low high bound = true ↔
      ∃ i, ∃ inside : i < ranges.size, low ≤ i ∧ i < high ∧ ranges[i].1 ≤ n ∧ n ≤ ranges[i].2 := by
  fun_induction inRangesBetween ranges n low high bound with
  | case1 low high bound below middle inside before ih =>
    rw [ih]
    constructor
    · rintro ⟨i, inside', first, last, found⟩
      exact ⟨i, inside', first, by omega, found⟩
    · rintro ⟨i, inside', first, last, start, stop⟩
      refine ⟨i, inside', first, ?_, start, stop⟩
      by_contra right
      obtain rfl | right := Nat.eq_or_lt_of_le (Nat.le_of_not_lt right)
      · omega
      · have apart := ascending.apart right inside'
        omega
  | case2 low high bound below middle inside notBefore after ih =>
    rw [ih]
    constructor
    · rintro ⟨i, inside', first, last, found⟩
      exact ⟨i, inside', by omega, last, found⟩
    · rintro ⟨i, inside', first, last, start, stop⟩
      refine ⟨i, inside', ?_, last, start, stop⟩
      by_contra left
      obtain rfl | left := Nat.eq_or_lt_of_le (Nat.le_of_lt_succ (Nat.lt_of_not_le left))
      · omega
      · have apart := ascending.apart left inside
        omega
  | case3 low high bound below middle inside notBefore notAfter =>
    have half : middle = low + (high - low) / 2 := rfl
    exact ⟨fun _ => ⟨middle, inside, by omega, by omega, by omega, by omega⟩, fun _ => rfl⟩
  | case4 low high bound empty =>
    exact ⟨nofun, fun ⟨i, _, first, last, _⟩ => absurd (first.trans_lt last) empty⟩

theorem inRanges_iff (ascending : Ascending ranges) :
    inRanges ranges n = true ↔ ∃ r ∈ ranges, r.1 ≤ n ∧ n ≤ r.2 := by
  rw [inRanges, inRangesBetween_iff ascending]
  constructor
  · rintro ⟨i, inside, -, -, found⟩
    exact ⟨ranges[i], Array.getElem_mem inside, found⟩
  · rintro ⟨r, there, found⟩
    obtain ⟨i, inside, rfl⟩ := Array.mem_iff_getElem.1 there
    exact ⟨i, inside, Nat.zero_le _, inside, found⟩

/-! ### The tables -/

lemma ascending_alphabeticRanges : Ascending alphabeticRanges := by
  unfold Ascending
  decide +kernel

lemma ascending_numericRanges : Ascending numericRanges := by
  unfold Ascending
  decide +kernel

lemma ascending_unprintableRanges : Ascending unprintableRanges := by
  unfold Ascending
  decide +kernel

theorem isAlphanumeric_iff : isAlphanumeric c = true ↔ c.isAlphanum = true ∨
    ∃ r ∈ alphabeticRanges ++ numericRanges, r.1 ≤ c.toNat ∧ c.toNat ≤ r.2 := by
  simp only [isAlphanumeric, isAlphabetic, isNumeric, Char.isAlphanum, Bool.or_eq_true,
    inRanges_iff ascending_alphabeticRanges, inRanges_iff ascending_numericRanges,
    Array.mem_append, or_and_right, exists_or]
  exact or_or_or_comm

lemma isAlphanumeric_of_ascii (ascii : c.toNat < 0x80) : isAlphanumeric c = c.isAlphanum := by
  have letters : ∀ r ∈ alphabeticRanges.toList, 0x80 ≤ r.1 := by decide +kernel
  have digits : ∀ r ∈ numericRanges.toList, 0x80 ≤ r.1 := by decide +kernel
  rw [Bool.eq_iff_iff, isAlphanumeric_iff, or_iff_left]
  rintro ⟨r, there, start, -⟩
  obtain there | there := Array.mem_append.1 there
  · exact absurd (letters r (Array.mem_toList_iff.2 there)) (by omega)
  · exact absurd (digits r (Array.mem_toList_iff.2 there)) (by omega)

theorem isUnprintable_iff :
    isUnprintable c = true ↔ ∃ r ∈ unprintableRanges, r.1 ≤ c.toNat ∧ c.toNat ≤ r.2 :=
  inRanges_iff ascending_unprintableRanges

lemma printable_of_ascii (low : 0x20 ≤ c.toNat) (high : c.toNat < 0x7f) :
    isUnprintable c = false := by
  have apart : ∀ r ∈ unprintableRanges.toList, r.2 < 0x20 ∨ 0x7f ≤ r.1 := by decide +kernel
  rw [Bool.eq_false_iff, Ne, isUnprintable_iff]
  rintro ⟨r, there, start, stop⟩
  have := apart r (Array.mem_toList_iff.2 there)
  omega

end TorrentHandle.Text
