import Mathlib.Data.Nat.Notation
import Mathlib.Tactic.Lemma
import TorrentHandle.Text.Decimal

/-!
Digits of a number: there is at least one, none is a leading zero, and they tell the number.
-/

namespace TorrentHandle.Text.Decimal

variable {n : ℕ} {c : Char} {ds : List Char}

lemma isDigit_of_mem_digits (inside : c ∈ digits n) : c.isDigit :=
  Nat.isDigit_of_mem_toDigits (by decide) (by decide) inside

lemma digits_ne_nil : digits n ≠ [] := Nat.toDigits_ne_nil

@[simp] theorem value_digits : value (digits n) = n :=
  Nat.ofDigitChars_toDigits (by decide) (by decide)

lemma digits_of_lt (small : n < 10) : digits n = [n.digitChar] := Nat.toDigits_of_lt_base small

lemma digits_of_le (large : 10 ≤ n) : digits n = digits (n / 10) ++ [(n % 10).digitChar] :=
  Nat.toDigits_of_base_le (by decide) large

lemma no_leading_zero (eq : digits n = '0' :: ds) : ds = [] := by
  induction n using Nat.strongRecOn generalizing ds with
  | ind n ih =>
    by_cases small : n < 10
    · rw [digits_of_lt small] at eq
      exact (List.cons.inj eq).2.symm
    · rw [digits_of_le (by omega)] at eq
      cases leading : digits (n / 10) with
      | nil => exact absurd leading digits_ne_nil
      | cons d ds' =>
        rw [leading, List.cons_append] at eq
        obtain ⟨rfl, -⟩ := List.cons.inj eq
        obtain rfl := ih (n / 10) (by omega) leading
        -- the digits before the last would be those of zero
        have zero := value_digits (n := n / 10)
        rw [leading] at zero
        change 0 = n / 10 at zero
        omega

/-! ### Texts of a number -/

lemma digitsValue?_eq_some {limit : ℕ} : digitsValue? limit ds = some n ↔
    ds ≠ [] ∧ (∀ c ∈ ds, c.isDigit = true) ∧ value ds = n ∧ n ≤ limit := by
  have read : (ds.isEmpty || !ds.all Char.isDigit) = false ↔
      ds ≠ [] ∧ ∀ c ∈ ds, c.isDigit = true := by simp
  unfold digitsValue?
  split
  · rename_i none
    refine ⟨nofun, fun ⟨nonempty, digits, _⟩ => ?_⟩
    rw [read.2 ⟨nonempty, digits⟩] at none
    cases none
  · rename_i some
    obtain ⟨nonempty, digits⟩ := read.1 (eq_false_of_ne_true some)
    split
    · rename_i small
      constructor
      · rintro ⟨⟩
        exact ⟨nonempty, digits, rfl, small⟩
      · rintro ⟨-, -, rfl, -⟩
        rfl
    · rename_i large
      refine ⟨nofun, ?_⟩
      rintro ⟨-, -, rfl, small⟩
      exact absurd small large

/-- **A text stands for a number** if it has digits after at most one plus sign, of a number within
the limit. -/
theorem parse?_eq_some {limit : ℕ} {cs : List Char} : parse? limit cs = some n ↔
    ∃ sign ds, cs = sign ++ ds ∧ (sign = [] ∨ sign = ['+']) ∧
      ds ≠ [] ∧ (∀ c ∈ ds, c.isDigit = true) ∧ value ds = n ∧ n ≤ limit := by
  constructor
  · intro read
    unfold parse? at read
    split at read
    · exact ⟨['+'], _, rfl, .inr rfl, digitsValue?_eq_some.1 read⟩
    · exact ⟨[], _, rfl, .inl rfl, digitsValue?_eq_some.1 read⟩
  · rintro ⟨sign, ds, rfl, rfl | rfl, rest⟩
    · unfold parse?
      split
      · rename_i plus
        exact absurd (rest.2.1 '+' (by rw [← List.nil_append ds, plus]; exact List.mem_cons_self ..))
          (by decide)
      · exact digitsValue?_eq_some.2 rest
    · exact digitsValue?_eq_some.2 rest

/-! ### Reading in words -/

/-- One more digit of a number that is kept in 64 bits: nothing where there is no digit, nor where
the number gets too large. -/
def pushDigit (w : UInt64) (c : Char) : Option UInt64 :=
  let d := c.toNat - '0'.toNat
  if c.isDigit ∧ 10 * w.toNat + d < UInt64.size then some (10 * w + UInt64.ofNat d) else none

/-- The number of a non-empty row of digits, read digit by digit. -/
def digitsWord? (ds : List Char) : Option UInt64 :=
  if ds.isEmpty then none else ds.foldlM pushDigit 0

/-- The number of a row of digits after at most one plus sign, read digit by digit. -/
def parseWord? : List Char → Option UInt64
  | '+' :: ds => digitsWord? ds
  | ds => digitsWord? ds

section Words

variable {w w' : UInt64}

lemma pushDigit_eq_some : pushDigit w c = some w' ↔
    c.isDigit = true ∧ 10 * w.toNat + (c.toNat - '0'.toNat) = w'.toNat := by
  unfold pushDigit
  generalize c.toNat - '0'.toNat = d
  dsimp only
  have exact_of_small (small : 10 * w.toNat + d < UInt64.size) :
      (10 * w + UInt64.ofNat d).toNat = 10 * w.toNat + d := by
    have ten : UInt64.toNat 10 = 10 := rfl
    unfold UInt64.size at small
    rw [UInt64.toNat_add, UInt64.toNat_mul, UInt64.toNat_ofNat', ten]
    omega
  rw [Option.ite_none_right_eq_some, Option.some_inj, ← UInt64.toNat_inj, and_assoc]
  refine and_congr_right fun digit => ⟨?_, fun same => ?_⟩
  · rintro ⟨small, same⟩
    rw [← exact_of_small small, same]
  · have small : 10 * w.toNat + d < UInt64.size := same ▸ w'.toNat_lt_size
    exact ⟨small, (exact_of_small small).trans same⟩

lemma le_ofDigitChars (ds : List Char) (n : ℕ) : n ≤ Nat.ofDigitChars 10 ds n := by
  rw [Nat.ofDigitChars_eq_ofDigitChars_zero]
  exact Nat.le_add_right_of_le (Nat.le_mul_of_pos_left n (Nat.pow_pos (by decide)))

lemma foldlM_pushDigit_eq_some : ds.foldlM pushDigit w = some w' ↔
    (∀ c ∈ ds, c.isDigit = true) ∧ Nat.ofDigitChars 10 ds w.toNat = w'.toNat := by
  induction ds generalizing w with
  | nil => simp [UInt64.toNat_inj]
  | cons c ds ih =>
    rw [List.foldlM_cons, Option.bind_eq_bind, Option.bind_eq_some_iff, List.forall_mem_cons,
      Nat.ofDigitChars_cons]
    constructor
    · rintro ⟨next, pushed, read⟩
      obtain ⟨digit, same⟩ := pushDigit_eq_some.1 pushed
      obtain ⟨digits, value⟩ := ih.1 read
      exact ⟨⟨digit, digits⟩, same ▸ value⟩
    · -- the number so far is at most the whole, so a word can hold it
      rintro ⟨⟨digit, digits⟩, value⟩
      have small := Nat.lt_of_le_of_lt (value ▸ le_ofDigitChars ds _) w'.toNat_lt_size
      have next := UInt64.toNat_ofNat_of_lt' small
      refine ⟨_, pushDigit_eq_some.2 ⟨digit, next.symm⟩, ih.2 ⟨digits, ?_⟩⟩
      rw [next, value]

lemma digitsWord?_eq (ds : List Char) :
    digitsWord? ds = (digitsValue? (UInt64.size - 1) ds).map UInt64.ofNat := by
  ext w
  have range : ∀ n, n ≤ UInt64.size - 1 → (UInt64.ofNat n = w ↔ n = w.toNat) := fun n small => by
    rw [← UInt64.toNat_inj, UInt64.toNat_ofNat_of_lt' (Nat.lt_of_le_pred (by decide) small)]
  simp only [digitsWord?, Option.ite_none_left_eq_some, foldlM_pushDigit_eq_some,
    Option.map_eq_some_iff, digitsValue?_eq_some, List.isEmpty_iff]
  constructor
  · rintro ⟨nonempty, digits, same⟩
    have small := Nat.le_pred_of_lt w.toNat_lt_size
    exact ⟨w.toNat, ⟨nonempty, digits, same, small⟩, (range _ small).2 rfl⟩
  · rintro ⟨n, ⟨nonempty, digits, rfl, small⟩, same⟩
    exact ⟨nonempty, digits, (range _ small).1 same⟩

/-- **Reading digit by digit in a word is exact**: it comes to the same as reading all at once, so
it fails if the number is too large and never wraps. -/
theorem parseWord?_eq (cs : List Char) :
    parseWord? cs = (parse? (UInt64.size - 1) cs).map UInt64.ofNat := by
  fun_cases parseWord? cs with
  | case1 ds => exact digitsWord?_eq ds
  | case2 unsigned =>
    have whole : parse? (UInt64.size - 1) cs = digitsValue? (UInt64.size - 1) cs := by
      simp only [parse?]
    rw [whole, digitsWord?_eq]

end Words

end TorrentHandle.Text.Decimal
