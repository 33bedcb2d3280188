import Mathlib.Data.List.TakeWhile
import TorrentHandle.Text.Blank

/-!
Blank characters at the ends of a text: what is left when they are taken off is what they frame.
-/

namespace TorrentHandle.Text

variable {c : Char} {core cs l : List Char}

/-- A row of characters with blanks around it. -/
def Framed (core cs : List Char) : Prop :=
  ∃ before after, cs = before ++ core ++ after ∧
    (∀ c ∈ before, isBlank c = true) ∧ ∀ c ∈ after, isBlank c = true

lemma framed_trimChars (cs : List Char) : Framed (trimChars cs) cs := by
  refine ⟨cs.takeWhile isBlank, ((cs.dropWhile isBlank).reverse.takeWhile isBlank).reverse, ?_,
    fun c => List.mem_takeWhile_imp, fun c inside => ?_⟩
  · rw [trimChars, List.append_assoc, ← List.reverse_append, List.takeWhile_append_dropWhile,
      List.reverse_reverse, List.takeWhile_append_dropWhile]
  · exact List.mem_takeWhile_imp (List.mem_reverse.1 inside)

lemma dropWhile_of_shown (rest : List Char) (shown : ∀ c ∈ l, isBlank c = false) (some : l ≠ []) :
    (l ++ rest).dropWhile isBlank = l ++ rest := by
  obtain ⟨c, l, rfl⟩ := List.exists_cons_of_ne_nil some
  exact List.dropWhile_cons_of_neg (by rw [shown c (List.mem_cons_self ..)]; decide)

theorem trimChars_eq_iff (shown : ∀ c ∈ core, isBlank c = false) :
    trimChars cs = core ↔ Framed core cs := by
  constructor
  · rintro rfl
    exact framed_trimChars cs
  · rintro ⟨before, after, rfl, blank, blank'⟩
    have left : core.reverse.dropWhile isBlank = core.reverse := by
      by_cases some : core = []
      · rw [some]
        rfl
      · have shown' : ∀ c ∈ core.reverse, isBlank c = false :=
          fun c inside => shown c (List.mem_reverse.1 inside)
        have left := dropWhile_of_shown [] shown' (by simpa using some)
        rwa [List.append_nil] at left
    have right : (core ++ after).dropWhile isBlank = core ++ after ∨ core = [] := by
      by_cases some : core = []
      · exact .inr some
      · exact .inl (dropWhile_of_shown after shown some)
    rw [trimChars, List.append_assoc, List.dropWhile_append_of_pos blank]
    obtain right | rfl := right
    · rw [right, List.reverse_append, List.dropWhile_append_of_pos
        fun c inside => blank' c (List.mem_reverse.1 inside), left, List.reverse_reverse]
    · rw [List.nil_append, List.dropWhile_eq_nil_iff.2 blank']
      rfl

/-! ### Characters that are not blank -/

lemma not_blank_of_isDigit (digit : c.isDigit = true) : isBlank c = false := by
  simp only [Char.isDigit, Bool.and_eq_true, decide_eq_true_eq, UInt32.le_iff_toNat_le, ge_iff_le]
    at digit
  have low : 48 ≤ c.toNat := digit.1
  have high : c.toNat ≤ 57 := digit.2
  simp [isBlank]
  omega

lemma toNat_of_isAlpha (letter : c.isAlpha = true) : 65 ≤ c.toNat ∧ c.toNat ≤ 122 := by
  unfold Char.isAlpha Char.isUpper Char.isLower at letter
  simp only [Bool.or_eq_true, Bool.and_eq_true, decide_eq_true_eq, UInt32.le_iff_toNat_le,
    ge_iff_le] at letter
  obtain ⟨low, high⟩ | ⟨low, high⟩ := letter
  · exact ⟨low, high.trans (by decide)⟩
  · exact ⟨le_trans (by decide) low, high⟩

lemma not_blank_of_isAlpha (letter : c.isAlpha = true) : isBlank c = false := by
  obtain ⟨low, high⟩ := toNat_of_isAlpha letter
  simp [isBlank]
  omega

lemma not_isDigit_of_isAlpha (letter : c.isAlpha = true) : ¬ c.isDigit = true := by
  obtain ⟨low, -⟩ := toNat_of_isAlpha letter
  simp only [Char.isDigit, Bool.and_eq_true, decide_eq_true_eq, UInt32.le_iff_toNat_le, ge_iff_le]
  rintro ⟨-, high⟩
  have high : c.toNat ≤ 57 := high
  omega

lemma isBlank_toLower (blank : isBlank c = true) : isBlank c.toLower = true := by
  have same : c.toLower = c := by
    unfold Char.toLower
    split
    · rename_i upper
      exfalso
      simp only [UInt32.le_iff_toNat_le, ge_iff_le] at upper
      have low : 65 ≤ c.toNat := upper.1
      have high : c.toNat ≤ 90 := upper.2
      simp [isBlank] at blank
      omega
    · rfl
  rw [same, blank]

end TorrentHandle.Text
