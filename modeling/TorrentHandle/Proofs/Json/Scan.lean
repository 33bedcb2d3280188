import Mathlib.Data.Nat.Notation
import Mathlib.Tactic.Lemma
import TorrentHandle.Json.Token

/-!
Texts cut into tokens. The steps that are given are never used up, so a text is its first token and
those of what is left.
-/

namespace TorrentHandle.Json

variable {c : Char} {cs rest : List Char}

lemma length_scanText (done : List TextUnit) (cs : List Char) :
    (scanText done cs).2.2.length ≤ cs.length := by
  fun_induction scanText done cs <;> simp_all <;> omega

lemma length_textToken (cs : List Char) : (textToken cs).2.length ≤ cs.length := by
  have scanned := length_scanText [] cs
  unfold textToken
  split
  · simp_all
  · split <;> simp_all

lemma length_of_expectLetters {letters : List Char}
    (expected : expectLetters letters cs = .ok rest) : rest.length ≤ cs.length := by
  induction letters generalizing cs with
  | nil =>
    cases expected
    exact Nat.le_refl _
  | cons e es ih =>
    cases cs with
    | nil => cases expected
    | cons c cs =>
      rw [expectLetters] at expected
      split at expected
      · exact Nat.le_succ_of_le (ih expected)
      · cases expected

lemma length_wordToken {t : Token} {letters : List Char} :
    (wordToken t letters cs).2.length ≤ cs.length := by
  unfold wordToken
  split
  · rename_i expected
    exact length_of_expectLetters expected
  · exact Nat.zero_le _

lemma length_exponentToken (negative : Bool) (whole fraction cs : List Char) :
    (exponentToken negative whole fraction cs).2.length ≤ cs.length := by
  have digits (l : List Char) := (List.dropWhile_suffix (l := l) Char.isDigit).length_le
  unfold exponentToken
  split
  case h_3 => exact Nat.le_refl _
  all_goals
    split
    rename_i rest _ sign rest' signed
    have unsigned : rest'.length ≤ rest.length := by split at signed <;> cases signed <;> simp
    have := digits rest'
    dsimp only
    split <;> simp only [List.length_cons] <;> omega

lemma length_fractionToken (negative : Bool) (whole cs : List Char) :
    (fractionToken negative whole cs).2.length ≤ cs.length := by
  have digits (l : List Char) := (List.dropWhile_suffix (l := l) Char.isDigit).length_le
  unfold fractionToken
  split
  · rename_i rest
    dsimp only
    split
    · exact Nat.le_succ _
    · have := length_exponentToken negative whole (rest.takeWhile Char.isDigit)
        (rest.dropWhile Char.isDigit)
      have := digits rest
      simp only [List.length_cons]
      omega
  · exact length_exponentToken _ _ _ _

lemma length_numberToken {negative : Bool} (going : (numberToken negative cs).1.isLast = false) :
    (numberToken negative cs).2.length < cs.length := by
  unfold numberToken at going ⊢
  dsimp only at going ⊢
  split at going
  · cases going
  · cases going
  · rename_i some _
    have split : (cs.takeWhile Char.isDigit).length + (cs.dropWhile Char.isDigit).length =
        cs.length := by
      rw [← List.length_append, List.takeWhile_append_dropWhile]
    have := List.length_pos_iff.2 some
    have := length_fractionToken negative (cs.takeWhile Char.isDigit) (cs.dropWhile Char.isDigit)
    omega

lemma length_nextToken (going : (nextToken c cs).1.isLast = false) :
    (nextToken c cs).2.length ≤ cs.length := by
  revert going
  let Shorter (p : Token × List Char) : Prop := p.1.isLast = false → p.2.length ≤ cs.length
  show Shorter (nextToken c cs)
  unfold nextToken
  refine iteInduction (fun _ _ => length_textToken cs) fun _ => ?_
  iterate 6 refine iteInduction (fun _ _ => Nat.le_refl _) fun _ => ?_
  iterate 3 refine iteInduction (fun _ _ => length_wordToken) fun _ => ?_
  refine iteInduction (fun _ going => Nat.le_of_lt (length_numberToken going)) fun _ => ?_
  exact iteInduction (fun _ going => Nat.le_of_lt_succ (length_numberToken going))
    fun _ _ => Nat.le_refl _

lemma tokensWithin_succ (n : ℕ) (cs : List Char) : tokensWithin (n + 1) cs =
    match cs.dropWhile isSpace with
    | [] => [.finish]
    | c :: rest =>
      if (nextToken c rest).1.isLast then [(nextToken c rest).1]
      else (nextToken c rest).1 :: tokensWithin n (nextToken c rest).2 := rfl

/-- More steps than there are characters give no other tokens. -/
lemma tokensWithin_congr {m n : ℕ} (enough : cs.length < m) (enough' : cs.length < n) :
    tokensWithin m cs = tokensWithin n cs := by
  induction m generalizing n cs with
  | zero => exact absurd enough (Nat.not_lt_zero _)
  | succ m ih =>
    obtain ⟨n, rfl⟩ := Nat.exists_eq_succ_of_ne_zero (Nat.ne_zero_of_lt enough')
    have shorter := (List.dropWhile_suffix (l := cs) isSpace).length_le
    rw [tokensWithin_succ, tokensWithin_succ]
    split
    · rfl
    · rename_i c rest begins
      rw [begins, List.length_cons] at shorter
      split
      · rfl
      · rename_i going
        have := length_nextToken (eq_false_of_ne_true going)
        rw [ih (n := n) (by omega) (by omega)]

/-- **The steps of `tokens` are enough**: a text is its first token and those of what is left. -/
theorem tokens_cons {t : Token} (mark : isSpace c = false) (next : nextToken c cs = (t, rest))
    (going : t.isLast = false) : tokens (c :: cs) = t :: tokens rest := by
  have shorter : (nextToken c cs).2.length ≤ cs.length := length_nextToken (by rw [next, going])
  rw [tokens, tokensWithin_succ, List.dropWhile_cons, if_neg (by rw [mark]; decide)]
  simp only [next, going, Bool.false_eq_true, if_false] at shorter ⊢
  rw [tokens, tokensWithin_congr (by rw [List.length_cons]; omega) (Nat.lt_succ_self _)]

end TorrentHandle.Json
