import Mathlib.Data.List.TakeWhile
import TorrentHandle.Logging.FieldValue
import TorrentHandle.Proofs.Logging.Pattern

/-!
Texts that are patterns: texts with escapes, with sets of letters and digits, and numbers. A number
that begins with a plus sign is none, but a plus sign inside of a number repeats the letter before
it. So what can stand for the value of a field is a truth value, a number or a pattern.
-/

namespace TorrentHandle.Logging

namespace Pattern

variable {cs ds : List Char} {c : Char} {p q : Progress}

/-! ### Texts that can be read anywhere -/

/-- Outside of groups and alternatives, with parts that are not too deep. -/
structure Flat (p : Progress) : Prop where
  modes : p.modes = {}
  outer : p.outer = []
  complete : p.current.complete = []
  shallow : ∀ d ∈ p.current.parts.map (·.1), d < depthLimit

lemma lt_depthLimit {d : ℕ} (small : d ≤ 2) : d < depthLimit :=
  small.trans_lt (by simp [depthLimit])

lemma Flat.add {d : ℕ} (flat : Flat p) (shallow : d < depthLimit) : Flat (p.add d) where
  modes := flat.modes
  outer := flat.outer
  complete := flat.complete
  shallow := List.forall_mem_cons.2 ⟨shallow, flat.shallow⟩

lemma Flat.depth_le (flat : Flat p) : p.current.depth ≤ depthLimit := by
  rw [Alternatives.depth, flat.complete]
  exact (joinedDepth_le fun d inside => Nat.le_pred_of_lt (flat.shallow d inside) :
    joinedDepth (p.current.parts.map (·.1)) ≤ depthLimit)

/-- A text can be read, as far as it goes, wherever a part may stand. -/
def Readable (cs : List Char) : Prop := ∀ p, Flat p → ∃ q, Reads p cs q ∧ Flat q

lemma Readable.isPattern (readable : Readable cs) : isPattern cs = true := by
  obtain ⟨q, reads, flat⟩ := readable {} ⟨rfl, rfl, rfl, nofun⟩
  exact isPattern_iff.2 ⟨q, reads, flat.outer, flat.depth_le⟩

lemma readable_nil : Readable [] := fun p flat => ⟨p, .done (by rw [flat.modes]; rfl), flat⟩

/-- Characters that make up a part can be read before what can be read. -/
lemma Readable.cons {d : ℕ} {rest : List Char} (readable : Readable ds) (shallow : d < depthLimit)
    (taken : ∀ p : Progress, p.modes = {} → p.advance c rest = some (p.add d, ds)) :
    Readable (c :: rest) := by
  intro p flat
  obtain ⟨q, reads, flat'⟩ := readable (p.add d) (flat.add shallow)
  exact ⟨q, .step (by rw [flat.modes]; rfl) (taken p flat.modes) reads, flat'⟩

/-- The characters that a pattern does not take as parts of their own. -/
def reserved : List Char := ['\\', '(', ')', '|', '[', '?', '*', '+', '\x7b']

/-- The characters that stand for others, or for a place. -/
def wildcards : List Char := ['.', '^', '$']

lemma advance_eq (free : c ∉ reserved) (plain : p.modes = {}) :
    p.advance c ds = some (p.add 0, ds) := by
  simp only [reserved, List.mem_cons, List.not_mem_nil, or_false, not_or] at free
  obtain ⟨backslash, opening, closing, bar, bracket, question, star, plus, brace⟩ := free
  simp [Progress.advance, readPart, Modes.allows, Part.ofChar, *]

lemma Readable.cons_of_free (free : c ∉ reserved) (readable : Readable ds) : Readable (c :: ds) :=
  readable.cons (lt_depthLimit (by decide)) fun _ plain => advance_eq free plain

lemma Readable.append_of_free (free : ∀ c ∈ cs, c ∉ reserved) (readable : Readable ds) :
    Readable (cs ++ ds) := by
  induction cs with
  | nil => exact readable
  | cons c cs ih =>
    obtain ⟨first, others⟩ := List.forall_mem_cons.1 free
    exact .cons_of_free first (ih others)

/-! ### Escaped texts -/

/-- With a backslash before each character that would not stand for itself. -/
def escape (cs : List Char) : List Char :=
  cs.flatMap fun c => if c ∈ reserved ++ wildcards then ['\\', c] else [c]

lemma advance_backslash (listed : c ∈ reserved ++ wildcards) (plain : p.modes = {}) :
    p.advance '\\' (c :: ds) = some (p.add 0, ds) := by
  have each : (reserved ++ wildcards).all fun c =>
      codeLength? c == none && escaped? c == some (.ofChar c) := by decide
  have itself : codeLength? c = none ∧ escaped? c = some (.ofChar c) := by
    simpa using List.all_eq_true.1 each c listed
  simp [Progress.advance, readPart, readEscape, itself, plain, Modes.allows, Part.ofChar]

/-- **Every text can be asked for as it is.** -/
theorem isPattern_escape (cs : List Char) : isPattern (escape cs) = true := by
  refine Readable.isPattern ?_
  induction cs with
  | nil => exact readable_nil
  | cons c cs ih =>
    rw [escape, List.flatMap_cons]
    split
    · exact ih.cons (lt_depthLimit (by decide)) fun p plain => advance_backslash ‹_› plain
    · rename_i unlisted
      exact .cons_of_free (fun inside => unlisted (List.mem_append_left _ inside)) ih

/-! ### Sets of letters and digits -/

lemma ne_of_isAlphanum {d : Char} (word : c.isAlphanum = true) (mark : d.isAlphanum = false) :
    c ≠ d := by
  rintro rfl
  rw [word] at mark
  cases mark

lemma not_reserved_of_isAlphanum (word : c.isAlphanum = true) : c ∉ reserved := by
  have marks : reserved.all fun c => !c.isAlphanum := by decide
  intro inside
  have mark : c.isAlphanum = false := by simpa using List.all_eq_true.1 marks c inside
  exact ne_of_isAlphanum word mark rfl

lemma readItem_of_isAlphanum {d : Char} (word : c.isAlphanum = true) (apart : d ≠ '-') :
    readItem {} c (d :: ds) = some (d :: ds) := by
  have plain : readPart {} c (d :: ds) = some (.ofChar c, d :: ds) :=
    if_neg (ne_of_isAlphanum word rfl)
  simp [readItem, plain, Modes.skip, apart, Modes.allowsInside, Part.ofChar]

lemma OpenSet.advance_of_isAlphanum {s : OpenSet} {d : Char} (word : c.isAlphanum = true)
    (apart : d ≠ '-') : s.advance {} [] c (d :: ds) = some (.more [] (s.add 0) (d :: ds)) := by
  have hyphen : c ≠ '-' := ne_of_isAlphanum word rfl
  have closing : c ≠ ']' := ne_of_isAlphanum word rfl
  have opening : c ≠ '[' := ne_of_isAlphanum word rfl
  have both : c ≠ '&' := ne_of_isAlphanum word rfl
  have one : c ≠ '~' := ne_of_isAlphanum word rfl
  simp [advance, readItem_of_isAlphanum word apart, *]

lemma readSetWithin_cons {s : OpenSet} {steps : ℕ} (word : ∀ d ∈ c :: cs, d.isAlphanum = true) :
    readSetWithin {} (steps + 1) [] s (c :: cs ++ ']' :: ds) =
      readSetWithin {} steps [] (s.add 0) (cs ++ ']' :: ds) := by
  obtain ⟨first, others⟩ := List.forall_mem_cons.1 word
  obtain ⟨d, more, rest, apart⟩ : ∃ d more, cs ++ ']' :: ds = d :: more ∧ d ≠ '-' := by
    cases cs with
    | nil => exact ⟨']', ds, rfl, by decide⟩
    | cons d cs =>
      exact ⟨d, cs ++ ']' :: ds, rfl, ne_of_isAlphanum (others d List.mem_cons_self) rfl⟩
  rw [List.cons_append, rest, readSetWithin]
  simp [Modes.skip, OpenSet.advance_of_isAlphanum first apart]

/-- A row of items that are no sets, with at least one item. -/
structure OpenSet.Row (s : OpenSet) : Prop where
  left : s.left = none
  fresh : s.fresh = false
  items : ∀ d ∈ s.items, d ≤ 0

lemma exists_readSetWithin_eq {s : OpenSet} {steps : ℕ} (row : s.Row)
    (enough : cs.length < steps) (word : ∀ c ∈ cs, c.isAlphanum = true) :
    ∃ d ≤ 2, readSetWithin {} steps [] s (cs ++ ']' :: ds) = some (d, ds) := by
  induction cs generalizing s steps with
  | nil =>
    obtain ⟨steps, rfl⟩ := Nat.exists_eq_succ_of_ne_zero (Nat.ne_zero_of_lt enough)
    refine ⟨s.depth + 1, ?_, ?_⟩
    · rw [OpenSet.depth, row.left]
      exact Nat.succ_le_succ (joinedDepth_le row.items)
    · simp [readSetWithin, Modes.skip, OpenSet.advance, row.fresh]
  | cons c cs ih =>
    obtain ⟨steps, rfl⟩ := Nat.exists_eq_succ_of_ne_zero (Nat.ne_zero_of_lt enough)
    rw [readSetWithin_cons word]
    exact ih ⟨row.left, rfl, List.forall_mem_cons.2 ⟨le_rfl, row.items⟩⟩
      (Nat.lt_of_succ_lt_succ enough) (List.forall_mem_cons.1 word).2

theorem Readable.set (word : ∀ d ∈ c :: cs, d.isAlphanum = true) (readable : Readable ds) :
    Readable ('[' :: c :: cs ++ ']' :: ds) := by
  have row : (OpenSet.add {} 0).Row := ⟨rfl, rfl, by simp [OpenSet.add]⟩
  have enough : cs.length < (cs ++ ']' :: ds).length + 1 := by
    rw [List.length_append]
    omega
  obtain ⟨d, shallow, read⟩ : ∃ d ≤ 2, readSetWithin {} _ [] _ (cs ++ ']' :: ds) = some (d, ds) :=
    exists_readSetWithin_eq row enough (List.forall_mem_cons.1 word).2
  have opened : openSet {} (c :: cs ++ ']' :: ds) = some (c :: cs ++ ']' :: ds) := by
    have first : c ≠ '^' := ne_of_isAlphanum (word c List.mem_cons_self) rfl
    simp [openSet, Modes.skip, first]
  have read : readSet {} (c :: cs ++ ']' :: ds) = some (d, ds) := by
    rw [readSet, opened]
    exact (readSetWithin_cons word).trans read
  refine readable.cons (lt_depthLimit shallow) fun p plain => ?_
  have bracket (rest : List Char) : p.advance '[' rest =
      (readSet p.modes rest).map fun read => (p.add read.1, read.2) := rfl
  rw [bracket, plain]
  exact congrArg (Option.map _) read

lemma Readable.repeat (free : c ∉ reserved) (unmarked : ds.head? ≠ some '?')
    (readable : Readable ds) : Readable (c :: '+' :: ds) := by
  intro p flat
  obtain ⟨q, reads, flat'⟩ := readable (p.add 1) (flat.add (lt_depthLimit (by decide)))
  have repeated : (p.add 0).advance '+' ds = some (p.add 1, ds) := by
    change (p.add 0).repeatLast ds = _
    unfold Progress.repeatLast
    dsimp only [Progress.add, Alternatives.add]
    split
    · exact absurd rfl unmarked
    · rfl
  have plus : (p.add 0).modes.skip ('+' :: ds) = '+' :: ds := by
    rw [show (p.add 0).modes = {} from flat.modes]
    rfl
  exact ⟨q, .step (by rw [flat.modes]; rfl) (advance_eq free flat.modes)
    (.step plus repeated reads), flat'⟩

end Pattern

namespace FieldValue

open Pattern

variable {cs : List Char}

/-! ### Numbers -/

lemma readable_of_free (free : ∀ c ∈ cs, c ∉ reserved) : Readable cs :=
  List.append_nil cs ▸ readable_nil.append_of_free free

lemma readable_of_words (words : cs.all Char.isAlphanum = true) : Readable cs :=
  readable_of_free fun c inside => not_reserved_of_isAlphanum (List.all_eq_true.1 words c inside)

lemma not_reserved_of_isDigit {c : Char} (digit : c.isDigit = true) : c ∉ reserved :=
  not_reserved_of_isAlphanum (Bool.or_eq_true_iff.2 (.inr digit))

lemma readable_of_dropWhile (readable : Readable (cs.dropWhile Char.isDigit)) : Readable cs := by
  have digits : ∀ c ∈ cs.takeWhile Char.isDigit, c ∉ reserved := fun c inside =>
    not_reserved_of_isDigit (List.mem_takeWhile_imp inside)
  exact List.takeWhile_append_dropWhile (p := Char.isDigit) (l := cs) ▸
    readable.append_of_free digits

lemma readable_of_digits (digits : cs.all Char.isDigit = true) : Readable cs :=
  readable_of_free fun c inside => not_reserved_of_isDigit (List.all_eq_true.1 digits c inside)

/-- A plus sign after the letter of an exponent repeats the letter. -/
lemma readable_of_exponentDigits {c : Char} (free : c ∉ reserved) (digits : (match cs with
      | '+' :: more | '-' :: more => more
      | _ => cs).all Char.isDigit = true) : Readable (c :: cs) := by
  split at digits
  · rename_i more
    refine .repeat free (fun marked => ?_) (readable_of_digits digits)
    have digit := List.all_eq_true.1 digits '?' (List.mem_of_mem_head? marked)
    cases digit
  · exact .cons_of_free free (.cons_of_free (by decide) (readable_of_digits digits))
  · exact .cons_of_free free (readable_of_digits digits)

lemma readable_of_isExponent (exponent : isExponent cs = true) : Readable cs := by
  unfold isExponent at exponent
  split at exponent
  · exact readable_nil
  · exact readable_of_exponentDigits (by decide) (Bool.and_eq_true_iff.1 exponent).2
  · exact readable_of_exponentDigits (by decide) (Bool.and_eq_true_iff.1 exponent).2
  · cases exponent

lemma readable_of_isUnsigned (number : isUnsigned cs = true) : Readable cs := by
  unfold isUnsigned at number
  refine readable_of_dropWhile ?_
  dsimp only at number
  split at number
  · rename_i rest point
    rw [point]
    refine .cons_of_free (by decide) (readable_of_dropWhile (readable_of_isExponent ?_))
    exact (Bool.and_eq_true_iff.1 number).2
  · exact readable_of_isExponent (Bool.and_eq_true_iff.1 number).2

/-- A number without a sign, infinity included, or what is no number. -/
def isMagnitude (cs : List Char) : Bool :=
  isUnsigned cs || specialNames.any fun name => name.toList == cs.map Char.toLower

lemma readable_of_isMagnitude (number : isMagnitude cs = true) : Readable cs := by
  obtain number | special := Bool.or_eq_true_iff.1 number
  · exact readable_of_isUnsigned number
  · obtain ⟨name, named, same⟩ := List.any_eq_true.1 special
    have letters : specialNames.all fun name => name.toList.all Char.isLower := by decide
    have marks : reserved.all fun c => !c.toLower.isLower := by decide
    refine readable_of_free fun c inside listed => ?_
    have lower : c.toLower.isLower = true := by
      refine List.all_eq_true.1 (List.all_eq_true.1 letters name named) _ ?_
      exact beq_iff_eq.1 same ▸ List.mem_map_of_mem inside
    have mark := List.all_eq_true.1 marks c listed
    rw [lower] at mark
    cases mark

/-- A number with or without a sign. -/
def IsNumber (cs : List Char) : Prop :=
  ∃ sign ∈ [[], ['+'], ['-']], ∃ rest, cs = sign ++ rest ∧ isMagnitude rest = true

/-- **What can stand for values**: a truth value, a number or a pattern. -/
theorem isValid_iff : isValid cs = true ↔
    cs = "true".toList ∨ cs = "false".toList ∨ IsNumber cs ∨ isPattern cs = true := by
  rw [isValid, Bool.or_eq_true]
  constructor
  · rintro (number | valid)
    · unfold isPlusNumber at number
      split at number
      · exact .inr (.inr (.inl ⟨['+'], by decide, _, rfl, number⟩))
      · cases number
    · exact .inr (.inr (.inr valid))
  · rintro (rfl | rfl | ⟨sign, listed, rest, rfl, number⟩ | valid)
    · exact .inr (readable_of_words (by decide)).isPattern
    · exact .inr (readable_of_words (by decide)).isPattern
    · simp only [List.mem_cons, List.not_mem_nil, or_false] at listed
      obtain rfl | rfl | rfl := listed
      · exact .inr (readable_of_isMagnitude number).isPattern
      · exact .inl number
      · exact .inr (Readable.cons_of_free (by decide) (readable_of_isMagnitude number)).isPattern
    · exact .inr valid

end FieldValue

end TorrentHandle.Logging
