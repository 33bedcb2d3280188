import Mathlib.Data.List.Chain
import TorrentHandle.Proofs.Json.Scan

/-!
How JSON spells tokens: blanks may stand between them, characters inside quotes may be escaped, and
a number may have a fraction and an exponent. However tokens are spelled, they are cut out of the
text again, as long as of two in a row one is punctuation.
-/

namespace TorrentHandle.Json

open TorrentHandle.Text

variable {c : Char} {cs rest : List Char} {t : Token} {ts : List Token}

/-! ### Texts -/

/-- A unit of a quoted text is spelled as a character, or as an escape of one letter or of four
digits. -/
inductive TextUnit.Spelling : TextUnit → List Char → Prop where
  | plain {c : Char} (quote : c ≠ '"') (escape : c ≠ '\\') (control : 0x20 ≤ c.toNat) :
    Spelling (.plain c) [c]
  | letter {c e : Char} (stands : simpleEscape? e = some c) : Spelling (.plain c) ['\\', e]
  | code {a b c d : Char} {n : ℕ} (stands : Hex.quad? a b c d = some n) :
    Spelling (.coded n) ['\\', 'u', a, b, c, d]

inductive UnitsSpelling : List TextUnit → List Char → Prop where
  | nil : UnitsSpelling [] []
  | cons {u : TextUnit} {us : List TextUnit} {cs cs' : List Char} (first : u.Spelling cs)
    (later : UnitsSpelling us cs') : UnitsSpelling (u :: us) (cs ++ cs')

/-- The token of a quoted text: what its units stand for. -/
def textOf (us : List TextUnit) : Token :=
  match decodeUnits us with
  | some cs => .text (String.ofList cs)
  | none => .loneSurrogate

lemma scanText_unit {u : TextUnit} {done : List TextUnit} (spelling : u.Spelling cs) :
    scanText done (cs ++ rest) = scanText (u :: done) rest := by
  cases spelling with
  | @plain c quote escape control =>
    rw [List.cons_append, List.nil_append, scanText.eq_def]
    split
    case h_6 eq =>
      cases eq
      rw [if_neg (Nat.not_lt.2 control)]
    all_goals simp_all
  | @letter c e stands =>
    have other : e ≠ 'u' := by
      rintro rfl
      have none : simpleEscape? 'u' = none := by decide
      rw [none] at stands
      cases stands
    rw [List.cons_append, List.cons_append, List.nil_append, scanText.eq_def]
    split
    case h_5 eq =>
      cases eq
      simp only [stands]
    case h_6 single eq =>
      cases eq
      exact absurd rfl (single _ _ rfl)
    all_goals simp_all
  | code stands => simp only [List.cons_append, List.nil_append, scanText, stands]

lemma scanText_units {us done : List TextUnit} (spelling : UnitsSpelling us cs) :
    scanText done (cs ++ '"' :: rest) = (us.reverse ++ done, none, rest) := by
  induction spelling generalizing done with
  | nil => rfl
  | cons first _ ih =>
    rw [List.append_assoc, scanText_unit first, ih, List.reverse_cons, List.append_assoc,
      List.singleton_append]

theorem textToken_units {us : List TextUnit} (spelling : UnitsSpelling us cs) :
    textToken (cs ++ '"' :: rest) = (textOf us, rest) := by
  rw [textToken, scanText_units spelling, List.append_nil]
  simp only [List.reverse_reverse, textOf]
  split <;> simp_all

/-! ### Numbers -/

/-- A text that does not go on with a number. -/
def EndsNumber (cs : List Char) : Prop :=
  ∀ c ∈ cs.head?, c.isDigit = false ∧ c ∉ ['.', 'e', 'E']

lemma exponentToken_of_ends {negative : Bool} {whole fraction : List Char}
    (ends : EndsNumber rest) : exponentToken negative whole fraction rest =
      (.number (Literal.number ⟨negative, whole, fraction, none⟩), rest) := by
  unfold exponentToken
  split
  · exact absurd (ends 'e' rfl).2 (by decide)
  · exact absurd (ends 'E' rfl).2 (by decide)
  · rfl

lemma fractionToken_of_ends {negative : Bool} {whole : List Char} (ends : EndsNumber rest) :
    fractionToken negative whole rest =
      (.number (Literal.number ⟨negative, whole, [], none⟩), rest) := by
  unfold fractionToken
  split
  · exact absurd (ends '.' rfl).2 (by decide)
  · exact exponentToken_of_ends ends

/-- A text that does not go on with a digit. -/
def EndsDigits (cs : List Char) : Prop := ∀ c ∈ cs.head?, c.isDigit = false

lemma span_digits {ds : List Char} (digits : ∀ c ∈ ds, c.isDigit = true) (ends : EndsDigits rest) :
    (ds ++ rest).takeWhile Char.isDigit = ds ∧ (ds ++ rest).dropWhile Char.isDigit = rest := by
  have stop : rest.takeWhile Char.isDigit = [] ∧ rest.dropWhile Char.isDigit = rest := by
    cases rest with
    | nil => exact ⟨rfl, rfl⟩
    | cons c rest => simp [ends c rfl]
  rw [List.takeWhile_append_of_pos digits, List.dropWhile_append_of_pos digits, stop.1, stop.2,
    List.append_nil]
  exact ⟨rfl, rfl⟩

/-- The fraction of a number, if it has one. -/
inductive FractionSpelling : List Char → List Char → Prop where
  | none : FractionSpelling [] []
  | some {ds : List Char} (nonempty : ds ≠ []) (digits : ∀ c ∈ ds, c.isDigit = true) :
    FractionSpelling ds ('.' :: ds)

/-- The exponent of a number, if it has one. -/
inductive ExponentSpelling : Option (Bool × List Char) → List Char → Prop where
  | none : ExponentSpelling none []
  | some {mark : Char} {down : Bool} {sign ds : List Char} (marked : mark = 'e' ∨ mark = 'E')
    (signed : (down, sign) ∈ [(true, ['-']), (false, ['+']), (false, [])])
    (nonempty : ds ≠ []) (digits : ∀ c ∈ ds, c.isDigit = true) :
    ExponentSpelling (some (down, ds)) (mark :: (sign ++ ds))

/-- A number: a minus sign or none, digits of which only a single one may be a leading zero, and
perhaps a fraction and an exponent. -/
inductive Literal.Spelling : Literal → List Char → Prop where
  | mk {negative : Bool} {whole fraction : List Char} {exponent : Option (Bool × List Char)}
    {point power : List Char} (nonempty : whole ≠ []) (digits : ∀ c ∈ whole, c.isDigit = true)
    (leading : ∀ ds, whole = '0' :: ds → ds = [])
    (fractioned : FractionSpelling fraction point) (powered : ExponentSpelling exponent power) :
    Spelling ⟨negative, whole, fraction, exponent⟩
      ((if negative then ['-'] else []) ++ (whole ++ (point ++ power)))

lemma EndsNumber.endsDigits (ends : EndsNumber rest) : EndsDigits rest := fun c first =>
  (ends c first).1

lemma ExponentSpelling.endsDigits {exponent : Option (Bool × List Char)}
    (powered : ExponentSpelling exponent cs) (ends : EndsNumber rest) : EndsDigits (cs ++ rest) := by
  cases powered with
  | none => exact ends.endsDigits
  | some marked =>
    rintro c ⟨⟩
    obtain rfl | rfl := marked <;> decide

lemma FractionSpelling.endsDigits {ds : List Char} (fractioned : FractionSpelling ds cs)
    (ends : EndsDigits rest) : EndsDigits (cs ++ rest) := by
  cases fractioned with
  | none => exact ends
  | some =>
    rintro c ⟨⟩
    decide

variable {negative : Bool} {whole fraction : List Char} {exponent : Option (Bool × List Char)}

lemma sign_of_isDigit (digit : c.isDigit) : c ≠ '+' ∧ c ≠ '-' := by
  constructor <;> (rintro rfl; exact absurd digit (by decide))

lemma exponentToken_spelled (powered : ExponentSpelling exponent cs) (ends : EndsNumber rest) :
    exponentToken negative whole fraction (cs ++ rest) =
      (.number (Literal.number ⟨negative, whole, fraction, exponent⟩), rest) := by
  cases powered with
  | none => exact exponentToken_of_ends ends
  | @some mark down sign ds marked signed nonempty digits =>
    have ⟨taken, left⟩ := span_digits digits ends.endsDigits
    have digit : ds.isEmpty = false := by simpa using nonempty
    simp only [List.mem_cons, Prod.mk.injEq, List.not_mem_nil, or_false] at signed
    obtain ⟨rfl, rfl⟩ | ⟨rfl, rfl⟩ | ⟨rfl, rfl⟩ := signed
    case inr.inr =>
      obtain ⟨d, ds, rfl⟩ := List.exists_cons_of_ne_nil nonempty
      have ⟨plus, minus⟩ := sign_of_isDigit (digits d (List.mem_cons_self ..))
      rw [List.cons_append] at taken left
      obtain rfl | rfl := marked <;>
      · simp only [exponentToken, List.cons_append, List.nil_append]
        split
        · exact absurd (List.cons.inj ‹_›).1 plus
        · exact absurd (List.cons.inj ‹_›).1 minus
        · simp only [taken, left, digit, Bool.false_eq_true, if_false]
    all_goals
      obtain rfl | rfl := marked <;>
        simp only [exponentToken, List.cons_append, List.nil_append, taken, left, digit,
          Bool.false_eq_true, if_false]

lemma fractionToken_spelled (fractioned : FractionSpelling fraction cs) {power : List Char}
    (powered : ExponentSpelling exponent power) (ends : EndsNumber rest) :
    fractionToken negative whole (cs ++ (power ++ rest)) =
      (.number (Literal.number ⟨negative, whole, fraction, exponent⟩), rest) := by
  cases fractioned with
  | none =>
    cases powered with
    | none => exact fractionToken_of_ends ends
    | some marked signed nonempty digits =>
      refine Eq.trans ?_ (exponentToken_spelled (.some marked signed nonempty digits) ends)
      obtain rfl | rfl := marked <;> rfl
  | some nonempty digits =>
    have ⟨taken, left⟩ := span_digits digits (powered.endsDigits ends)
    have digit : fraction.isEmpty = false := by simpa using nonempty
    simp only [fractionToken, List.cons_append, taken, left, digit, Bool.false_eq_true, if_false]
    exact exponentToken_spelled powered ends

theorem numberToken_spelled {point power : List Char} (nonempty : whole ≠ [])
    (digits : ∀ c ∈ whole, c.isDigit = true) (leading : ∀ ds, whole = '0' :: ds → ds = [])
    (fractioned : FractionSpelling fraction point) (powered : ExponentSpelling exponent power)
    (ends : EndsNumber rest) :
    numberToken negative (whole ++ (point ++ (power ++ rest))) =
      (.number (Literal.number ⟨negative, whole, fraction, exponent⟩), rest) := by
  have ⟨taken, left⟩ := span_digits digits (fractioned.endsDigits (powered.endsDigits ends))
  unfold numberToken
  rw [taken, left]
  dsimp only
  split
  · exact absurd rfl nonempty
  · exact absurd (leading _ rfl) (List.cons_ne_nil _ _)
  · exact fractionToken_spelled fractioned powered ends

/-! ### Tokens in a row -/

lemma nextToken_of_isDigit (digit : c.isDigit) : nextToken c cs = numberToken false (c :: cs) := by
  have none : ['"', ',', ':', '[', ']', '\x7b', '\x7d', 'n', 't', 'f', '-'].all
      fun mark => !mark.isDigit := by decide
  have other : ∀ mark ∈ ['"', ',', ':', '[', ']', '\x7b', '\x7d', 'n', 't', 'f', '-'],
      c ≠ mark := by
    rintro mark inside rfl
    exact absurd digit (by simpa using List.all_eq_true.1 none _ inside)
  simp only [List.forall_mem_cons] at other
  simp only [nextToken, other, if_false, digit, if_true]

lemma isSpace_of_isDigit (digit : c.isDigit) : isSpace c = false := by
  simp only [isSpace, Bool.or_eq_false_iff, beq_eq_false_iff_ne]
  refine ⟨⟨⟨?_, ?_⟩, ?_⟩, ?_⟩ <;> (rintro rfl; exact absurd digit (by decide))

lemma endsNumber_cons (digit : c.isDigit = false) (other : c ∉ ['.', 'e', 'E']) :
    EndsNumber (c :: cs) := by
  rintro _ ⟨⟩
  exact ⟨digit, other⟩

/-- The characters that are tokens by themselves. -/
def marks : List (Char × Token) := [(',', .comma), (':', .colon), ('[', .openList),
  (']', .closeList), ('\x7b', .openRecord), ('\x7d', .closeRecord)]

lemma tokens_mark (c : Char) (t : Token) (mark : (c, t) ∈ marks) :
    tokens (c :: cs) = t :: tokens cs := by
  simp only [marks, List.mem_cons, List.not_mem_nil, or_false, Prod.mk.injEq] at mark
  obtain ⟨rfl, rfl⟩ | ⟨rfl, rfl⟩ | ⟨rfl, rfl⟩ | ⟨rfl, rfl⟩ | ⟨rfl, rfl⟩ | ⟨rfl, rfl⟩ := mark <;>
    exact tokens_cons (by decide) rfl rfl

/-- A token is spelled as a bracket, comma or colon, as a word, as a number, or in quotes. -/
inductive Token.Spelling : Token → List Char → Prop where
  | mark {t : Token} {c : Char} (mark : (c, t) ∈ marks) : Spelling t [c]
  | null : Spelling .null ['n', 'u', 'l', 'l']
  | true : Spelling (.bool true) ['t', 'r', 'u', 'e']
  | false : Spelling (.bool false) ['f', 'a', 'l', 's', 'e']
  | number {l : Literal} {cs : List Char} (spelling : l.Spelling cs) : Spelling (.number l.number) cs
  | text {us : List TextUnit} {cs : List Char} (spelling : UnitsSpelling us cs) :
    Spelling (textOf us) ('"' :: (cs ++ ['"']))

/-- Tokens in a row, with blanks around them. -/
inductive Spells : List Token → List Char → Prop where
  | nil {blanks : List Char} (blank : ∀ c ∈ blanks, isSpace c) : Spells [] blanks
  | cons {t : Token} {ts : List Token} {blanks cs cs' : List Char} (blank : ∀ c ∈ blanks, isSpace c)
    (first : t.Spelling cs) (later : Spells ts cs') : Spells (t :: ts) (blanks ++ (cs ++ cs'))

lemma Spells.token (first : t.Spelling cs) (later : Spells ts rest) :
    Spells (t :: ts) (cs ++ rest) :=
  cons (List.forall_mem_nil _) first later

lemma Spells.mark (mark : (c, t) ∈ marks) (later : Spells ts cs) : Spells (t :: ts) (c :: cs) :=
  token (.mark mark) later

/-- A bracket, comma or colon. -/
def Token.IsMark (t : Token) : Prop := ∃ c, (c, t) ∈ marks

/-- Of two tokens in a row one is a bracket, comma or colon. -/
def Apart (t t' : Token) : Prop := t.IsMark ∨ t'.IsMark

lemma isLast_textOf (us : List TextUnit) : (textOf us).isLast = false := by
  unfold textOf
  split <;> rfl

lemma EndsNumber.of_mark (mark : (c, t) ∈ marks) : EndsNumber (c :: cs) := by
  have none : marks.all fun m => !m.1.isDigit && !(m.1 == '.' || m.1 == 'e' || m.1 == 'E') := by
    decide
  have other := List.all_eq_true.1 none _ mark
  simp only [Bool.and_eq_true, Bool.not_eq_true', Bool.or_eq_false_iff, beq_eq_false_iff_ne] at other
  exact endsNumber_cons other.1 (by simp [other.2])

lemma EndsNumber.of_isSpace (space : isSpace c) : EndsNumber (c :: cs) := by
  simp only [isSpace, Bool.or_eq_true, beq_iff_eq] at space
  obtain ((rfl | rfl) | rfl) | rfl := space <;> exact endsNumber_cons (by decide) (by decide)

lemma tokens_number {l : Literal} (spelling : l.Spelling cs) (ends : EndsNumber rest) :
    tokens (cs ++ rest) = .number l.number :: tokens rest := by
  obtain @⟨negative, whole, fraction, exponent, point, power, nonempty, digits, leading, fractioned,
    powered⟩ := spelling
  have next : numberToken negative (whole ++ (point ++ power) ++ rest) =
      (.number (Literal.number ⟨negative, whole, fraction, exponent⟩), rest) := by
    rw [List.append_assoc, List.append_assoc]
    exact numberToken_spelled nonempty digits leading fractioned powered ends
  cases negative with
  | true => exact tokens_cons (by decide) next rfl
  | false =>
    obtain ⟨d, ds, rfl⟩ := List.exists_cons_of_ne_nil nonempty
    have digit := digits d (List.mem_cons_self ..)
    exact tokens_cons (isSpace_of_isDigit digit) ((nextToken_of_isDigit digit).trans next) rfl

theorem tokens_spelled (spelling : t.Spelling cs) (ends : t.IsMark ∨ EndsNumber rest) :
    tokens (cs ++ rest) = t :: tokens rest := by
  cases spelling with
  | mark mark => exact tokens_mark _ _ mark
  | null => exact tokens_cons (by decide) rfl rfl
  | true => exact tokens_cons (by decide) rfl rfl
  | false => exact tokens_cons (by decide) rfl rfl
  | number spelling =>
    obtain ⟨c, mark⟩ | ends := ends
    · simp [marks] at mark
    · exact tokens_number spelling ends
  | @text us cs spelling =>
    have next : nextToken '"' (cs ++ '"' :: rest) = (textOf us, rest) := textToken_units spelling
    rw [List.cons_append, List.append_assoc, List.singleton_append]
    exact tokens_cons (by decide) next (isLast_textOf us)

lemma tokens_blanks {blanks : List Char} (blank : ∀ c ∈ blanks, isSpace c) :
    tokens (blanks ++ cs) = tokens cs := by
  have left : (blanks ++ cs).dropWhile isSpace = cs.dropWhile isSpace :=
    List.dropWhile_append_of_pos blank
  have enough : cs.length < (blanks ++ cs).length + 1 := by
    rw [List.length_append]
    omega
  rw [tokens, tokens, tokensWithin_congr (Nat.lt_succ_self _) enough, tokensWithin_succ,
    tokensWithin_succ, left]

lemma Token.Spelling.endsNumber (spelling : t.Spelling cs) (mark : t.IsMark) :
    EndsNumber (cs ++ rest) := by
  obtain ⟨_, listed⟩ := mark
  cases spelling with
  | mark mark => exact .of_mark mark
  | @text us =>
    unfold textOf at listed
    split at listed <;> simp [marks] at listed
  | _ => simp [marks] at listed

lemma Spells.endsNumber (spells : Spells ts cs) (mark : ∀ t ∈ ts.head?, t.IsMark) :
    EndsNumber cs := by
  cases spells with
  | nil blank =>
    cases cs with
    | nil => rintro _ ⟨⟩
    | cons c cs => exact .of_isSpace (blank c (List.mem_cons_self ..))
  | @cons t ts blanks cs cs' blank first later =>
    cases blanks with
    | nil => exact first.endsNumber (mark t rfl)
    | cons c blanks => exact .of_isSpace (blank c (List.mem_cons_self ..))

/-- **Tokens are cut out of a text that spells them.** -/
theorem tokens_of_spells (spells : Spells ts cs) (apart : ts.IsChain Apart) :
    tokens cs = ts ++ [.finish] := by
  induction spells with
  | nil blank => exact (List.append_nil _ ▸ tokens_blanks blank :)
  | @cons t ts blanks cs cs' blank first later ih =>
    rw [List.isChain_cons] at apart
    have ends : t.IsMark ∨ EndsNumber cs' := by
      refine or_iff_not_imp_left.2 fun unmarked => later.endsNumber fun t' next => ?_
      exact (apart.1 t' next).resolve_left unmarked
    rw [tokens_blanks blank, tokens_spelled first ends, ih apart.2, List.cons_append]

end TorrentHandle.Json
