import Mathlib
import TorrentHandle.Logging.Filter
import TorrentHandle.Proofs.Text.Blank
import TorrentHandle.Proofs.Text.Decimal
import TorrentHandle.Proofs.Text.Ranges

/-!
How directives are read. The reader goes through a text character by character and keeps places in
bytes. On a text without blanks at its ends it comes to cutting the text at its marks: at the first
equals sign or bracket, at the bracket or the brace after that, and at the closing brace.
-/

namespace TorrentHandle.Logging

open TorrentHandle.Text

/-! ### Levels -/

namespace Level

variable {level : Level} {cs : List Char} {c : Char}

lemma isLower_of_mem_name (inside : c ∈ level.name.toList) : c.isLower = true := by
  have each : level.name.toList.all Char.isLower = true := by cases level <;> decide
  exact List.all_eq_true.1 each c inside

/-- The text is the name of the level in any case. -/
def Names (level : Level) (cs : List Char) : Prop := cs.map Char.toLower = level.name.toList

lemma Names.isAlpha (named : level.Names cs) (inside : c ∈ cs) : c.isAlpha = true := by
  rw [← Char.isLower_toLower_eq_isAlpha]
  exact isLower_of_mem_name (named ▸ List.mem_map_of_mem inside)

lemma Names.ne_nil (named : level.Names cs) : cs ≠ [] := by
  rintro rfl
  cases level <;> cases named

lemma find?_name : (all.find? fun level => level.name.toList == cs.map Char.toLower) = some level ↔
    level.Names cs := by
  constructor
  · intro found
    have same := List.find?_some found
    exact (beq_iff_eq.1 same).symm
  · intro named
    rw [named]
    cases level <;> decide

/-- A number has digits, and no name has. -/
lemma Names.parse? (named : level.Names cs) : Decimal.parse? 5 cs = none := by
  cases number : Decimal.parse? 5 cs with
  | none => rfl
  | some n =>
    obtain ⟨sign, ds, rfl, -, some, digits, -⟩ := Decimal.parse?_eq_some.1 number
    obtain ⟨d, ds, rfl⟩ := List.exists_cons_of_ne_nil some
    have letter := named.isAlpha (c := d) (by simp)
    exact absurd (digits d (List.mem_cons_self ..)) (not_isDigit_of_isAlpha letter)

theorem ofChars?_eq_some : ofChars? cs = some level ↔
    Decimal.parse? 5 cs = some level.rank ∨ level.Names cs := by
  unfold ofChars?
  cases number : Decimal.parse? 5 cs with
  | none => simp [find?_name]
  | some n =>
    obtain ⟨-, -, -, -, -, -, -, small⟩ := Decimal.parse?_eq_some.1 number
    have unnamed : ¬ level.Names cs := fun named => by
      rw [named.parse?] at number
      cases number
    rw [or_iff_left unnamed]
    interval_cases n <;> cases level <;> simp [all, rank]

end Level

namespace Directive

variable {text pre cs rest mid : List Char} {d d' : Directive} {stage stage' : Stage} {i n : ℕ}
  {c : Char}

/-! ### Places -/

def bytes (cs : List Char) : ℕ := (cs.map Char.utf8Size).sum

@[simp] lemma bytes_cons : bytes (c :: cs) = c.utf8Size + bytes cs := by simp [bytes]

@[simp] lemma bytes_append : bytes (cs ++ rest) = bytes cs + bytes rest := by simp [bytes]

lemma dropBytes_append (pre rest : List Char) : dropBytes (bytes pre) (pre ++ rest) = rest := by
  induction pre with
  | nil => simp [bytes, dropBytes]
  | cons c pre ih =>
    have pos := c.utf8Size_pos
    obtain ⟨n, size⟩ : ∃ n, bytes (c :: pre) = n + 1 := ⟨bytes (c :: pre) - 1, by simp; omega⟩
    rw [size, List.cons_append, dropBytes, ← size, bytes_cons, Nat.add_sub_cancel_left, ih]

lemma takeBytes_append (mid rest : List Char) : takeBytes (bytes mid) (mid ++ rest) = mid := by
  induction mid with
  | nil => simp [bytes, takeBytes]
  | cons c mid ih =>
    have pos := c.utf8Size_pos
    obtain ⟨n, size⟩ : ∃ n, bytes (c :: mid) = n + 1 := ⟨bytes (c :: mid) - 1, by simp; omega⟩
    rw [size, List.cons_append, takeBytes, ← size, bytes_cons, Nat.add_sub_cancel_left, ih]

lemma slice_append (pre mid rest : List Char) :
    slice (pre ++ (mid ++ rest)) (bytes pre) (bytes pre + bytes mid) = mid := by
  rw [slice, dropBytes_append, Nat.add_sub_cancel_left, takeBytes_append]

/-! ### Going through a text -/

/-- Reads on behind `pre` up to the end. -/
def readOn (text : List Char) (d : Directive) (stage : Stage) (pre cs : List Char) :
    Option Directive :=
  (advanceAll text d stage (bytes pre) cs).bind fun (d, stage) => finish text d stage

lemma readOn_nil : readOn text d stage pre [] = finish text d stage := rfl

lemma readOn_cons : readOn text d stage pre (c :: cs) =
    (advance text d stage (bytes pre) c).bind fun next =>
      readOn text next.1 next.2 (pre ++ [c]) cs := by
  rw [readOn, advanceAll]
  cases advance text d stage (bytes pre) c with
  | none => rfl
  | some next => simp [readOn, bytes]

/-- Characters that are no marks are passed over. -/
lemma readOn_append (pass : ∀ c ∈ mid, ∀ i, advance text d stage i c = some (d, stage)) :
    readOn text d stage pre (mid ++ cs) = readOn text d stage (pre ++ mid) cs := by
  induction mid generalizing pre with
  | nil => simp
  | cons c mid ih =>
    obtain ⟨first, others⟩ := List.forall_mem_cons.1 pass
    rw [List.cons_append, readOn_cons, first, Option.bind_some, ih others, List.append_assoc,
      List.singleton_append]

/-! ### Cutting -/

/-- With the level that is written after an equals sign; without one every level. -/
def withLevel (d : Directive) (cs : List Char) : Option Directive :=
  if cs.isEmpty then some { d with level := .trace }
  else (Level.ofChars? cs).map fun level => { d with level }

/-- What may follow a closing bracket. -/
def cutAfter (d : Directive) : List Char → Option Directive
  | [] => some d
  | '=' :: cs => d.withLevel cs
  | _ => none

/-- What may follow a closing brace. -/
def cutClosed (d : Directive) : List Char → Option Directive
  | ']' :: cs => d.cutAfter cs
  | _ => none

/-- What may follow an opening brace: a field up to the closing brace. -/
def cutField (d : Directive) (cs : List Char) : Option Directive :=
  match cs.dropWhile (· != '\x7d') with
  | '\x7d' :: rest => (d.withField (cs.takeWhile (· != '\x7d'))).bind (·.cutClosed rest)
  | _ => none

/-- What may follow an opening bracket: the name of a span, and maybe a field in braces. -/
def cutSpan (d : Directive) (cs : List Char) : Option Directive :=
  let name := cs.takeWhile fun c => c != ']' && c != '\x7b'
  match cs.dropWhile fun c => c != ']' && c != '\x7b' with
  | ']' :: rest => { d with bound := true }.cutAfter rest
  | '\x7b' :: rest => { d with bound := d.bound || !name.isEmpty }.cutField rest
  | _ => none

/-- What may follow the word that a directive begins with: nothing, a level or a span. -/
def cutWord (word : List Char) : List Char → Option Directive
  | [] =>
    match Level.ofChars? word with
    | some level => some { level }
    | none => some { target := some word }
  | '=' :: cs => { target := some word : Directive }.withLevel cs
  | _ :: cs => { target := some word : Directive }.cutSpan cs

/-- A directive cut at its marks. -/
def cut (text : List Char) : Option Directive :=
  let rest := text.dropWhile fun c => c != '=' && c != '['
  match text.takeWhile fun c => c != '=' && c != '[' with
  | [] =>
    match rest with
    | '[' :: cs => cutSpan {} cs
    | _ => none
  | c :: word => if isInitial c then cutWord (c :: word) rest else none

lemma readOn_level (whole : text = pre ++ cs) :
    readOn text d (.level (bytes pre)) pre cs = d.withLevel cs := by
  have pass : readOn text d (.level (bytes pre)) pre (cs ++ []) =
      readOn text d (.level (bytes pre)) (pre ++ cs) [] := readOn_append fun _ _ _ => rfl
  rw [List.append_nil] at pass
  rw [pass, readOn_nil, finish.eq_def]
  simp only [whole, dropBytes_append]
  rfl

lemma readOn_target (whole : text = pre ++ cs) :
    readOn text d .target pre cs = d.cutAfter cs := by
  cases cs with
  | nil => rfl
  | cons c cs =>
    rw [readOn_cons]
    by_cases mark : c = '='
    · subst mark
      have level : readOn text d (.level (bytes (pre ++ ['=']))) (pre ++ ['=']) cs =
          d.withLevel cs := readOn_level (by simpa using whole)
      rw [bytes_append] at level
      exact level
    · rw [advance, if_neg mark, cutAfter]
      · rfl
      · exact nofun
      · rintro rest ⟨⟩
        exact mark rfl

lemma readOn_fields (whole : text = pre ++ cs) :
    readOn text d .fields pre cs = d.cutClosed cs := by
  cases cs with
  | nil => rfl
  | cons c cs =>
    rw [readOn_cons]
    by_cases mark : c = ']'
    · subst mark
      exact readOn_target (by simpa using whole)
    · rw [advance, if_neg mark, cutClosed]
      · rfl
      · rintro rest ⟨⟩
        exact mark rfl

/-- A text is cut where a mark comes first. -/
lemma exists_cut (p : Char → Bool) (cs : List Char) : ∃ mid rest, cs = mid ++ rest ∧
    cs.takeWhile p = mid ∧ cs.dropWhile p = rest ∧ (∀ c ∈ mid, p c = true) ∧
    ∀ c rest', rest = c :: rest' → p c = false := by
  refine ⟨cs.takeWhile p, cs.dropWhile p, List.takeWhile_append_dropWhile.symm, rfl, rfl,
    fun c => List.mem_takeWhile_imp, fun c rest' split => ?_⟩
  have first := List.head_dropWhile_not p (l := cs) (by rw [split]; exact List.cons_ne_nil _ _)
  simpa [split] using first

lemma readOn_field (whole : text = pre ++ cs) :
    readOn text d (.field (bytes pre)) pre cs = d.cutField cs := by
  obtain ⟨mid, rest, rfl, taken, dropped, plain, stop⟩ := exists_cut (· != '\x7d') cs
  have pass : ∀ c ∈ mid, ∀ i, advance text d (.field (bytes pre)) i c =
      some (d, .field (bytes pre)) := fun c inside i => by
    rw [advance, if_neg (by simpa using plain c inside)]
  rw [readOn_append pass, cutField, taken, dropped]
  cases rest with
  | nil => rfl
  | cons c rest =>
    obtain rfl : c = '\x7d' := by simpa using stop c rest rfl
    rw [readOn_cons, advance, if_pos rfl, bytes_append, whole, slice_append, ← whole]
    cases d.withField mid with
    | none => rfl
    | some d => exact readOn_fields (by simpa using whole)

lemma readOn_span (whole : text = pre ++ cs) :
    readOn text d (.span (bytes pre)) pre cs = d.cutSpan cs := by
  obtain ⟨mid, rest, rfl, taken, dropped, plain, stop⟩ :=
    exists_cut (fun c => c != ']' && c != '\x7b') cs
  have pass : ∀ c ∈ mid, ∀ i, advance text d (.span (bytes pre)) i c =
      some (d, .span (bytes pre)) := fun c inside i => by
    have other : c ≠ ']' ∧ c ≠ '\x7b' := by simpa using plain c inside
    rw [advance, if_neg other.1, if_neg other.2]
  rw [readOn_append pass, cutSpan, taken, dropped]
  cases rest with
  | nil => rfl
  | cons c rest =>
    have mark : c = ']' ∨ c = '\x7b' := by simpa [or_iff_not_imp_left] using stop c rest rfl
    rw [readOn_cons, advance]
    obtain rfl | rfl := mark
    · rw [if_pos rfl]
      exact readOn_target (by simpa using whole)
    · let named : Directive := { d with bound := d.bound || !mid.isEmpty }
      have field : readOn text named (.field (bytes (pre ++ mid ++ ['\x7b'])))
          (pre ++ mid ++ ['\x7b']) rest = named.cutField rest :=
        readOn_field (by simpa using whole)
      rw [bytes_append, bytes_append] at field
      rw [if_neg (by decide), if_pos rfl, bytes_append, whole, slice_append, ← whole]
      exact field

lemma readOn_word {word : List Char} (whole : text = word ++ cs)
    (mark : ∀ c cs', cs = c :: cs' → c = '=' ∨ c = '[') :
    readOn text {} (.levelOrTarget 0) word cs = cutWord word cs := by
  cases cs with
  | nil =>
    rw [List.append_nil] at whole
    rw [whole, readOn_nil]
    cases level : Level.ofChars? word with
    | none => simp [finish, cutWord, dropBytes, level]
    | some l => simp [finish, cutWord, dropBytes, level]
  | cons c cs =>
    have target : slice text 0 (bytes word) = word := by
      have first := slice_append [] word (c :: cs)
      rw [List.nil_append, ← whole] at first
      simpa [bytes] using first
    rw [readOn_cons, advance, target]
    obtain rfl | rfl := mark c cs rfl
    · have level : readOn text { target := some word } (.level (bytes (word ++ ['='])))
          (word ++ ['=']) cs = { target := some word : Directive }.withLevel cs :=
        readOn_level (by simpa using whole)
      rw [bytes_append] at level
      exact level
    · have span : readOn text { target := some word } (.span (bytes (word ++ ['['])))
          (word ++ ['[']) cs = { target := some word : Directive }.cutSpan cs :=
        readOn_span (by simpa using whole)
      rw [bytes_append] at span
      exact span

/-- **A directive is read by cutting it at its marks.** -/
theorem ofChars?_eq_cut (trimmed : trimChars text = text) : ofChars? text = cut text := by
  have whole : ofChars? text = readOn text {} .start [] text := by
    rw [ofChars?, trimmed, readOn]
    change _ = (advanceAll text {} .start 0 text).bind _
    cases advanceAll text {} .start 0 text <;> rfl
  rw [whole]
  obtain ⟨word, rest, split, taken, dropped, plain, stop⟩ :=
    exists_cut (fun c => c != '=' && c != '[') text
  have mark : ∀ c cs, rest = c :: cs → c = '=' ∨ c = '[' := fun c cs first => by
    simpa [or_iff_not_imp_left] using stop c cs first
  rw [cut, taken, dropped]
  cases word with
  | nil =>
    rw [List.nil_append] at split
    subst split
    cases text with
    | nil => rfl
    | cons c cs =>
      rw [readOn_cons, advance]
      obtain rfl | rfl := mark c cs rfl
      · have other : isInitial '=' = false := by
          rw [isInitial, isAlphanumeric_of_ascii (by decide)]
          rfl
        rw [if_neg (by decide), other]
        rfl
      · have span : readOn ('[' :: cs) {} (.span (bytes ['['])) ['['] cs = cutSpan {} cs :=
          readOn_span rfl
        exact span
  | cons c word =>
    obtain ⟨first, others⟩ := List.forall_mem_cons.1 plain
    have pass : ∀ c ∈ word, ∀ i, advance text {} (.levelOrTarget 0) i c =
        some ({}, .levelOrTarget 0) := fun c inside i => by
      have other : c ≠ '=' ∧ c ≠ '[' := by simpa using others c inside
      rw [advance, if_neg other.1, if_neg other.2]
    have other : c ≠ '=' ∧ c ≠ '[' := by simpa using first
    rw [split, List.cons_append, readOn_cons, ← List.cons_append, ← split, advance, if_neg other.2]
    change _ = if isInitial c then cutWord (c :: word) rest else none
    cases isInitial c with
    | false => rfl
    | true => exact (readOn_append pass).trans (readOn_word split mark)

/-! ### The usual forms -/

lemma trimChars_of_shown (shown : ∀ c ∈ text, isBlank c = false) : trimChars text = text :=
  (trimChars_eq_iff shown).2 ⟨[], [], by simp, nofun, nofun⟩

lemma isInitial_of_isAlpha (letter : c.isAlpha = true) : isInitial c = true := by
  simp [isInitial, isAlphanumeric, isAlphabetic, letter]

/-- A word that may begin a directive, without marks and blanks. -/
structure IsWord (word : List Char) : Prop where
  initial : ∃ c rest, word = c :: rest ∧ isInitial c = true
  plain : ∀ c ∈ word, (c != '=' && c != '[') = true
  shown : ∀ c ∈ word, isBlank c = false

lemma IsWord.of_names {level : Level} (named : level.Names cs) : IsWord cs where
  initial := by
    obtain ⟨c, rest, rfl⟩ := List.exists_cons_of_ne_nil named.ne_nil
    exact ⟨c, rest, rfl, isInitial_of_isAlpha (named.isAlpha (List.mem_cons_self ..))⟩
  plain c inside := by
    have letter := named.isAlpha inside
    rw [Bool.and_eq_true, bne_iff_ne, bne_iff_ne]
    constructor <;> rintro rfl <;> exact absurd letter (by decide)
  shown c inside := not_blank_of_isAlpha (named.isAlpha inside)

lemma IsWord.ofChars?_append {word : List Char} (isWord : IsWord word)
    (mark : ∀ c ∈ cs.head?, c = '=' ∨ c = '[') (shown : ∀ c ∈ cs, isBlank c = false) :
    ofChars? (word ++ cs) = cutWord word cs := by
  have trimmed : trimChars (word ++ cs) = word ++ cs :=
    trimChars_of_shown (List.forall_mem_append.2 ⟨isWord.shown, shown⟩)
  have stop : cs.takeWhile (fun c => c != '=' && c != '[') = [] ∧
      cs.dropWhile (fun c => c != '=' && c != '[') = cs := by
    cases cs with
    | nil => exact ⟨rfl, rfl⟩
    | cons c cs =>
      have no : ¬ (c != '=' && c != '[') = true := by
        obtain rfl | rfl := mark c rfl <;> decide
      exact ⟨List.takeWhile_cons_of_neg no, List.dropWhile_cons_of_neg no⟩
  rw [ofChars?_eq_cut trimmed, cut, List.takeWhile_append_of_pos isWord.plain,
    List.dropWhile_append_of_pos isWord.plain, stop.1, stop.2, List.append_nil]
  obtain ⟨c, rest, rfl, initial⟩ := isWord.initial
  exact if_pos initial

theorem ofChars?_of_names {level : Level} (named : level.Names cs) :
    ofChars? cs = some { level } := by
  have read : ofChars? (cs ++ []) = cutWord cs [] :=
    (IsWord.of_names named).ofChars?_append nofun nofun
  rw [List.append_nil] at read
  rw [read, cutWord, Level.ofChars?_eq_some.2 (.inr named)]

/-- **A target with a level.** -/
theorem ofChars?_target_level {word : List Char} {level : Level} (isWord : IsWord word)
    (named : level.Names cs) :
    ofChars? (word ++ '=' :: cs) = some { level, target := some word } := by
  have shown : ∀ c ∈ '=' :: cs, isBlank c = false :=
    List.forall_mem_cons.2 ⟨by decide, (IsWord.of_names named).shown⟩
  have some : ¬ cs.isEmpty = true := by simpa using named.ne_nil
  rw [isWord.ofChars?_append (by simp) shown, cutWord, withLevel, if_neg some,
    Level.ofChars?_eq_some.2 (.inr named)]
  rfl

end Directive

end TorrentHandle.Logging
