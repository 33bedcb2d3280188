import Mathlib.Data.List.Infix
import Mathlib.Data.Nat.Notation
import Mathlib.Tactic.Lemma
import TorrentHandle.Logging.Pattern.Check

/-!
Reading a pattern without counting steps. Every part takes in characters, so what is left after it
ends the text, and as many steps as there are characters are enough. A text is a pattern iff it can
be read to its end, in any number of steps.
-/

namespace TorrentHandle.Logging.Pattern

open TorrentHandle.Text

variable {modes modes' : Modes} {cs rest rest' passed : List Char} {c : Char} {part : Part}
  {code code' digits depth : ℕ} {colon negated : Bool}

/-! ### What is left -/

lemma skipIgnored_suffix (comment : Bool) (cs : List Char) : skipIgnored comment cs <:+ cs := by
  fun_induction skipIgnored comment cs with
  | case1 => exact List.nil_suffix
  | case2 c rest ih | case3 _ c rest _ _ ih | case4 _ rest _ _ ih =>
    exact ih.trans (List.suffix_cons _ _)
  | case5 => exact List.suffix_rfl

lemma Modes.skip_suffix (modes : Modes) (cs : List Char) : modes.skip cs <:+ cs := by
  unfold skip
  split
  · exact skipIgnored_suffix false cs
  · exact List.suffix_rfl

lemma Modes.rest_suffix (taken : modes.skip cs = c :: rest) : rest <:+ cs :=
  (List.suffix_cons c rest).trans (taken ▸ modes.skip_suffix cs)

lemma Modes.read_suffix (read : Modes.read modes passed cs = some (modes', colon, rest)) :
    rest <:+ cs := by
  fun_induction Modes.read modes passed cs with
  | case1 | case2 | case4 | case6 | case9 => cases read
  | case3 | case5 =>
    obtain ⟨-, -, rfl⟩ : _ ∧ _ ∧ _ = rest := by simpa using read
    exact List.suffix_cons _ _
  | case7 _ _ _ _ _ _ ih | case8 _ _ _ _ _ _ _ _ _ ih =>
    exact (ih read).trans (List.suffix_cons _ _)

lemma readCode_suffix (read : readCode modes code digits cs = some (code', rest)) :
    rest <:+ cs := by
  fun_induction readCode modes code digits cs with
  | case1 =>
    cases read
    exact List.suffix_rfl
  | case2 | case4 => cases read
  | case3 _ _ _ _ _ taken _ _ ih => exact (ih read).trans (Modes.rest_suffix taken)

lemma readEscape_suffix (read : readEscape modes cs = some (part, rest)) : rest <:+ cs := by
  unfold readEscape at read
  split at read
  · cases read
  · refine List.IsSuffix.trans ?_ (List.suffix_cons _ _)
    split at read
    · split at read
      · split at read
        · cases read
          exact readCode_suffix ‹_›
        · cases read
      · cases read
    · obtain ⟨-, rfl⟩ : _ ∧ _ = rest := by simpa using read
      exact List.suffix_rfl

lemma readPart_suffix (read : readPart modes c cs = some (part, rest)) : rest <:+ cs := by
  unfold readPart at read
  split at read
  · exact readEscape_suffix read
  · cases read
    exact List.suffix_rfl

/-! ### Sets -/

lemma readClassName_suffix (read : readClassName cs = some (negated, rest)) : rest <:+ cs := by
  -- The name ends at `:]`, and what is left follows that.
  have ending {name after : List Char} (found : name.dropWhile (· != ':') = ':' :: ']' :: after) :
      after <:+ name := by
    have within : ':' :: ']' :: after <:+ name := found ▸ List.dropWhile_suffix _
    exact (List.suffix_append [':', ']'] after).trans within
  unfold readClassName at read
  split at read
  · dsimp only at read
    split at read
    · rename_i after _ more found
      split at read
      · split at read
        · cases read
          exact (ending found).trans (List.suffix_append [':', '^'] _)
        · cases read
      · split at read
        · cases read
          refine (ending found).trans ?_
          split
          · exact List.suffix_append [':', '^'] _
          · exact List.suffix_cons _ _
        · cases read
    · cases read
  · cases read

lemma readItem_suffix (read : readItem modes c cs = some rest) : rest <:+ cs := by
  unfold readItem at read
  obtain ⟨⟨first, more⟩, readFirst, read⟩ := Option.bind_eq_some_iff.1 read
  have within := readPart_suffix readFirst
  dsimp only at read
  split at read
  · cases read
  · rename_i after skipped
    have inside : '-' :: after <:+ cs := (skipped ▸ modes.skip_suffix more).trans within
    split at read
    · split at read
      · cases read
        exact inside
      · cases read
    · split at read
      · cases read
      · rename_i d more taken
        obtain ⟨⟨last, after'⟩, readLast, read⟩ := Option.bind_eq_some_iff.1 read
        dsimp only at read
        split at read
        · split at read
          · cases read
            exact (readPart_suffix readLast).trans ((Modes.rest_suffix taken).trans
              ((List.suffix_cons _ _).trans inside))
          · cases read
        · cases read
  · split at read
    · cases read
      exact (modes.skip_suffix more).trans within
    · cases read

lemma openSet_suffix (opened : openSet modes cs = some rest) : rest <:+ cs := by
  unfold openSet at opened
  split at opened
  · split at opened
    · cases opened
      exact Modes.rest_suffix ‹_›
    · cases opened
  · cases opened
    exact modes.skip_suffix cs

variable {steps steps' : ℕ} {outer : List OpenSet} {s : OpenSet} {next : SetStep}

def SetStep.left : SetStep → List Char
  | .ended _ rest | .more _ _ rest => rest

lemma OpenSet.advance_suffix (taken : s.advance modes outer c cs = some next) :
    next.left <:+ cs := by
  unfold advance at taken
  split at taken
  · split at taken
    · cases taken
      exact List.suffix_rfl
    · cases taken
  · split at taken
    · split at taken <;> cases taken <;> exact List.suffix_rfl
    · split at taken
      · split at taken
        · cases taken
          exact readClassName_suffix (by assumption)
        · cases taken
      · obtain ⟨rest, opened, rfl⟩ := Option.map_eq_some_iff.1 taken
        exact openSet_suffix opened
    · cases taken
      exact List.suffix_cons _ _
    · cases taken
      exact List.suffix_cons _ _
    · cases taken
      exact List.suffix_cons _ _
    · obtain ⟨rest, read, rfl⟩ := Option.map_eq_some_iff.1 taken
      exact readItem_suffix read

lemma readSetWithin_suffix (read : readSetWithin modes steps outer s cs = some (depth, rest)) :
    rest <:+ cs := by
  fun_induction readSetWithin modes steps outer s cs with
  | case1 | case2 | case3 => cases read
  | case4 _ _ _ _ _ _ taken _ _ advanced =>
    cases read
    exact (OpenSet.advance_suffix advanced).trans (Modes.rest_suffix taken)
  | case5 _ _ _ _ _ _ taken _ _ _ advanced ih =>
    exact (ih read).trans ((OpenSet.advance_suffix advanced).trans (Modes.rest_suffix taken))

lemma readSet_suffix (read : readSet modes cs = some (depth, rest)) : rest <:+ cs := by
  obtain ⟨inside, opened, read⟩ := Option.bind_eq_some_iff.1 read
  exact (readSetWithin_suffix read).trans (openSet_suffix opened)

/-- More steps than there are characters give no other set. -/
theorem readSetWithin_eq (enough : cs.length < steps) (enough' : cs.length < steps') :
    readSetWithin modes steps outer s cs = readSetWithin modes steps' outer s cs := by
  induction steps generalizing outer s cs steps' with
  | zero => cases enough
  | succ steps ih =>
    obtain ⟨steps', rfl⟩ := Nat.exists_eq_succ_of_ne_zero (Nat.ne_zero_of_lt enough')
    rw [readSetWithin, readSetWithin]
    cases taken : modes.skip cs with
    | nil => rfl
    | cons c rest =>
      dsimp only
      cases advanced : s.advance modes outer c rest with
      | none => rfl
      | some next =>
        cases next with
        | ended depth rest => rfl
        | more outer s left =>
          have shorter := (OpenSet.advance_suffix advanced).length_le
          have one := taken ▸ (modes.skip_suffix cs).length_le
          simp only [SetStep.left, List.length_cons] at shorter one
          exact ih (by omega) (by omega)

/-! ### Patterns -/

namespace Progress

variable {p q : Progress}

lemma openNamed_suffix (opened : p.openNamed cs = some (q, rest)) : rest <:+ cs := by
  unfold openNamed at opened
  split at opened
  · cases opened
  · rename_i _ rest found
    dsimp only at opened
    split at opened
    · cases opened
      exact (List.suffix_cons _ _).trans (found ▸ List.dropWhile_suffix _)
    · cases opened

lemma openGroup_suffix (opened : p.openGroup cs = some (q, rest)) : rest <:+ cs := by
  unfold openGroup at opened
  split at opened
  · rename_i rest opening
    have inside : '?' :: 'P' :: '<' :: rest <:+ cs := opening ▸ p.modes.skip_suffix cs
    exact (openNamed_suffix opened).trans ((List.suffix_append ['?', 'P', '<'] rest).trans inside)
  · rename_i rest opening
    have inside : '?' :: '<' :: rest <:+ cs := opening ▸ p.modes.skip_suffix cs
    exact (openNamed_suffix opened).trans ((List.suffix_append ['?', '<'] rest).trans inside)
  · rename_i _ _ opening
    have inside := Modes.rest_suffix opening
    split at opened
    · cases opened
    · cases opened
      exact (Modes.read_suffix ‹_›).trans inside
    · cases opened
      exact (Modes.read_suffix ‹_›).trans inside
  · cases opened
    exact p.modes.skip_suffix cs

lemma repeatLast_suffix (repeated : p.repeatLast cs = some (q, rest)) : rest <:+ cs := by
  unfold repeatLast at repeated
  split at repeated
  · split at repeated
    · cases repeated
      exact List.suffix_cons _ _
    · cases repeated
      exact List.suffix_rfl
  · cases repeated

lemma advance_suffix (taken : p.advance c cs = some (q, rest)) : rest <:+ cs := by
  unfold advance at taken
  split at taken
  · exact openGroup_suffix taken
  split at taken
  · obtain ⟨_, rfl⟩ : _ ∧ _ = rest := by simpa using taken
    exact List.suffix_rfl
  split at taken
  · cases taken
    exact List.suffix_rfl
  split at taken
  · obtain ⟨⟨depth, left⟩, read, same⟩ := Option.map_eq_some_iff.1 taken
    cases same
    exact readSet_suffix read
  split at taken
  · exact repeatLast_suffix taken
  split at taken
  · cases taken
  split at taken
  · split at taken
    · cases taken
      exact List.suffix_rfl
    · cases taken
  split at taken
  · cases taken
    exact List.suffix_rfl
  split at taken
  · split at taken
    · cases taken
      exact readPart_suffix ‹_›
    · cases taken
  · cases taken

end Progress

/-! ### Reading to the end -/

/-- A text is read to its end, from one state to another. -/
inductive Reads : Progress → List Char → Progress → Prop
  | done {p : Progress} {cs : List Char} (nothing : p.modes.skip cs = []) : Reads p cs p
  | step {p p' q : Progress} {cs rest rest' : List Char} {c : Char}
      (taken : p.modes.skip cs = c :: rest) (advanced : p.advance c rest = some (p', rest'))
      (later : Reads p' rest' q) : Reads p cs q

variable {p q : Progress}

lemma reads_of_done (nothing : p.modes.skip cs = []) : Reads p cs q ↔ p = q := by
  constructor
  · rintro (_ | ⟨taken, -, -⟩)
    · rfl
    · cases nothing.symm.trans taken
  · rintro rfl
    exact .done nothing

lemma reads_of_taken (taken : p.modes.skip cs = c :: rest) : Reads p cs q ↔
    ∃ p' rest', p.advance c rest = some (p', rest') ∧ Reads p' rest' q := by
  constructor
  · rintro (nothing | ⟨taken', advanced, later⟩)
    · cases taken.symm.trans nothing
    · cases taken.symm.trans taken'
      exact ⟨_, _, advanced, later⟩
  · rintro ⟨p', rest', advanced, later⟩
    exact .step taken advanced later

/-- As many steps as there are characters, and one for the end, are enough. -/
lemma readWithin_eq_some (enough : cs.length < steps) :
    p.readWithin steps cs = some q ↔ Reads p cs q := by
  induction steps generalizing p cs with
  | zero => cases enough
  | succ steps ih =>
    have within := (p.modes.skip_suffix cs).length_le
    rw [Progress.readWithin]
    cases taken : p.modes.skip cs with
    | nil =>
      rw [reads_of_done taken]
      exact Option.some_inj
    | cons c rest =>
      rw [reads_of_taken taken]
      rw [taken, List.length_cons] at within
      dsimp only
      cases advanced : p.advance c rest with
      | none => exact ⟨nofun, nofun⟩
      | some next =>
        obtain ⟨p', rest'⟩ := next
        have shorter := (Progress.advance_suffix advanced).length_le
        dsimp only
        rw [ih (by omega)]
        constructor
        · exact fun later => ⟨p', rest', rfl, later⟩
        · rintro ⟨_, _, ⟨⟩, later⟩
          exact later

lemma Reads.unique {q' : Progress} (reads : Reads p cs q) (reads' : Reads p cs q') : q = q' := by
  have enough := Nat.lt_succ_self cs.length
  exact Option.some_inj.1 (((readWithin_eq_some enough).2 reads).symm.trans
    ((readWithin_eq_some enough).2 reads'))

/-- **A text is a pattern iff it can be read to its end**, closes its groups and is not nested too
deep. -/
theorem isPattern_iff : isPattern cs = true ↔
    ∃ p, Reads {} cs p ∧ p.outer = [] ∧ p.current.depth ≤ depthLimit := by
  have read {q : Progress} := readWithin_eq_some (p := {}) (q := q) (Nat.lt_succ_self cs.length)
  unfold isPattern
  cases result : Progress.readWithin (cs.length + 1) {} cs with
  | none =>
    refine ⟨nofun, ?_⟩
    rintro ⟨p, reads, -⟩
    cases result.symm.trans (read.2 reads)
  | some p =>
    simp only [Bool.and_eq_true, List.isEmpty_iff, decide_eq_true_eq]
    constructor
    · exact fun fits => ⟨p, read.1 result, fits⟩
    · rintro ⟨q, reads, fits⟩
      cases result.symm.trans (read.2 reads)
      exact fits

/-! ### Depth -/

lemma joinedDepth_le {ds : List ℕ} {n : ℕ} (bound : ∀ d ∈ ds, d ≤ n) : joinedDepth ds ≤ n + 1 := by
  unfold joinedDepth
  split
  · exact Nat.zero_le _
  · exact (bound _ (List.mem_singleton_self _)).trans (Nat.le_succ n)
  · exact Nat.succ_le_succ (List.foldlRecOn ds max (motive := (· ≤ n)) (Nat.zero_le n)
      fun deepest below d inside => max_le below (bound d inside))

/-- Alternatives whose only part has the given depth, or that have no part. -/
def nested : ℕ → Alternatives
  | 0 => {}
  | d + 1 => { parts := [(d + 1, true)] }

lemma depth_nested (d : ℕ) : (nested d).depth = d := by
  cases d <;> rfl

lemma reads_closings (n d : ℕ) :
    Reads { current := nested d, outer := List.replicate n ({}, {}) } (List.replicate n ')')
      { current := nested (d + n) } := by
  induction n generalizing d with
  | zero => exact .done rfl
  | succ n ih =>
    have closed : Progress.advance
        { current := nested d, outer := List.replicate (n + 1) ({}, {}) } ')'
          (List.replicate n ')') =
        some ({ current := nested (d + 1), outer := List.replicate n ({}, {}) },
          List.replicate n ')') := by
      rw [show nested (d + 1) = Alternatives.add {} ((nested d).depth + 1) true by
        rw [depth_nested]; rfl]
      rfl
    exact .step rfl closed (Nat.succ_add_eq_add_succ d n ▸ ih (d + 1))

lemma Progress.openGroup_eq (spaced : p.modes.spaced = false) (unmarked : cs.head? ≠ some '?') :
    p.openGroup cs = some (p.inside p.modes, cs) := by
  have skipped : p.modes.skip cs = cs := by simp [Modes.skip, spaced]
  unfold openGroup
  rw [skipped]
  split
  · exact absurd rfl unmarked
  · exact absurd rfl unmarked
  · exact absurd rfl unmarked
  · rfl

lemma reads_openings {n k : ℕ} (unmarked : cs.head? ≠ some '?')
    (reads : Reads { outer := List.replicate (n + k) ({}, {}) } cs q) :
    Reads { outer := List.replicate k ({}, {}) } (List.replicate n '(' ++ cs) q := by
  induction n generalizing k with
  | zero => rwa [Nat.zero_add] at reads
  | succ n ih =>
    refine .step rfl (Progress.openGroup_eq rfl ?_) (ih (k := k + 1) ?_)
    · cases n with
      | zero => exact unmarked
      | succ n => simp [List.replicate_succ]
    · rwa [← Nat.succ_add_eq_add_succ n k]

/-- **The limit of depth.** Groups around nothing are a pattern as long as they keep to it. -/
theorem isPattern_nested (n : ℕ) :
    isPattern (List.replicate n '(' ++ List.replicate n ')') = true ↔ n ≤ depthLimit := by
  have unmarked : (List.replicate n ')').head? ≠ some '?' := by
    cases n <;> simp [List.replicate_succ]
  have reads : Reads {} (List.replicate n '(' ++ List.replicate n ')')
      { current := nested (0 + n) } := reads_openings (k := 0) unmarked (reads_closings n 0)
  rw [isPattern_iff]
  constructor
  · rintro ⟨q, reads', -, shallow⟩
    rw [reads'.unique reads, depth_nested, Nat.zero_add] at shallow
    exact shallow
  · refine fun shallow => ⟨_, reads, rfl, ?_⟩
    rwa [depth_nested, Nat.zero_add]

end TorrentHandle.Logging.Pattern
