import Mathlib.Algebra.Group.Nat.Defs
import Mathlib.Logic.Function.Basic
import TorrentHandle.Proofs.Settings.Load
import TorrentHandle.Proofs.Text.Decimal

/-!
Rate limits from the environment. The texts that give one are the decimal numbers of 64 bits, with
blanks around them: at most one plus sign, any number of leading zeros, nothing beyond the largest
word. What a limit makes of its text does not depend on what else the environment replaces.
-/

namespace TorrentHandle

open TorrentHandle.Text

/-- A text of the number `n`: ASCII digits after at most one plus sign, with blanks around. -/
def StandsFor (text : String) (n : ℕ) : Prop :=
  ∃ sign digits, Framed (sign ++ digits) text.toList ∧ (sign = [] ∨ sign = ['+']) ∧
    digits ≠ [] ∧ (∀ c ∈ digits, c.isDigit = true) ∧ Decimal.value digits = n

lemma givesLimit_iff {text : String} {l : UInt64} : GivesLimit text l ↔ StandsFor text l.toNat :=
  .rfl

/-- The words that a text gives are the numbers in their range for which it stands. -/
lemma exists_givesLimit_iff {text : String} {n : ℕ} :
    (∃ l, GivesLimit text l ∧ l.toNat = n) ↔ StandsFor text n ∧ n ≤ 2 ^ 64 - 1 := by
  constructor
  · rintro ⟨l, gives, rfl⟩
    exact ⟨gives, Nat.le_pred_of_lt l.toNat_lt⟩
  · rintro ⟨stands, small⟩
    have word : (UInt64.ofNat n).toNat = n :=
      UInt64.toNat_ofNat_of_lt' (Nat.lt_of_le_pred (by decide) small)
    exact ⟨UInt64.ofNat n, givesLimit_iff.2 (by rwa [word]), word⟩

lemma standsFor_render (n : ℕ) : StandsFor (Decimal.render n) n := by
  refine ⟨[], Decimal.digits n, ⟨[], [], ?_, nofun, nofun⟩, .inl rfl, Decimal.digits_ne_nil,
    fun c => Decimal.isDigit_of_mem_digits, Decimal.value_digits⟩
  simp [Decimal.render]

/-! ### The two limits -/

/-- A limit that the environment may replace. -/
inductive RateLimit where
  | download
  | upload

namespace RateLimit

def variableName : RateLimit → String
  | download => downloadLimitVariable
  | upload => uploadLimitVariable

def put : RateLimit → EngineSettings → UInt64 → EngineSettings
  | download, s, l => { s with downloadRateLimit := l }
  | upload, s, l => { s with uploadRateLimit := l }

end RateLimit

namespace EngineSettings

section Override

variable {α : Type} {lookup : String → Option String} {name other v : String} {present : α}
  {parse : String → String → Except ConfigError α}

lemma override_of_some :
    override (Function.update lookup name (some v)) name parse present = parse name v := by
  simp [override]

lemma override_of_ne (ne : other ≠ name) (x : Option String) :
    override (Function.update lookup name x) other parse present =
      override lookup other parse present := by
  simp [override, ne]

end Override

lemma limitOverride_map_eq_ok {name v : String} {n : ℕ} :
    (limitOverride name v).map UInt64.toNat = .ok n ↔ StandsFor v n ∧ n ≤ 2 ^ 64 - 1 := by
  have accepts (l : UInt64) : limitOverride name v = .ok l ↔ GivesLimit v l :=
    limitOverride_reads.accepts
  simp_rw [← exists_givesLimit_iff, ← accepts]
  cases limitOverride name v <;> simp [Except.map]

lemma limitOverride_eq_error {name v : String} {e : ConfigError} : limitOverride name v = .error e ↔
    (¬ ∃ n, StandsFor v n ∧ n ≤ 2 ^ 64 - 1) ∧ e = .invalidOverride name v := by
  simp_rw [limitOverride_reads.refuses, ← exists_givesLimit_iff]
  simp

/-- The limit is read as a word is, digit by digit. -/
lemma limitOverride_eq_parseWord? (name v : String) : limitOverride name v =
    match Decimal.parseWord? (trimChars v.toList) with
    | some l => .ok l
    | none => .error (.invalidOverride name v) := by
  have range : Json.maxUnsigned = UInt64.size - 1 := rfl
  rw [Decimal.parseWord?_eq, limitOverride, range]
  cases Decimal.parse? (UInt64.size - 1) (trimChars v.toList) <;> rfl

/-- Where everything else in the environment is well-formed, the settings are those without the
limit, with the limit that its text gives. -/
lemma applyOverrides_update {s g : EngineSettings} {lookup : String → Option String}
    (limit : RateLimit) (v : String)
    (rest : s.applyOverrides (Function.update lookup limit.variableName none) = .ok g) :
    s.applyOverrides (Function.update lookup limit.variableName (some v)) =
      (limitOverride limit.variableName v).map (limit.put g) := by
  have level : levelVariable ≠ limit.variableName := by cases limit <;> decide
  have format : formatVariable ≠ limit.variableName := by cases limit <;> decide
  rw [applyOverrides, override_of_ne level, override_of_ne format] at rest ⊢
  obtain ⟨l, levelRead, rest⟩ := bind_eq_ok.1 rest
  obtain ⟨f, formatRead, rest⟩ := bind_eq_ok.1 rest
  rw [levelRead, formatRead]
  change (override _ downloadLimitVariable _ _ >>= fun _ =>
    override _ uploadLimitVariable _ _ >>= _) = _
  obtain ⟨d, downloadRead, rest⟩ := bind_eq_ok.1 rest
  obtain ⟨u, uploadRead, ⟨⟩⟩ := bind_eq_ok.1 rest
  cases limit with
  | download =>
    have other : uploadLimitVariable ≠ downloadLimitVariable := by decide
    rw [RateLimit.variableName, override_of_ne other] at uploadRead ⊢
    rw [override_of_some, uploadRead]
    cases limitOverride downloadLimitVariable v <;> rfl
  | upload =>
    have other : downloadLimitVariable ≠ uploadLimitVariable := by decide
    rw [RateLimit.variableName, override_of_ne other] at downloadRead ⊢
    rw [override_of_some, downloadRead]
    cases limitOverride uploadLimitVariable v <;> rfl

/-- **Limits from the environment.** A text is accepted as the limit `n` iff it stands for `n` and
`n` is at most `2 ^ 64 - 1`; every other text is refused, and the error has the name of the variable
and the text as it came. The decimal text of a word is accepted as this word. Reading digit by digit
in a word, and stopping where it cannot hold the number, comes to the same. What the limit is read
from does not matter to the rest of the settings, nor the rest to it. -/
theorem limit_accepted_iff (v : String) :
    (∀ name n, (limitOverride name v).map UInt64.toNat = .ok n ↔
      StandsFor v n ∧ n ≤ 2 ^ 64 - 1) ∧
    (∀ name e, limitOverride name v = .error e ↔
      (¬ ∃ n, StandsFor v n ∧ n ≤ 2 ^ 64 - 1) ∧ e = .invalidOverride name v) ∧
    (∀ name (l : UInt64), limitOverride name (Decimal.render l.toNat) = .ok l) ∧
    (∀ name, limitOverride name v =
      match Decimal.parseWord? (trimChars v.toList) with
      | some l => .ok l
      | none => .error (.invalidOverride name v)) ∧
    ∀ (limit : RateLimit) (s g : EngineSettings) (lookup : String → Option String),
      s.applyOverrides (Function.update lookup limit.variableName none) = .ok g →
      s.applyOverrides (Function.update lookup limit.variableName (some v)) =
        (limitOverride limit.variableName v).map (limit.put g) :=
  ⟨fun _ _ => limitOverride_map_eq_ok, fun _ _ => limitOverride_eq_error,
    fun _ _ => limitOverride_reads.accepts.2 (givesLimit_iff.2 (standsFor_render _)),
    fun name => limitOverride_eq_parseWord? name v,
    fun limit _ _ _ => applyOverrides_update limit v⟩

theorem largest_limit_accepted :
    let lookup := fun name => if name = formatVariable then some "Json" else none
    let text := "\u2003+00018446744073709551615 "
    let given : EngineSettings := { logging := { format := .json } }
    StandsFor text 18446744073709551615 ∧
    applyOverrides {} (Function.update lookup uploadLimitVariable none) = .ok given ∧
    applyOverrides {} (Function.update lookup uploadLimitVariable (some text)) =
      .ok { given with uploadRateLimit := 18446744073709551615 } := by
  intro lookup text given
  have accepts := limit_accepted_iff text
  have read : limitOverride uploadLimitVariable text = .ok 18446744073709551615 := by decide
  have rest : applyOverrides {} (Function.update lookup uploadLimitVariable none) = .ok given := by
    decide
  have stands := (accepts.1 uploadLimitVariable 18446744073709551615).1 (by rw [read]; rfl)
  have whole := accepts.2.2.2.2 .upload {} given lookup rest
  exact ⟨stands.1, rest, whole.trans (by rw [RateLimit.variableName, read]; rfl)⟩

/-- One more than the largest limit is refused; it does not wrap. -/
example : limitOverride downloadLimitVariable "18446744073709551616" =
    .error (.invalidOverride downloadLimitVariable "18446744073709551616") := by decide

end EngineSettings

end TorrentHandle
