import Mathlib.Data.List.Basic
import Mathlib.Tactic.Lemma

/-!
Stages that may fail, one after another. All of them give a value together if each does, with what
the one before gave; and of several faults the first is told.
-/

namespace TorrentHandle

variable {α β ε : Type} {x : Except ε α} {f : α → β} {k : α → Except ε β} {b : β} {e : ε}

lemma map_eq_ok : x.map f = .ok b ↔ ∃ a, x = .ok a ∧ f a = b := by
  cases x <;> simp [Except.map]

lemma bind_eq_ok : (x >>= k) = .ok b ↔ ∃ a, x = .ok a ∧ k a = .ok b := by
  cases x with
  | error e => exact ⟨nofun, nofun⟩
  | ok a =>
    constructor
    · exact fun done => ⟨a, rfl, done⟩
    · rintro ⟨_, ⟨⟩, done⟩
      exact done

lemma ok_bind (a : α) (k : α → Except ε β) : (Except.ok a >>= k) = k a := rfl

/-- The first kind of fault that there is, in the order of a list. -/
def FirstOf : List (ε → Prop) → ε → Prop
  | [], _ => False
  | fault :: later, e => fault e ∨ (∀ e', ¬ fault e') ∧ FirstOf later e

variable {fault : ε → Prop} {faults later : List (ε → Prop)}

lemma firstOf_singleton : FirstOf [fault] e ↔ fault e := by simp [FirstOf]

lemma firstOf_append : FirstOf (faults ++ later) e ↔
    FirstOf faults e ∨ (∀ e', ¬ FirstOf faults e') ∧ FirstOf later e := by
  induction faults with
  | nil => simp [FirstOf]
  | cons fault faults ih =>
    rw [List.cons_append, FirstOf, FirstOf, ih]
    constructor
    · rintro (now | ⟨none, now | ⟨none', told⟩⟩)
      · exact .inl (.inl now)
      · exact .inl (.inr ⟨none, now⟩)
      · refine .inr ⟨?_, told⟩
        rintro e' (now | ⟨-, now⟩)
        · exact none e' now
        · exact none' e' now
    · rintro ((now | ⟨none, now⟩) | ⟨none, told⟩)
      · exact .inl now
      · exact .inr ⟨none, .inl now⟩
      · have none' : ∀ e', ¬ fault e' := fun e' now => none e' (.inl now)
        exact .inr ⟨none', .inr ⟨fun e' now => none e' (.inr ⟨none', now⟩), told⟩⟩

/-- A stage tells its own faults, and without one the later stages tell theirs. -/
lemma bind_eq_error (now : ∀ e, x = .error e ↔ FirstOf faults e)
    (next : ∀ a, x = .ok a → (k a = .error e ↔ FirstOf later e)) :
    (x >>= k) = .error e ↔ FirstOf (faults ++ later) e := by
  rw [firstOf_append, ← now e]
  cases x with
  | error e' =>
    constructor
    · rintro ⟨⟩
      exact .inl rfl
    · rintro (⟨⟨⟩⟩ | ⟨none, -⟩)
      · rfl
      · exact absurd ((now e').1 rfl) (none e')
  | ok a =>
    have none : ∀ e', ¬ FirstOf faults e' := fun e' told => nomatch (now e').2 told
    constructor
    · exact fun told => .inr ⟨none, (next a rfl).1 told⟩
    · rintro (told | ⟨-, told⟩)
      · cases told
      · exact (next a rfl).2 told

end TorrentHandle
