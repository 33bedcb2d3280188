import TorrentHandle.Proofs.Stages
import TorrentHandle.Proofs.Torrent.Geometry

/-!
Arithmetic in words of 64 bits. An operation answers the word of its exact result, and is a fault
where there is none: below zero, beyond the largest word, or for want of a divisor. Where it may be
capped, a cap can stand in for what is no word.
-/

namespace TorrentHandle

/-! ### Rounding up -/

lemma ceilDiv_le {a b : ℕ} (positive : 0 < b) : a ⌈/⌉ b ≤ a :=
  (ceilDiv_le_iff_le_mul positive).2 (Nat.le_mul_of_pos_left a positive)

lemma ceilDiv_eq_ite {a b : ℕ} (positive : 0 < b) :
    a ⌈/⌉ b = if 0 < a % b then a / b + 1 else a / b := by
  have whole := Nat.div_add_mod' a b
  have rest := Nat.mod_lt a positive
  rw [Nat.ceilDiv_eq_add_pred_div]
  split
  · rw [Nat.div_eq_iff positive, Nat.succ_mul]
    omega
  · rw [Nat.div_eq_iff positive]
    omega

namespace Word

/-! ### Operations -/

/-- Why an operation has no result. -/
inductive Fault where
  | underflow
  | overflow
  | zeroDivisor
  deriving DecidableEq

/-- The word of an exact result. -/
def ofInt (n : ℤ) : Except Fault UInt64 :=
  if n < 0 then .error .underflow
  else if maxSize < n then .error .overflow
  else .ok (.ofNat n.toNat)

def add (a b : UInt64) : Except Fault UInt64 := ofInt (a.toNat + b.toNat)

def sub (a b : UInt64) : Except Fault UInt64 := ofInt (a.toNat - b.toNat)

def mul (a b : UInt64) : Except Fault UInt64 := ofInt (a.toNat * b.toNat)

def div (a b : UInt64) : Except Fault UInt64 :=
  if b = 0 then .error .zeroDivisor else ofInt (a.toNat / b.toNat)

/-- What a division leaves. -/
def rem (a b : UInt64) : Except Fault UInt64 :=
  if b = 0 then .error .zeroDivisor else ofInt (a.toNat % b.toNat)

/-- Quotient rounded up. -/
def divCeil (a b : UInt64) : Except Fault UInt64 := do
  let quotient ← div a b
  let rest ← rem a b
  if 0 < rest then add quotient 1 else return quotient

/-- The half word of a word that is small enough. -/
def half? (w : UInt64) : Option UInt32 :=
  if w.toNat ≤ maxIndex then some w.toUInt32 else none

/-- What becomes of a result that is no word, where it may be capped. -/
inductive Excess where
  | capped
  | refused
  deriving DecidableEq

/-- A result, or the cap that stands in for it. -/
def Excess.settle (excess : Excess) (cap : UInt64) (result : Except Fault UInt64) :
    Except Fault UInt64 :=
  match excess, result with
  | .capped, .error _ => .ok cap
  | _, result => result

/-! ### What the operations answer -/

variable {α β : Type} {a b w : UInt64} {n : ℕ}

lemma toNat_pos (some : w ≠ 0) : 0 < w.toNat := UInt64.pos_iff_ne_zero.2 some

lemma toNat_ofNat_of_le (small : n ≤ w.toNat) : (UInt64.ofNat n).toNat = n :=
  toNat_ofNat_size (small.trans (toNat_le_maxSize w))

lemma ofInt_natCast (fits : n ≤ maxSize) : ofInt n = .ok (.ofNat n) := by
  unfold ofInt
  rw [if_neg (by omega), if_neg (by omega), Int.toNat_natCast]

lemma add_of_le (fits : a.toNat + b.toNat ≤ maxSize) :
    add a b = .ok (.ofNat (a.toNat + b.toNat)) :=
  ofInt_natCast fits

lemma add_of_lt (past : maxSize < a.toNat + b.toNat) : add a b = .error .overflow := by
  unfold add ofInt
  rw [if_neg (by omega), if_pos (by omega)]

lemma sub_of_le (order : b.toNat ≤ a.toNat) : sub a b = .ok (.ofNat (a.toNat - b.toNat)) := by
  have fits := (Nat.sub_le a.toNat b.toNat).trans (toNat_le_maxSize a)
  rw [sub, ← Int.natCast_sub order, ofInt_natCast fits]

lemma sub_of_lt (under : a.toNat < b.toNat) : sub a b = .error .underflow := by
  unfold sub ofInt
  rw [if_pos (by omega)]

lemma mul_of_le (fits : a.toNat * b.toNat ≤ maxSize) :
    mul a b = .ok (.ofNat (a.toNat * b.toNat)) := by
  rw [mul, ← Int.natCast_mul, ofInt_natCast fits]

lemma div_of_ne (divisor : b ≠ 0) : div a b = .ok (.ofNat (a.toNat / b.toNat)) := by
  have fits := (Nat.div_le_self a.toNat b.toNat).trans (toNat_le_maxSize a)
  rw [div, if_neg divisor, ← Int.natCast_div, ofInt_natCast fits]

lemma rem_of_ne (divisor : b ≠ 0) : rem a b = .ok (.ofNat (a.toNat % b.toNat)) := by
  have fits := (Nat.mod_le a.toNat b.toNat).trans (toNat_le_maxSize a)
  rw [rem, if_neg divisor, ← Int.natCast_mod, ofInt_natCast fits]

/-- Rounding up stays in the words: where something is left, the quotient is smaller than what is
divided. -/
lemma divCeil_of_ne (divisor : b ≠ 0) :
    divCeil a b = .ok (.ofNat (a.toNat ⌈/⌉ b.toNat)) := by
  have positive := toNat_pos divisor
  have rest : 0 < UInt64.ofNat (a.toNat % b.toNat) ↔ 0 < a.toNat % b.toNat := by
    rw [UInt64.lt_iff_toNat_lt, toNat_ofNat_of_le (Nat.mod_le _ _), UInt64.toNat_zero]
  rw [divCeil, div_of_ne divisor, rem_of_ne divisor, ok_bind, ok_bind, ceilDiv_eq_ite positive]
  simp only [rest]
  split
  · rename_i some
    have quotient := toNat_ofNat_of_le (Nat.div_le_self a.toNat b.toNat)
    have next := (ceilDiv_le positive).trans (toNat_le_maxSize a)
    rw [ceilDiv_eq_ite positive, if_pos some] at next
    rw [add_of_le (by rwa [quotient]), quotient]
    rfl
  · rfl

lemma map_halves (first last : UInt64) :
    ((half? first).bind fun i => (half? last).map fun j => (i, j)).map
      (Prod.map UInt32.toNat UInt32.toNat) =
    if first.toNat ≤ maxIndex ∧ last.toNat ≤ maxIndex then some (first.toNat, last.toNat)
      else none := by
  have narrow {w : UInt64} (small : w.toNat ≤ maxIndex) : w.toUInt32.toNat = w.toNat := by
    rw [UInt64.toNat_toUInt32]
    exact Nat.mod_eq_of_lt (Nat.lt_succ_of_le small)
  by_cases low : first.toNat ≤ maxIndex <;> by_cases high : last.toNat ≤ maxIndex <;>
    simp [half?, low, high, narrow]

/-! ### Caps -/

lemma settle_ok (excess : Excess) (cap : UInt64) : excess.settle cap (.ok w) = .ok w := by
  cases excess <;> rfl

lemma settle_refused (cap : UInt64) (result : Except Fault UInt64) :
    Excess.refused.settle cap result = result := rfl

lemma settle_sub : Excess.capped.settle 0 (sub a b) = .ok (.ofNat (a.toNat - b.toNat)) := by
  rcases Nat.lt_or_ge a.toNat b.toNat with under | order
  · rw [sub_of_lt under, Nat.sub_eq_zero_of_le under.le]
    rfl
  · rw [sub_of_le order, settle_ok]

lemma settle_add : Excess.capped.settle (.ofNat maxSize) (add a b) =
    .ok (.ofNat (min (a.toNat + b.toNat) maxSize)) := by
  rcases Nat.lt_or_ge maxSize (a.toNat + b.toNat) with past | fits
  · rw [add_of_lt past, Nat.min_eq_right past.le]
    rfl
  · rw [add_of_le fits, settle_ok, Nat.min_eq_left fits]

end Word

end TorrentHandle
