import Mathlib.Data.Nat.Notation
import Mathlib.Logic.Function.Basic
import TorrentHandle.Torrent.InfoHash

/-!
Hexadecimal digits: what is written is read back, so the digits of a hash tell the hash.
-/

namespace TorrentHandle

namespace Text.Hex

variable {n : ℕ}

/-! ### Digits -/

lemma digitValue?_lowerDigit (small : n < 16) : digitValue? (lowerDigit n) = some n := by
  have all : ∀ n : Fin 16, digitValue? (lowerDigit n) = some n.val := by decide
  exact all ⟨n, small⟩

lemma digitValue?_upperDigit (small : n < 16) : digitValue? (upperDigit n) = some n := by
  have all : ∀ n : Fin 16, digitValue? (upperDigit n) = some n.val := by decide
  exact all ⟨n, small⟩

lemma ofNat_digits (b : UInt8) : UInt8.ofNat (16 * (b.toNat / 16) + b.toNat % 16) = b := by
  rw [Nat.div_add_mod, UInt8.ofNat_toNat]

/-! ### Bytes -/

@[simp] lemma length_encode (bytes : List UInt8) : (encode bytes).length = 2 * bytes.length := by
  induction bytes with
  | nil => rfl
  | cons b bytes ih =>
    rw [encode, List.flatMap_cons, ← encode, List.length_append, ih, List.length_cons]
    simp only [List.length_cons, List.length_nil]
    omega

lemma mem_encode {c : Char} {bytes : List UInt8} (inside : c ∈ encode bytes) :
    (digitValue? c).isSome := by
  obtain ⟨b, -, inside⟩ := List.mem_flatMap.1 inside
  have high : b.toNat / 16 < 16 := by have := b.toNat_lt; omega
  have low : b.toNat % 16 < 16 := by omega
  simp only [List.mem_cons, List.not_mem_nil, or_false] at inside
  obtain rfl | rfl := inside
  · rw [digitValue?_lowerDigit high, Option.isSome_some]
  · rw [digitValue?_lowerDigit low, Option.isSome_some]

@[simp] theorem decode?_encode (bytes : List UInt8) : decode? (encode bytes) = some bytes := by
  induction bytes with
  | nil => rfl
  | cons b bytes ih =>
    have high : b.toNat / 16 < 16 := by have := b.toNat_lt; omega
    have low : b.toNat % 16 < 16 := by omega
    rw [encode, List.flatMap_cons, ← encode, List.cons_append, List.cons_append, List.nil_append,
      decode?, digitValue?_lowerDigit high, digitValue?_lowerDigit low, ih]
    simp only [ofNat_digits]

end Text.Hex

namespace InfoHash

open Text

variable {hash : InfoHash}

lemma mem_toHex {c : Char} (inside : c ∈ hash.toHex.toList) : (Hex.digitValue? c).isSome := by
  rw [toHex, String.toList_ofList] at inside
  exact Hex.mem_encode inside

@[simp] lemma length_toHex : hash.toHex.length = 40 := by
  rw [toHex, String.length_ofList, Hex.length_encode, Vector.length_toList]

@[simp] theorem ofHex?_toHex : ofHex? hash.toHex = some hash := by
  obtain ⟨bytes, size⟩ := hash
  simp [ofHex?, toHex, ofBytes?, size]

lemma toHex_injective : Function.Injective toHex := by
  intro hash hash' same
  have read : ofHex? hash.toHex = some hash := ofHex?_toHex
  rw [same, ofHex?_toHex] at read
  exact (Option.some.inj read).symm

end InfoHash

end TorrentHandle
