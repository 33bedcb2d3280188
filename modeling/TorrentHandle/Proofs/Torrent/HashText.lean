import Mathlib.Data.List.Basic
import TorrentHandle.Proofs.Text.Hex

/-!
The text of an info hash. Exactly the texts of forty hexadecimal digits stand for a hash, in either
case, and texts in lower case are ordered as the hashes that they stand for: the digits of a byte
order it, high digit first, and so do those of a row of bytes.
-/

namespace TorrentHandle

namespace Text.Hex

variable {c : Char} {m n : ℕ} {cs : List Char} {bytes : List UInt8}

/-! ### Digits of either case -/

/-- The hexadecimal digits of either case. -/
def digitChars : List Char :=
  ['0', '1', '2', '3', '4', '5', '6', '7', '8', '9', 'a', 'b', 'c', 'd', 'e', 'f',
    'A', 'B', 'C', 'D', 'E', 'F']

/-- A digit has a value below 16, which is written with the same digit in lower case. -/
lemma exists_value (digit : c ∈ digitChars) :
    ∃ n < 16, digitValue? c = some n ∧ lowerDigit n = c.toLower := by
  have each : digitChars.all fun c => (List.range 16).any fun n =>
      digitValue? c == some n && lowerDigit n == c.toLower := by decide
  obtain ⟨n, small, same⟩ := List.any_eq_true.1 (List.all_eq_true.1 each c digit)
  simp only [Bool.and_eq_true, beq_iff_eq] at same
  exact ⟨n, List.mem_range.1 small, same⟩

lemma mem_digitChars_of_value (value : digitValue? c = some n) : c ∈ digitChars := by
  have each : ∀ k ∈ List.range 128, (digitValue? (Char.ofNat k)).isSome →
      Char.ofNat k ∈ digitChars := by decide +kernel
  have small : c.toNat < 128 := by
    unfold digitValue? at value
    by_contra large
    simp only at value
    rw [if_neg (by omega), if_neg (by omega), if_neg (by omega)] at value
    cases value
  have digit := each c.toNat (List.mem_range.2 small)
  rw [Char.ofNat_toNat] at digit
  exact digit (by rw [value, Option.isSome_some])

lemma lowerDigit_of_value (value : digitValue? c = some n) : lowerDigit n = c.toLower ∧ n < 16 := by
  obtain ⟨n', small, value', lowered⟩ := exists_value (mem_digitChars_of_value value)
  rw [value] at value'
  cases value'
  exact ⟨lowered, small⟩

lemma lowerDigit_lt_iff (hm : m < 16) (hn : n < 16) : lowerDigit m < lowerDigit n ↔ m < n := by
  have each : ∀ m n : Fin 16, lowerDigit m < lowerDigit n ↔ m.val < n.val := by decide
  exact each ⟨m, hm⟩ ⟨n, hn⟩

lemma lowerDigit_inj (hm : m < 16) (hn : n < 16) : lowerDigit m = lowerDigit n ↔ m = n := by
  have each : ∀ m n : Fin 16, lowerDigit m = lowerDigit n ↔ m.val = n.val := by decide
  exact each ⟨m, hm⟩ ⟨n, hn⟩

/-! ### Rows of digits -/

lemma encode_cons (b : UInt8) (bytes : List UInt8) :
    encode (b :: bytes) = lowerDigit (b.toNat / 16) :: lowerDigit (b.toNat % 16) :: encode bytes :=
  rfl

theorem decode?_eq_some_iff : decode? cs = some bytes ↔
    (∀ c ∈ cs, c ∈ digitChars) ∧ encode bytes = cs.map Char.toLower := by
  constructor
  · intro read
    induction cs using decode?.induct generalizing bytes with
    | case1 =>
      cases read
      exact ⟨nofun, rfl⟩
    | case2 => cases read
    | case3 a b rest hi lo bytes' read' low high ih =>
      simp only [decode?, high, low, read'] at read
      cases read
      obtain ⟨digits, written⟩ := ih read'
      obtain ⟨first, hi_lt⟩ := lowerDigit_of_value high
      obtain ⟨second, lo_lt⟩ := lowerDigit_of_value low
      refine ⟨?_, ?_⟩
      · simp only [List.forall_mem_cons]
        exact ⟨mem_digitChars_of_value high, mem_digitChars_of_value low, digits⟩
      · have byte : (UInt8.ofNat (16 * hi + lo)).toNat = 16 * hi + lo := by
          rw [UInt8.toNat_ofNat']
          omega
        have upper : (16 * hi + lo) / 16 = hi := by omega
        have lower : (16 * hi + lo) % 16 = lo := by omega
        rw [encode_cons, byte, upper, lower, first, second, written]
        rfl
    | case4 => simp_all [decode?]
  · rintro ⟨digits, written⟩
    induction bytes generalizing cs with
    | nil =>
      obtain rfl := List.map_eq_nil_iff.1 written.symm
      rfl
    | cons byte bytes ih =>
      -- the two digits of the first byte, in either case, begin the text
      rw [encode_cons] at written
      obtain ⟨a, cs, rfl, first, written⟩ := List.map_eq_cons_iff.1 written.symm
      obtain ⟨b, cs, rfl, second, written⟩ := List.map_eq_cons_iff.1 written
      simp only [List.forall_mem_cons] at digits
      obtain ⟨digitA, digitB, digits⟩ := digits
      obtain ⟨hi, hi_lt, high, loweredA⟩ := exists_value digitA
      obtain ⟨lo, lo_lt, low, loweredB⟩ := exists_value digitB
      have below := byte.toNat_lt
      rw [← loweredA, lowerDigit_inj hi_lt (by omega)] at first
      rw [← loweredB, lowerDigit_inj lo_lt (by omega)] at second
      rw [decode?, high, low, ih digits written.symm, first, second]
      simp only [ofNat_digits]

lemma exists_decode? (even : cs.length = 2 * n) (digits : ∀ c ∈ cs, c ∈ digitChars) :
    ∃ bytes, decode? cs = some bytes ∧ bytes.length = n := by
  induction n generalizing cs with
  | zero =>
    obtain rfl := List.eq_nil_of_length_eq_zero even
    exact ⟨[], rfl, rfl⟩
  | succ n ih =>
    match cs, even with
    | a :: b :: cs, even =>
      simp only [List.forall_mem_cons] at digits
      obtain ⟨digitA, digitB, digits⟩ := digits
      obtain ⟨hi, -, high, -⟩ := exists_value digitA
      obtain ⟨lo, -, low, -⟩ := exists_value digitB
      obtain ⟨bytes, read, size⟩ := ih (by simp only [List.length_cons] at even; omega) digits
      refine ⟨UInt8.ofNat (16 * hi + lo) :: bytes, ?_, by rw [List.length_cons, size]⟩
      simp only [decode?, high, low, read]

/-! ### Order -/

theorem encode_lt_iff {as bs : List UInt8} :
    encode as < encode bs ↔ InfoHash.compareBytes as bs = .lt := by
  induction as generalizing bs with
  | nil =>
    cases bs with
    | nil => decide
    | cons b bs => exact ⟨fun _ => rfl, fun _ => List.nil_lt_cons ..⟩
  | cons a as ih =>
    cases bs with
    | nil => exact ⟨fun less => absurd less (List.not_lt_nil _), nofun⟩
    | cons b bs =>
      have belowA := a.toNat_lt
      have belowB := b.toNat_lt
      rw [encode_cons, encode_cons, List.cons_lt_cons_iff, List.cons_lt_cons_iff, ih,
        lowerDigit_lt_iff (by omega) (by omega), lowerDigit_lt_iff (by omega) (by omega),
        lowerDigit_inj (by omega) (by omega), lowerDigit_inj (by omega) (by omega),
        InfoHash.compareBytes, Ordering.then_eq_lt, Nat.compare_eq_lt, Nat.compare_eq_eq]
      by_cases rest : InfoHash.compareBytes as bs = .lt
      · simp only [rest, and_true]
        omega
      · simp only [rest, and_false, or_false]
        omega

end Text.Hex

namespace InfoHash

open Text

variable {hash : InfoHash} {t : String}

/-- Forty hexadecimal digits of either case. -/
def IsHashText (t : String) : Prop := t.length = 40 ∧ ∀ c ∈ t.toList, c ∈ Hex.digitChars

lemma compareBytes_eq_eq {as bs : List UInt8} : compareBytes as bs = .eq ↔ as = bs := by
  induction as generalizing bs with
  | nil => cases bs <;> simp [compareBytes]
  | cons a as ih =>
    cases bs with
    | nil => simp [compareBytes]
    | cons b bs =>
      rw [compareBytes, Ordering.then_eq_eq, Nat.compare_eq_eq, ih, List.cons.injEq,
        UInt8.toNat_inj]

lemma order_eq_eq {a b : InfoHash} : order a b = .eq ↔ a = b := by
  rw [order, compareBytes_eq_eq, Vector.toList_inj]
  cases a
  cases b
  simp

lemma parse_eq_ok : parse t = .ok hash ↔ ofHex? t = some hash := by
  unfold parse
  split <;> simp_all

lemma ofBytes?_eq_some {bytes : List UInt8} :
    ofBytes? bytes = some hash ↔ bytes = hash.bytes.toList := by
  obtain ⟨⟨data, size⟩⟩ := hash
  unfold ofBytes?
  split
  · simp only [Option.some.injEq, mk.injEq, Vector.mk.injEq, Vector.toList_mk]
    exact ⟨fun same => by rw [← same], fun same => by rw [same]⟩
  · rename_i other
    refine ⟨nofun, fun same => absurd ?_ other⟩
    rw [same, Vector.toList_mk, Array.length_toList, size]

lemma ofHex?_eq_some : ofHex? t = some hash ↔ IsHashText t ∧ hash.toHex = t.toLower := by
  have written : hash.toHex = t.toLower ↔
      Hex.encode hash.bytes.toList = t.toList.map Char.toLower := by
    have lowered : t.toLower.toList = t.toList.map Char.toLower := String.toList_map
    rw [toHex, ← String.toList_inj, String.toList_ofList, lowered]
  have read : ofHex? t = some hash ↔ Hex.decode? t.toList = some hash.bytes.toList := by
    simp only [ofHex?, Option.bind_eq_some_iff, ofBytes?_eq_some, exists_eq_right]
  rw [read, written, Hex.decode?_eq_some_iff, IsHashText]
  constructor
  · rintro ⟨digits, same⟩
    have size := congrArg List.length same
    rw [Hex.length_encode, Vector.length_toList, List.length_map, String.length_toList] at size
    exact ⟨⟨size.symm, digits⟩, same⟩
  · rintro ⟨⟨-, digits⟩, same⟩
    exact ⟨digits, same⟩

lemma exists_ofHex? (text : IsHashText t) : ∃ hash, ofHex? t = some hash := by
  obtain ⟨size, digits⟩ := text
  obtain ⟨bytes, read, count⟩ := Hex.exists_decode? (n := 20) size digits
  refine ⟨⟨⟨bytes.toArray, count⟩⟩, ?_⟩
  rw [ofHex?, read, Option.bind_some, ofBytes?_eq_some, Vector.toList_mk]

lemma order_eq_lt {a b : InfoHash} : order a b = .lt ↔ a.toHex < b.toHex := by
  rw [String.lt_iff, toHex, toHex, String.toList_ofList, String.toList_ofList,
    Hex.encode_lt_iff, order]

lemma order_eq_compare (a b : InfoHash) : order a b = compareOfLessAndEq a.toHex b.toHex := by
  have less : order a b = .lt ↔ a.toHex < b.toHex := order_eq_lt
  have same : order a b = .eq ↔ a.toHex = b.toHex := order_eq_eq.trans toHex_injective.eq_iff.symm
  unfold compareOfLessAndEq
  split
  · exact less.2 ‹_›
  · split
    · exact same.2 ‹_›
    · cases which : order a b with
      | lt => exact absurd (less.1 which) ‹_›
      | eq => exact absurd (same.1 which) ‹_›
      | gt => rfl

/-- **What the text of a hash says.** Exactly the texts of forty hexadecimal digits are read, each as
the hash that is written as the text in lower case; another text is kept in the error. A hash is
read back from what is written for it, and hashes are ordered as what is written for them. -/
theorem hash_text_tells_hash :
    (∀ t, (∃ hash, parse t = .ok hash) ↔ IsHashText t) ∧
    (∀ t, parse t = .error ⟨t⟩ ↔ ¬ IsHashText t) ∧
    (∀ t hash, parse t = .ok hash ↔ IsHashText t ∧ hash.toHex = t.toLower) ∧
    (∀ hash, parse hash.toHex = .ok hash) ∧
    ∀ a b : InfoHash, order a b = compareOfLessAndEq a.toHex b.toHex ∧
      (order a b = .eq ↔ a = b) := by
  have read : ∀ t, (∃ hash, parse t = .ok hash) ↔ IsHashText t := by
    intro t
    constructor
    · rintro ⟨hash, read⟩
      exact (ofHex?_eq_some.1 (parse_eq_ok.1 read)).1
    · intro text
      obtain ⟨hash, read⟩ := exists_ofHex? text
      exact ⟨hash, parse_eq_ok.2 read⟩
  refine ⟨read, ?_, fun t hash => parse_eq_ok.trans ofHex?_eq_some,
    fun hash => parse_eq_ok.2 ofHex?_toHex, fun a b => ⟨order_eq_compare a b, order_eq_eq⟩⟩
  intro t
  rw [← read t]
  unfold parse
  split
  · exact ⟨nofun, fun none => absurd ⟨_, rfl⟩ none⟩
  · exact ⟨fun _ => by rintro ⟨hash, ⟨⟩⟩, fun _ => rfl⟩

end InfoHash

end TorrentHandle
