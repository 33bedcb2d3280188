import TorrentHandle.Proofs.Text.Ranges
import TorrentHandle.Text.Hex
import TorrentHandle.Text.Quoted

/-!
Texts in quotes for a log line. Only characters that are shown stand in them, so a text never leaves
its line, and it can be read back: a quote that is not escaped ends it.
-/

namespace TorrentHandle.Text.Quoted

variable {c d : Char} {s s' : String} {cs cs' rest rest' : List Char} {n : ℕ}

/-! ### Digits of a code point -/

def hexValue (ds : List Char) : ℕ := ds.foldl (fun n d => 16 * n + (Hex.digitValue? d).getD 0) 0

lemma hexDigit_cases {P : Char → Prop} (each : ∀ d : Fin 16, P (Nat.digitChar d))
    (inside : c ∈ Nat.toDigits 16 n) : P c := by
  induction n using Nat.strongRecOn with
  | ind n ih =>
    obtain small | large := Nat.lt_or_ge n 16
    · rw [Nat.toDigits_of_lt_base small, List.mem_singleton] at inside
      rw [inside]
      exact each ⟨n, small⟩
    · rw [Nat.toDigits_of_base_le (by decide) large, List.mem_append, List.mem_singleton] at inside
      obtain inside | rfl := inside
      · exact ih (n / 16) (by omega) inside
      · exact each ⟨n % 16, Nat.mod_lt _ (by decide)⟩

lemma hexValue_toDigits (n : ℕ) : hexValue (Nat.toDigits 16 n) = n := by
  have digit : ∀ d : Fin 16, (Hex.digitValue? (Nat.digitChar d)).getD 0 = d := by decide
  induction n using Nat.strongRecOn with
  | ind n ih =>
    obtain small | large := Nat.lt_or_ge n 16
    · have only := digit ⟨n, small⟩
      simp only [Nat.toDigits_of_lt_base small, hexValue, List.foldl_cons, List.foldl_nil, only,
        Nat.mul_zero, Nat.zero_add]
    · rw [Nat.toDigits_of_base_le (by decide) large, hexValue, List.foldl_append, ← hexValue,
        ih (n / 16) (by omega)]
      have last := digit ⟨n % 16, Nat.mod_lt _ (by decide)⟩
      simp only [List.foldl_cons, List.foldl_nil, last]
      omega

/-! ### Reading back -/

/-- The character that an escape stands for, with what follows it. -/
def readEscape : List Char → Option (Char × List Char)
  | 'u' :: '\x7b' :: rest =>
    some (.ofNat (hexValue (rest.takeWhile (· != '\x7d'))), (rest.dropWhile (· != '\x7d')).tail)
  | '0' :: rest => some ('\x00', rest)
  | 't' :: rest => some ('\t', rest)
  | 'n' :: rest => some ('\n', rest)
  | 'r' :: rest => some ('\r', rest)
  | c :: rest => some (c, rest)
  | [] => none

/-- The first character inside of quotes, with what follows it. -/
def readChar : List Char → Option (Char × List Char)
  | [] => none
  | c :: rest =>
    if c = '"' then none
    else if c = '\\' then readEscape rest
    else some (c, rest)

lemma readEscape_codeEscape (c : Char) (rest : List Char) :
    readChar (codeEscape c ++ rest) = some (c, rest) := by
  have digits : ∀ d ∈ Nat.toDigits 16 c.toNat, (d != '\x7d') = true := fun d inside =>
    hexDigit_cases (P := fun d => (d != '\x7d') = true) (by decide) inside
  simp only [codeEscape, List.append_assoc, List.cons_append, List.nil_append]
  change some (Char.ofNat (hexValue (List.takeWhile _ _)), (List.dropWhile _ _).tail) = _
  rw [List.takeWhile_append_of_pos digits, List.dropWhile_append_of_pos digits,
    List.takeWhile_cons_of_neg (by decide), List.dropWhile_cons_of_neg (by decide),
    List.append_nil, hexValue_toDigits, Char.ofNat_toNat]
  rfl

lemma readChar_encodeChar (c : Char) (rest : List Char) :
    readChar (encodeChar c ++ rest) = some (c, rest) := by
  unfold encodeChar
  split_ifs with quote backslash line back tab null hidden
  · rw [quote]; rfl
  · rw [backslash]; rfl
  · rw [line]; rfl
  · rw [back]; rfl
  · rw [tab]; rfl
  · rw [null]; rfl
  · exact readEscape_codeEscape c rest
  · rw [List.singleton_append, readChar, if_neg quote, if_neg backslash]

/-- The first quote that is not escaped ends the text. -/
lemma flatMap_encodeChar_inj
    (same : cs.flatMap encodeChar ++ '"' :: rest = cs'.flatMap encodeChar ++ '"' :: rest') :
    cs = cs' ∧ rest = rest' := by
  induction cs generalizing cs' with
  | nil =>
    cases cs' with
    | nil => exact ⟨rfl, (List.cons_inj_right _).1 same⟩
    | cons c' cs' =>
      have read := congrArg readChar same
      rw [List.flatMap_cons, List.append_assoc, readChar_encodeChar] at read
      cases read
  | cons c cs ih =>
    have read := congrArg readChar same
    rw [List.flatMap_cons, List.append_assoc, readChar_encodeChar] at read
    cases cs' with
    | nil => cases read
    | cons c' cs' =>
      rw [List.flatMap_cons, List.append_assoc, readChar_encodeChar] at read
      simp only [Option.some.injEq, Prod.mk.injEq] at read
      obtain ⟨rfl, read⟩ := read
      obtain ⟨rfl, rfl⟩ := ih read
      exact ⟨rfl, rfl⟩

/-- **A text in quotes tells the text, and where it ends.** -/
theorem encode_append_inj {t t' : String} :
    encode s ++ t = encode s' ++ t' ↔ s = s' ∧ t = t' := by
  constructor
  · intro same
    have same := congrArg String.toList same
    simp only [encode, String.toList_append, String.toList_ofList, List.cons_append,
      List.append_assoc, List.nil_append, List.cons.injEq, true_and] at same
    obtain ⟨text, rest⟩ := flatMap_encodeChar_inj same
    exact ⟨String.toList_injective text, String.toList_injective rest⟩
  · rintro ⟨rfl, rfl⟩
    rfl

/-! ### What is shown -/

/-- What stands for a character is the character itself, or of ASCII. -/
lemma of_mem_encodeChar (inside : d ∈ encodeChar c) :
    isUnprintable d = false ∨ 0x20 ≤ d.toNat ∧ d.toNat < 0x7f := by
  have short : ∀ letter ∈ ['"', '\\', 'n', 'r', 't', '0'], ∀ d ∈ ['\\', letter],
      0x20 ≤ d.toNat ∧ d.toNat < 0x7f := by simp
  unfold encodeChar at inside
  split_ifs at inside with quote backslash line back tab null hidden
  · exact .inr (short '"' (by simp) d inside)
  · exact .inr (short '\\' (by simp) d inside)
  · exact .inr (short 'n' (by simp) d inside)
  · exact .inr (short 'r' (by simp) d inside)
  · exact .inr (short 't' (by simp) d inside)
  · exact .inr (short '0' (by simp) d inside)
  · right
    rw [codeEscape, List.mem_append, List.mem_append] at inside
    obtain (inside | inside) | inside := inside
    · exact (by simp : ∀ d ∈ ['\\', 'u', '\x7b'], 0x20 ≤ d.toNat ∧ d.toNat < 0x7f) d inside
    · exact hexDigit_cases (P := fun d => 0x20 ≤ d.toNat ∧ d.toNat < 0x7f) (by decide) inside
    · exact (by simp : ∀ d ∈ ['\x7d'], 0x20 ≤ d.toNat ∧ d.toNat < 0x7f) d inside
  · rw [List.mem_singleton] at inside
    left
    rw [inside, Bool.eq_false_iff]
    exact hidden

theorem printable_encode (inside : d ∈ (encode s).toList) : isUnprintable d = false := by
  rw [encode, String.toList_ofList, List.mem_append, List.mem_cons, List.mem_flatMap,
    List.mem_singleton] at inside
  obtain (rfl | ⟨c, -, inside⟩) | rfl := inside
  · exact printable_of_ascii (by decide) (by decide)
  · obtain shown | ⟨low, high⟩ := of_mem_encodeChar inside
    · exact shown
    · exact printable_of_ascii low high
  · exact printable_of_ascii (by decide) (by decide)

end TorrentHandle.Text.Quoted
