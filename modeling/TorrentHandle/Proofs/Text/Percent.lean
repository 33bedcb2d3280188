import TorrentHandle.Proofs.Text.Hex
import TorrentHandle.Text.Percent

/-!
Percent encoding loses nothing, and no encoded text has a separator in it.
-/

namespace TorrentHandle.Text.Percent

variable {c : Char} {cs : List Char}

/-! ### Characters of an encoded text -/

lemma isUnreserved_upperDigit {n : ℕ} (small : n < 16) : isUnreserved (Hex.upperDigit n) := by
  have all : ∀ n : Fin 16, isUnreserved (Hex.upperDigit n) := by decide
  exact all ⟨n, small⟩

lemma mem_encodeByte {b : UInt8} (inside : c ∈ encodeByte b) : isUnreserved c ∨ c = '%' := by
  have below := b.toNat_lt
  simp only [encodeByte, List.mem_cons, List.not_mem_nil, or_false] at inside
  obtain rfl | rfl | rfl := inside
  · exact .inr rfl
  · exact .inl (isUnreserved_upperDigit (by omega))
  · exact .inl (isUnreserved_upperDigit (by omega))

lemma mem_encode {s : String} (inside : c ∈ encode s) : isUnreserved c ∨ c = '%' := by
  obtain ⟨c', -, inside⟩ := List.mem_flatMap.1 inside
  unfold encodeChar at inside
  split at inside
  · rename_i unreserved
    obtain rfl := List.mem_singleton.1 inside
    exact .inl unreserved
  · obtain ⟨b, -, inside⟩ := List.mem_flatMap.1 inside
    exact mem_encodeByte inside

/-! ### Decoding -/

lemma decodeBytes_encodeByte (b : UInt8) :
    decodeBytes (encodeByte b ++ cs) = b :: decodeBytes cs := by
  have high : b.toNat / 16 < 16 := by have := b.toNat_lt; omega
  have low : b.toNat % 16 < 16 := by omega
  simp only [encodeByte, List.cons_append, List.nil_append, decodeBytes,
    Hex.digitValue?_upperDigit high, Hex.digitValue?_upperDigit low, Hex.ofNat_digits]

lemma decodeBytes_encodeBytes (bytes : List UInt8) :
    decodeBytes (bytes.flatMap encodeByte ++ cs) = bytes ++ decodeBytes cs := by
  induction bytes with
  | nil => rfl
  | cons b bytes ih =>
    rw [List.flatMap_cons, List.append_assoc, decodeBytes_encodeByte, ih, List.cons_append]

lemma decodeBytes_of_ne (plain : c ≠ '%') :
    decodeBytes (c :: cs) = String.utf8EncodeChar c ++ decodeBytes cs := by
  rw [decodeBytes.eq_def]
  split
  · rename_i eq
    cases eq
  · rename_i eq
    cases eq
    exact absurd rfl plain
  · rename_i eq
    cases eq
    rfl

lemma decodeBytes_encodeChar (c : Char) :
    decodeBytes (encodeChar c ++ cs) = String.utf8EncodeChar c ++ decodeBytes cs := by
  unfold encodeChar
  split
  · rename_i unreserved
    refine decodeBytes_of_ne ?_
    rintro rfl
    exact absurd unreserved (by decide)
  · exact decodeBytes_encodeBytes _

lemma decodeBytes_encode (s : String) :
    decodeBytes (encode s) = s.toList.flatMap String.utf8EncodeChar := by
  unfold encode
  induction s.toList with
  | nil => rfl
  | cons c cs ih => rw [List.flatMap_cons, decodeBytes_encodeChar, ih, List.flatMap_cons]

lemma fromUTF8?_utf8Encode (s : String) :
    String.fromUTF8? ⟨(s.toList.flatMap String.utf8EncodeChar).toArray⟩ = some s := by
  have bytes : ⟨(s.toList.flatMap String.utf8EncodeChar).toArray⟩ = s.toByteArray := by
    rw [← String.utf8Encode_toList]
    exact (ByteArray.ext List.data_toByteArray).symm
  rw [bytes, String.fromUTF8?, dif_pos s.isValidUTF8]
  rfl

@[simp] theorem decode?_encode (s : String) : decode? (encode s) = some s := by
  rw [decode?, decodeBytes_encode, fromUTF8?_utf8Encode]

lemma decodeBytes_of_plain (plain : '%' ∉ cs) :
    decodeBytes cs = cs.flatMap String.utf8EncodeChar := by
  induction cs with
  | nil => rfl
  | cons c cs ih =>
    rw [List.mem_cons, not_or] at plain
    rw [decodeBytes_of_ne (Ne.symm plain.1), ih plain.2, List.flatMap_cons]

lemma decode?_of_plain {s : String} (plain : '%' ∉ s.toList) : decode? s.toList = some s := by
  rw [decode?, decodeBytes_of_plain plain, fromUTF8?_utf8Encode]

end TorrentHandle.Text.Percent
