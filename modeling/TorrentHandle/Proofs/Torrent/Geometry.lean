import Mathlib.Algebra.BigOperators.Group.List.Basic
import Mathlib.Algebra.Order.Floor.Div
import Mathlib.Order.Interval.Finset.Nat
import TorrentHandle.Torrent.Metadata

/-!
The geometry of metadata. Of any metadata can be said which pieces a file has. In consistent metadata
files and pieces are two ways to cut one payload: the files lie end to end from its first byte to its
last, and the pieces are those that begin inside it. From this follow the sizes of pieces, the pieces
of a file, and that no offset computed on the way leaves the 64 bits that sizes have.
-/

namespace TorrentHandle

/-! ### Numbers -/

lemma toNat_ofNat_size {n : ℕ} (fits : n ≤ maxSize) : (UInt64.ofNat n).toNat = n := by
  unfold maxSize at fits
  exact UInt64.toNat_ofNat_of_lt' (by rw [UInt64.size]; omega)

lemma toNat_ofNat_index {n : ℕ} (fits : n ≤ maxIndex) : (UInt32.ofNat n).toNat = n := by
  unfold maxIndex at fits
  exact UInt32.toNat_ofNat_of_lt' (by rw [UInt32.size]; omega)

lemma toNat_le_maxSize (size : UInt64) : size.toNat ≤ maxSize :=
  Nat.le_of_lt_succ size.toNat_lt

lemma toNat_le_maxIndex (index : UInt32) : index.toNat ≤ maxIndex :=
  Nat.le_of_lt_succ index.toNat_lt

lemma lt_ceilDiv_iff {a b k : ℕ} (positive : 0 < b) : k < a ⌈/⌉ b ↔ k * b < a := by
  rw [lt_iff_lt_of_le_iff_le (ceilDiv_le_iff_le_mul positive), Nat.mul_comm]

def FileEntry.stop (f : FileEntry) : ℕ := f.offset.toNat + f.size.toNat

namespace Metadata

variable {m : Metadata} {f : FileEntry} {files : List FileEntry} {index offset stop piece : ℕ}

/-- The piece that holds a byte of the payload. -/
def pieceOf (m : Metadata) (byte : ℕ) : ℕ := byte / m.pieceLength.toNat

/-! ### Files end to end -/

lemma filesEnd?_cons : filesEnd? index offset (f :: files) = some stop ↔
    (f.index.toNat = index ∧ f.offset.toNat = offset ∧ f.stop ≤ maxSize) ∧
      filesEnd? (index + 1) f.stop files = some stop := by
  unfold FileEntry.stop
  rw [filesEnd?]
  split
  · rename_i placed
    obtain ⟨rfl, rfl, fits⟩ := placed
    simp [fits]
  · rename_i displaced
    constructor
    · nofun
    · rintro ⟨⟨here, start, fits⟩, -⟩
      exact absurd ⟨here, start, start ▸ fits⟩ displaced

lemma le_filesEnd (laid : filesEnd? index offset files = some stop) : offset ≤ stop := by
  induction files generalizing index offset with
  | nil => exact (Option.some.inj laid).le
  | cons f files ih =>
    obtain ⟨⟨-, start, -⟩, rest⟩ := filesEnd?_cons.1 laid
    have beyond := ih rest
    have within : f.offset.toNat ≤ f.stop := Nat.le_add_right _ _
    omega

/-- Each file has its place in the list as its index, and lies within what the files fill. -/
lemma getElem?_of_filesEnd (laid : filesEnd? index offset files = some stop) {i : ℕ}
    (there : files[i]? = some f) :
    f.index.toNat = index + i ∧ offset ≤ f.offset.toNat ∧ f.stop ≤ stop := by
  induction files generalizing index offset i with
  | nil => simp at there
  | cons g files ih =>
    obtain ⟨⟨here, start, -⟩, rest⟩ := filesEnd?_cons.1 laid
    have within : g.offset.toNat ≤ g.stop := Nat.le_add_right _ _
    cases i with
    | zero =>
      obtain rfl : g = f := by simpa using there
      exact ⟨here, start.ge, le_filesEnd rest⟩
    | succ i =>
      obtain ⟨place, above, below⟩ := ih rest (by simpa using there)
      exact ⟨by omega, by omega, below⟩

/-- Every byte that the files fill is in one of them. -/
lemma exists_file_of_filesEnd (laid : filesEnd? index offset files = some stop) {byte : ℕ}
    (above : offset ≤ byte) (below : byte < stop) :
    ∃ (i : ℕ) (f : FileEntry), files[i]? = some f ∧ f.offset.toNat ≤ byte ∧ byte < f.stop := by
  induction files generalizing index offset with
  | nil =>
    obtain rfl : offset = stop := Option.some.inj laid
    omega
  | cons f files ih =>
    obtain ⟨⟨-, start, -⟩, rest⟩ := filesEnd?_cons.1 laid
    by_cases here : byte < f.stop
    · exact ⟨0, f, rfl, by omega, here⟩
    · obtain ⟨i, g, there, inside⟩ := ih rest (by omega)
      exact ⟨i + 1, g, by simpa using there, inside⟩

lemma stop_le_offset_of_filesEnd (laid : filesEnd? index offset files = some stop) {i j : ℕ}
    {g : FileEntry} (order : i < j) (there : files[i]? = some f) (later : files[j]? = some g) :
    f.stop ≤ g.offset.toNat := by
  induction files generalizing index offset i j with
  | nil => simp at there
  | cons first files ih =>
    obtain ⟨-, rest⟩ := filesEnd?_cons.1 laid
    obtain ⟨j, rfl⟩ : ∃ k, j = k + 1 := ⟨j - 1, by omega⟩
    cases i with
    | zero =>
      obtain rfl : first = f := by simpa using there
      exact (getElem?_of_filesEnd rest (by simpa using later)).2.1
    | succ i =>
      exact ih rest (Nat.lt_of_succ_lt_succ order) (by simpa using there) (by simpa using later)

/-- What is counted file by file is counted once over what the files fill. -/
lemma sum_of_filesEnd {count : ℕ → ℕ → ℕ} (empty : ∀ a, count a a = 0)
    (join : ∀ a b c, a ≤ b → b ≤ c → count a b + count b c = count a c)
    (laid : filesEnd? index offset files = some stop) :
    (files.map fun f => count f.offset.toNat f.stop).sum = count offset stop := by
  induction files generalizing index offset with
  | nil =>
    obtain rfl : offset = stop := Option.some.inj laid
    exact (empty offset).symm
  | cons f files ih =>
    obtain ⟨⟨-, start, -⟩, rest⟩ := filesEnd?_cons.1 laid
    rw [List.map_cons, List.sum_cons, ih rest, start]
    have within : f.offset.toNat ≤ f.stop := Nat.le_add_right _ _
    exact join _ _ _ (by omega) (le_filesEnd rest)

/-! ### Pieces of files -/

lemma pieceLength_toNat_pos (some : m.pieceLength ≠ 0) : 0 < m.pieceLength.toNat :=
  UInt32.pos_iff_ne_zero.2 some

/-- Bytes whose piece has an index are below the largest offset. -/
lemma lt_maxSize_of_pieceOf_le (pieces : m.pieceLength ≠ 0) {byte : ℕ}
    (indexed : m.pieceOf byte ≤ maxIndex) : byte < maxSize := by
  -- all pieces that have an index end below the square of their number
  have below := (Nat.div_lt_iff_lt_mul (pieceLength_toNat_pos pieces)).1 (Nat.lt_succ_of_le indexed)
  have stop : (maxIndex + 1) * m.pieceLength.toNat ≤ (maxIndex + 1) * maxIndex :=
    Nat.mul_le_mul_left _ (toNat_le_maxIndex _)
  exact (below.trans_le stop).trans_le (by decide)

/-- **The pieces of a file in any metadata**: those of its first and of its last byte, if the latter
has an index. -/
theorem filePieces?_eq_some_iff {index first last : ℕ} : m.filePieces? index = some (first, last) ↔
    ∃ f ∈ m.file? index, f.size ≠ 0 ∧ m.pieceLength ≠ 0 ∧ first = m.pieceOf f.offset.toNat ∧
      last = m.pieceOf (f.offset.toNat + (f.size.toNat - 1)) ∧ last ≤ maxIndex := by
  have uncapped {byte : ℕ} (pieces : m.pieceLength ≠ 0)
      (indexed : m.pieceOf (min byte maxSize) ≤ maxIndex ∨ m.pieceOf byte ≤ maxIndex) :
      min byte maxSize = byte := by
    have := indexed.imp (lt_maxSize_of_pieceOf_le pieces) (lt_maxSize_of_pieceOf_le pieces)
    omega
  unfold filePieces?
  constructor
  · intro known
    split at known
    · cases known
    · rename_i f there
      split at known
      · cases known
      · rename_i shown
        obtain ⟨bytes, pieces⟩ := not_or.1 shown
        obtain ⟨indexed, range⟩ := Option.ite_none_right_eq_some.1 known
        obtain ⟨rfl, rfl⟩ := Prod.mk.inj (Option.some.inj range)
        have same := uncapped pieces (.inl indexed.2)
        rw [same] at indexed ⊢
        exact ⟨f, there, bytes, pieces, rfl, rfl, indexed.2⟩
  · rintro ⟨f, there, bytes, pieces, rfl, rfl, indexed⟩
    have order : m.pieceOf f.offset.toNat ≤ m.pieceOf (f.offset.toNat + (f.size.toNat - 1)) :=
      Nat.div_le_div_right (Nat.le_add_right _ _)
    rw [there]
    dsimp only
    rw [if_neg (not_or.2 ⟨bytes, pieces⟩), uncapped pieces (.inr indexed)]
    exact if_pos ⟨order.trans indexed, indexed⟩

/-! ### Consistency -/

/-- **What consistency comes to**: the files fill the payload end to end, and the pieces are those
that begin inside it. -/
theorem isConsistent_iff : m.isConsistent = true ↔
    filesEnd? 0 0 m.files = some m.totalSize.toNat ∧
      ∀ piece, piece < m.pieceCount.toNat ↔
        piece * m.pieceLength.toNat < m.totalSize.toNat := by
  have count : (if m.pieceLength = 0 then m.pieceCount == 0 && m.totalSize == 0
      else m.pieceCount.toNat ==
        (m.totalSize.toNat + m.pieceLength.toNat - 1) / m.pieceLength.toNat) = true ↔
      ∀ piece, piece < m.pieceCount.toNat ↔
        piece * m.pieceLength.toNat < m.totalSize.toNat := by
    split
    · rename_i none
      simp only [none, UInt32.toNat_zero, Nat.mul_zero, Bool.and_eq_true, beq_iff_eq,
        ← UInt32.toNat_inj, ← UInt64.toNat_inj, UInt64.toNat_zero]
      constructor
      · rintro ⟨noPieces, noBytes⟩ piece
        omega
      · intro begins
        have last := begins m.pieceCount.toNat
        have first := begins 0
        omega
    · rename_i some
      simp only [beq_iff_eq, ← Nat.ceilDiv_eq_add_pred_div,
        ← lt_ceilDiv_iff (pieceLength_toNat_pos some)]
      exact ⟨fun same piece => by rw [same], eq_of_forall_lt_iff⟩
  unfold isConsistent
  cases filled : filesEnd? 0 0 m.files with
  | none => simp
  | some stop => rw [Bool.and_eq_true, count, beq_iff_eq, Option.some.injEq]

variable (consistent : m.isConsistent = true)
include consistent

lemma lt_pieceCount_iff : piece < m.pieceCount.toNat ↔
    piece * m.pieceLength.toNat < m.totalSize.toNat :=
  (isConsistent_iff.1 consistent).2 piece

lemma filesEnd_of_isConsistent : filesEnd? 0 0 m.files = some m.totalSize.toNat :=
  (isConsistent_iff.1 consistent).1

lemma pieceLength_pos {byte : ℕ} (inside : byte < m.totalSize.toNat) :
    0 < m.pieceLength.toNat := by
  by_contra none
  have first := (isConsistent_iff.1 consistent).2 0
  have last := (isConsistent_iff.1 consistent).2 m.pieceCount.toNat
  rw [Nat.eq_zero_of_not_pos none] at first last
  omega

lemma pieceOf_lt {byte : ℕ} (inside : byte < m.totalSize.toNat) :
    m.pieceOf byte < m.pieceCount.toNat := by
  rw [lt_pieceCount_iff consistent]
  exact (Nat.div_mul_le_self _ _).trans_lt inside

lemma stop_le_totalSize (there : f ∈ m.files) : f.stop ≤ m.totalSize.toNat := by
  obtain ⟨i, here⟩ := List.mem_iff_getElem?.1 there
  exact (getElem?_of_filesEnd (filesEnd_of_isConsistent consistent) here).2.2

lemma index_eq {i : ℕ} (there : m.files[i]? = some f) : f.index.toNat = i := by
  have place := (getElem?_of_filesEnd (filesEnd_of_isConsistent consistent) there).1
  omega

omit consistent in
lemma totalSize_le : m.totalSize.toNat ≤ maxSize := toNat_le_maxSize _

/-! ### Sizes of pieces -/

section Piece

variable (inside : piece < m.pieceCount.toNat)
include inside

/-- A piece begins inside the payload, so where it begins needs no cap. -/
lemma piece_start_lt : piece * m.pieceLength.toNat < m.totalSize.toNat :=
  (lt_pieceCount_iff consistent).1 inside

lemma pieceSize?_eq : m.pieceSize? piece =
    some (min m.totalSize.toNat ((piece + 1) * m.pieceLength.toNat) -
      piece * m.pieceLength.toNat) := by
  have start := piece_start_lt consistent inside
  have fits := m.totalSize_le
  have exact : min (piece * m.pieceLength.toNat) maxSize = piece * m.pieceLength.toNat := by omega
  rw [pieceSize?, if_pos inside, exact, Nat.succ_mul]
  congr 1
  omega

end Piece

end Metadata

end TorrentHandle
