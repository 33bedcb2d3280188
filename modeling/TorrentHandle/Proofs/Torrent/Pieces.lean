import Mathlib.Algebra.BigOperators.Group.Finset.Basic
import Mathlib.Algebra.Order.BigOperators.Group.Finset
import Mathlib.Data.Set.Basic
import TorrentHandle.Proofs.Torrent.Geometry

/-!
Pieces as parts of the payload. The sizes of pieces tile it: each byte is in one piece, and a piece
has as many bytes as its size says. The pieces of a file are those that share a byte with it, so the
files between them have every piece, in order, and two files share a piece at most where one ends
and a later one begins.
-/

namespace TorrentHandle

/-! ### Counting -/

lemma sum_filterMap {α : Type} (f : α → Option ℕ) (items : List α) :
    (items.filterMap f).sum = (items.map fun item => (f item).getD 0).sum := by
  induction items with
  | nil => rfl
  | cons item rest ih => cases answer : f item <;> simp [answer, ih]

/-- Bytes counted piece by piece are counted once. -/
lemma sum_map_card (bytes : Finset ℕ) (pieceOf : ℕ → ℕ) {pieces : List ℕ}
    (distinct : pieces.Nodup) :
    (pieces.map fun piece => (bytes.filter fun byte => pieceOf byte = piece).card).sum =
      (bytes.filter fun byte => pieceOf byte ∈ pieces).card := by
  have counted : ∀ byte ∈ bytes.filter fun byte => pieceOf byte ∈ pieces,
      pieceOf byte ∈ pieces.toFinset := by
    simp
  rw [← List.sum_toFinset _ distinct, Finset.card_eq_sum_card_fiberwise counted]
  refine Finset.sum_congr rfl fun piece inside => ?_
  rw [Finset.filter_filter]
  congr 1
  refine Finset.filter_congr fun byte _ => ?_
  exact ⟨fun here => ⟨here ▸ List.mem_toFinset.1 inside, here⟩, And.right⟩

/-- The pieces from that of the first byte of a stretch to that of its last byte are the pieces of
its bytes. -/
lemma between_iff {length first size piece : ℕ} (positive : 0 < length) (some : 0 < size) :
    first / length ≤ piece ∧ piece ≤ (first + (size - 1)) / length ↔
      ∃ byte, first ≤ byte ∧ byte < first + size ∧ byte / length = piece := by
  constructor
  · rintro ⟨low, high⟩
    have start : piece * length ≤ first + (size - 1) := (Nat.le_div_iff_mul_le positive).1 high
    -- the piece begins in the stretch, or the stretch begins in the piece
    rcases Nat.le_total first (piece * length) with inside | before
    · exact ⟨piece * length, inside, by omega, Nat.mul_div_cancel _ positive⟩
    · have here : first / length = piece :=
        Nat.le_antisymm low ((Nat.le_div_iff_mul_le positive).2 before)
      exact ⟨first, le_rfl, by omega, here⟩
  · rintro ⟨byte, low, high, rfl⟩
    exact ⟨Nat.div_le_div_right low, Nat.div_le_div_right (by omega)⟩

/-- The bytes of the payload that a file has. -/
def FileEntry.bytes (f : FileEntry) : Set ℕ := {byte | f.offset.toNat ≤ byte ∧ byte < f.stop}

namespace Metadata

variable {m : Metadata} {f : FileEntry} {i piece : ℕ}

lemma pieceOf_eq_iff (positive : 0 < m.pieceLength.toNat) {byte : ℕ} : m.pieceOf byte = piece ↔
    piece * m.pieceLength.toNat ≤ byte ∧ byte < (piece + 1) * m.pieceLength.toNat := by
  rw [pieceOf, Nat.div_eq_iff positive, Nat.succ_mul]
  omega

lemma card_filter_pieceOf (positive : 0 < m.pieceLength.toNat) (piece first stop : ℕ) :
    ((Finset.Ico first stop).filter fun byte => m.pieceOf byte = piece).card =
      min stop ((piece + 1) * m.pieceLength.toNat) -
        max first (piece * m.pieceLength.toNat) := by
  have stretch : (Finset.Ico first stop).filter (fun byte => m.pieceOf byte = piece) =
      Finset.Ico (max first (piece * m.pieceLength.toNat))
        (min stop ((piece + 1) * m.pieceLength.toNat)) := by
    ext byte
    simp only [pieceOf_eq_iff positive, Finset.mem_filter, Finset.mem_Ico, sup_le_iff, lt_inf_iff]
    exact and_and_and_comm
  rw [stretch, Nat.card_Ico]

/-! ### Sizes of pieces -/

/-- The pieces cut the payload up. -/
structure Tiled (m : Metadata) : Prop where
  /-- The pieces that the torrent has are those with a size. -/
  isSome_iff : ∀ piece, (m.pieceSize? piece).isSome ↔ piece < m.pieceCount.toNat
  bounds : ∀ piece size, m.pieceSize? piece = some size → 1 ≤ size ∧ size ≤ m.pieceLength.toNat
  /-- No piece but the last one is short. -/
  full : ∀ piece, piece + 1 < m.pieceCount.toNat →
    m.pieceSize? piece = some m.pieceLength.toNat
  sum : ((List.range m.pieceCount.toNat).filterMap m.pieceSize?).sum = m.totalSize.toNat
  /-- Different pieces together are no larger than the payload. -/
  sum_le : ∀ pieces : List ℕ, pieces.Nodup →
    (pieces.filterMap m.pieceSize?).sum ≤ m.totalSize.toNat

lemma isSome_pieceSize? : (m.pieceSize? piece).isSome ↔ piece < m.pieceCount.toNat := by
  unfold pieceSize?
  split <;> simp [*]

section Consistent

variable (consistent : m.isConsistent = true)
include consistent

lemma card_pieceOf (piece : ℕ) :
    ((Finset.Ico 0 m.totalSize.toNat).filter fun byte => m.pieceOf byte = piece).card =
      (m.pieceSize? piece).getD 0 := by
  by_cases inside : piece < m.pieceCount.toNat
  · have start := piece_start_lt consistent inside
    have positive := pieceLength_pos consistent start
    rw [pieceSize?_eq consistent inside, card_filter_pieceOf positive, Nat.zero_max,
      Option.getD_some]
  · have none : m.pieceSize? piece = none := if_neg inside
    rw [none, Option.getD_none, Finset.card_eq_zero, Finset.filter_eq_empty_iff]
    rintro byte below rfl
    exact inside (pieceOf_lt consistent (Finset.mem_Ico.1 below).2)

lemma sum_pieceSize? {pieces : List ℕ} (distinct : pieces.Nodup) :
    (pieces.filterMap m.pieceSize?).sum =
      ((Finset.Ico 0 m.totalSize.toNat).filter fun byte => m.pieceOf byte ∈ pieces).card := by
  rw [← sum_map_card _ _ distinct, sum_filterMap]
  simp only [card_pieceOf consistent]

/-- **Pieces tile the payload.** -/
theorem tiled : m.Tiled := by
  refine ⟨fun _ => isSome_pieceSize?, ?_, ?_, ?_, ?_⟩
  · intro piece size known
    have inside : piece < m.pieceCount.toNat := isSome_pieceSize?.1 (by rw [known]; rfl)
    have start := piece_start_lt consistent inside
    have positive := pieceLength_pos consistent start
    rw [pieceSize?_eq consistent inside, Option.some.injEq, Nat.succ_mul] at known
    omega
  · intro piece inside
    -- the next piece begins in the payload, so this one ends there
    have next := piece_start_lt consistent inside
    rw [pieceSize?_eq consistent (by omega), Nat.min_eq_right next.le, Nat.succ_mul,
      Nat.add_sub_cancel_left]
  · rw [sum_pieceSize? consistent List.nodup_range, Finset.filter_true_of_mem, Nat.card_Ico,
      Nat.sub_zero]
    intro byte below
    exact List.mem_range.2 (pieceOf_lt consistent (Finset.mem_Ico.1 below).2)
  · intro pieces distinct
    rw [sum_pieceSize? consistent distinct]
    exact (Finset.card_filter_le _ _).trans_eq (Nat.card_Ico 0 m.totalSize.toNat)

end Consistent

theorem uneven_tiled :
    let m := Metadata.ofFiles "demo" .sample 16 [("a.bin", 20), ("empty.txt", 0), ("b.bin", 30)]
    m.isConsistent = true ∧ m.Tiled ∧ m.pieceSize? 2 = some 16 ∧ m.pieceSize? 3 = some 2 ∧
      ([0, 1, 2, 3].filterMap m.pieceSize?).sum = 50 := by
  intro m
  have consistent : m.isConsistent = true := by decide +kernel
  exact ⟨consistent, tiled consistent, (tiled consistent).full 2 (by decide +kernel),
    by decide +kernel, (tiled consistent).sum⟩

/-! ### Pieces of a file -/

/-- The bytes of a piece: as many as its size says, from where it begins. -/
def pieceBytes (m : Metadata) (piece : ℕ) : Set ℕ :=
  {byte | ∃ size, m.pieceSize? piece = some size ∧
    piece * m.pieceLength.toNat ≤ byte ∧ byte < piece * m.pieceLength.toNat + size}

/-- The pieces of each file are those that share a byte with it. -/
structure FilesPlaced (m : Metadata) : Prop where
  /-- There are none for an index that no file has, and for an empty file. -/
  none_iff : ∀ i, m.filePieces? i = none ↔ ∀ f, m.file? i = some f → f.size = 0
  within : ∀ i first last, m.filePieces? i = some (first, last) →
    first ≤ last ∧ last < m.pieceCount.toNat
  shares : ∀ i f first last, m.file? i = some f → m.filePieces? i = some (first, last) →
    ∀ piece, first ≤ piece ∧ piece ≤ last ↔ (m.pieceBytes piece ∩ f.bytes).Nonempty
  /-- Every piece is one of some file. -/
  covers : ∀ piece, piece < m.pieceCount.toNat →
    ∃ i first last, m.filePieces? i = some (first, last) ∧ first ≤ piece ∧ piece ≤ last
  /-- A file ends in no later piece than the one that a later file begins in. -/
  ordered : ∀ i j first last first' last', i < j → m.filePieces? i = some (first, last) →
    m.filePieces? j = some (first', last') → last ≤ first'

lemma mem_pieceBytes (consistent : m.isConsistent = true) {byte : ℕ} :
    byte ∈ m.pieceBytes piece ↔ byte < m.totalSize.toNat ∧ m.pieceOf byte = piece := by
  constructor
  · rintro ⟨size, known, low, high⟩
    have inside : piece < m.pieceCount.toNat := isSome_pieceSize?.1 (by rw [known]; rfl)
    have positive := pieceLength_pos consistent (piece_start_lt consistent inside)
    rw [pieceSize?_eq consistent inside, Option.some.injEq] at known
    exact ⟨by omega, (pieceOf_eq_iff positive).2 ⟨low, by omega⟩⟩
  · rintro ⟨below, rfl⟩
    obtain ⟨low, high⟩ := (pieceOf_eq_iff (pieceLength_pos consistent below)).1 rfl
    exact ⟨_, pieceSize?_eq consistent (pieceOf_lt consistent below), low, by omega⟩

section File

variable (consistent : m.isConsistent = true) (there : m.files[i]? = some f)
include consistent there

/-- The pieces of a file that has bytes are those between that of its first and that of its last
byte: neither number leaves its range. -/
lemma filePieces?_eq (some : 0 < f.size.toNat) : 0 < m.pieceLength.toNat ∧
    m.filePieces? i = .some (m.pieceOf f.offset.toNat,
      m.pieceOf (f.offset.toNat + (f.size.toNat - 1))) := by
  have inside := stop_le_totalSize consistent (List.mem_of_getElem? there)
  unfold FileEntry.stop at inside
  have last : f.offset.toNat + (f.size.toNat - 1) < m.totalSize.toNat := by omega
  have positive := pieceLength_pos consistent last
  have indexed := (pieceOf_lt consistent last).le.trans (toNat_le_maxIndex _)
  have bytes : f.size ≠ 0 := UInt64.pos_iff_ne_zero.1 some
  have pieces : m.pieceLength ≠ 0 := UInt32.pos_iff_ne_zero.1 positive
  exact ⟨positive, filePieces?_eq_some_iff.2 ⟨f, there, bytes, pieces, rfl, rfl, indexed⟩⟩

lemma filePieces?_eq_none_iff : m.filePieces? i = none ↔ f.size = 0 := by
  rcases Nat.eq_zero_or_pos f.size.toNat with none | some
  · have empty : f.size = 0 := UInt64.toNat_inj.1 none
    simp [filePieces?, file?, there, empty]
  · obtain ⟨-, pieces⟩ := filePieces?_eq consistent there some
    rw [pieces]
    refine iff_of_false nofun fun empty => ?_
    rw [empty] at some
    exact absurd some (Nat.lt_irrefl 0)

lemma shares_iff (some : 0 < f.size.toNat) : m.pieceOf f.offset.toNat ≤ piece ∧
    piece ≤ m.pieceOf (f.offset.toNat + (f.size.toNat - 1)) ↔
      (m.pieceBytes piece ∩ f.bytes).Nonempty := by
  obtain ⟨positive, -⟩ := filePieces?_eq consistent there some
  have inside := stop_le_totalSize consistent (List.mem_of_getElem? there)
  unfold pieceOf
  rw [between_iff positive some]
  constructor
  · rintro ⟨byte, low, high, here⟩
    exact ⟨byte, (mem_pieceBytes consistent).2 ⟨high.trans_le inside, here⟩, low, high⟩
  · rintro ⟨byte, held, low, high⟩
    exact ⟨byte, low, high, ((mem_pieceBytes consistent).1 held).2⟩

end File

lemma exists_file_of_filePieces? (consistent : m.isConsistent = true) {first last : ℕ}
    (pieces : m.filePieces? i = some (first, last)) : ∃ f, m.files[i]? = some f ∧
      0 < f.size.toNat ∧ first = m.pieceOf f.offset.toNat ∧
      last = m.pieceOf (f.offset.toNat + (f.size.toNat - 1)) := by
  cases there : m.files[i]? with
  | none => simp [filePieces?, file?, there] at pieces
  | some f =>
    have some : 0 < f.size.toNat := by
      refine Nat.pos_of_ne_zero fun none => ?_
      rw [(filePieces?_eq_none_iff consistent there).2 (UInt64.toNat_inj.1 none)] at pieces
      cases pieces
    rw [(filePieces?_eq consistent there some).2, Option.some.injEq, Prod.mk.injEq] at pieces
    exact ⟨f, rfl, some, pieces.1.symm, pieces.2.symm⟩

/-- **The pieces of a file are those that share a byte with it.** -/
theorem filesPlaced (consistent : m.isConsistent = true) : m.FilesPlaced := by
  have laid := filesEnd_of_isConsistent consistent
  refine ⟨?_, ?_, ?_, ?_, ?_⟩
  · intro i
    cases there : m.files[i]? with
    | none => simp [filePieces?, file?, there]
    | some f => simp [file?, there, filePieces?_eq_none_iff consistent there]
  · intro i first last pieces
    obtain ⟨f, there, some, rfl, rfl⟩ := exists_file_of_filePieces? consistent pieces
    have inside := stop_le_totalSize consistent (List.mem_of_getElem? there)
    unfold FileEntry.stop at inside
    exact ⟨Nat.div_le_div_right (Nat.le_add_right _ _), pieceOf_lt consistent (by omega)⟩
  · intro i f first last there pieces piece
    obtain ⟨g, there', some, rfl, rfl⟩ := exists_file_of_filePieces? consistent pieces
    obtain rfl : f = g := Option.some.inj (there.symm.trans there')
    exact shares_iff consistent there' some
  · intro piece inside
    -- the file that has the first byte of the piece
    have start := piece_start_lt consistent inside
    have positive := pieceLength_pos consistent start
    obtain ⟨i, f, there, low, high⟩ := exists_file_of_filesEnd laid (Nat.zero_le _) start
    have some : 0 < f.size.toNat := by
      unfold FileEntry.stop at high
      omega
    have here : m.pieceOf (piece * m.pieceLength.toNat) = piece := Nat.mul_div_cancel _ positive
    have shared := (shares_iff consistent there some).2
      ⟨_, (mem_pieceBytes consistent).2 ⟨start, here⟩, low, high⟩
    exact ⟨i, _, _, (filePieces?_eq consistent there some).2, shared⟩
  · intro i j first last first' last' order pieces pieces'
    obtain ⟨f, there, some, rfl, rfl⟩ := exists_file_of_filePieces? consistent pieces
    obtain ⟨g, there', -, rfl, rfl⟩ := exists_file_of_filePieces? consistent pieces'
    have apart := stop_le_offset_of_filesEnd laid order there there'
    unfold FileEntry.stop at apart
    exact Nat.div_le_div_right (by omega)

theorem straddling_filesPlaced :
    let m := Metadata.ofFiles "demo" .sample 16 [("a.bin", 20), ("empty.txt", 0), ("b.bin", 30)]
    m.isConsistent = true ∧ m.FilesPlaced ∧ m.filePieces? 0 = some (0, 1) ∧
      m.filePieces? 1 = none ∧ m.filePieces? 2 = some (1, 3) ∧ m.filePieces? 9 = none := by
  intro m
  have consistent : m.isConsistent = true := by decide +kernel
  have placed := filesPlaced consistent
  exact ⟨consistent, placed, by decide +kernel, (placed.none_iff 1).2 (by decide +kernel),
    by decide +kernel, (placed.none_iff 9).2 (by decide +kernel)⟩

end Metadata

end TorrentHandle
