import TorrentHandle.Proofs.Torrent.Coherence
import TorrentHandle.Proofs.Torrent.Pieces

/-!
Progress of a torrent, counted in bytes. The bytes downloaded are summed over the finished pieces,
and those of each file over the parts that finished pieces have in it; both count the bytes of the
payload that lie in finished pieces (`finishedBytes`), once over the whole payload and once file by
file, so the files add up to the whole.
-/

namespace TorrentHandle

lemma sum_take_le (sizes : List ℕ) (count : ℕ) : (sizes.take count).sum ≤ sizes.sum :=
  (sizes.take_sublist count).sum_le_sum fun _ _ => Nat.zero_le _

namespace Torrent

variable {t : Torrent} {m : Metadata} {f : FileEntry} {piece first middle stop : ℕ}

/-! ### Bytes in finished pieces -/

/-- The bytes of the payload from `first` up to but not including `stop` that lie in finished
pieces. -/
def finishedBytes (t : Torrent) (m : Metadata) (first stop : ℕ) : Finset ℕ :=
  (Finset.Ico first stop).filter fun byte => m.pieceOf byte ∈ t.finished

lemma card_finishedBytes_le : (t.finishedBytes m first stop).card ≤ stop - first := by
  rw [← Nat.card_Ico]
  exact Finset.card_filter_le _ _

lemma card_finishedBytes_add (low : first ≤ middle) (high : middle ≤ stop) :
    (t.finishedBytes m first middle).card + (t.finishedBytes m middle stop).card =
      (t.finishedBytes m first stop).card := by
  unfold finishedBytes
  rw [← Finset.Ico_union_Ico_eq_Ico low high, Finset.filter_union,
    Finset.card_union_of_disjoint]
  exact Finset.disjoint_filter_filter (Finset.Ico_disjoint_Ico_consecutive first middle stop)

lemma card_finishedBytes_eq_iff : (t.finishedBytes m first stop).card = stop - first ↔
    ∀ byte, first ≤ byte → byte < stop → m.pieceOf byte ∈ t.finished := by
  rw [← Nat.card_Ico, finishedBytes, Finset.card_filter_eq_iff]
  simp only [Finset.mem_Ico, and_imp]

lemma nodup_finished (t : Torrent) : t.finished.toList.Nodup :=
  (PieceSet.ascending_toList t.finished).imp Nat.ne_of_lt

lemma card_finishedBytes : (t.finishedBytes m first stop).card =
    (t.finished.toList.map fun piece =>
      ((Finset.Ico first stop).filter fun byte => m.pieceOf byte = piece).card).sum := by
  rw [sum_map_card _ _ t.nodup_finished, finishedBytes]
  simp only [Std.ExtTreeSet.mem_toList]

/-! ### Reports -/

section Reports

variable (fits : t.Fits m)
include fits

lemma overlap_eq_card (there : f ∈ m.files) (inside : piece ∈ t.finished) : overlap m f piece =
    ((Finset.Ico f.offset.toNat f.stop).filter fun byte => m.pieceOf byte = piece).card := by
  have below := fits.finished piece inside
  have start := Metadata.piece_start_lt fits.consistent below
  have positive := Metadata.pieceLength_pos fits.consistent start
  have stop := Metadata.stop_le_totalSize fits.consistent there
  have bound := m.totalSize_le
  -- nothing reaches the cap, since piece and file lie within the payload
  have low : min (piece * m.pieceLength.toNat) maxSize = piece * m.pieceLength.toNat := by omega
  have next : piece * m.pieceLength.toNat ≤ (piece + 1) * m.pieceLength.toNat :=
    Nat.mul_le_mul_right _ (Nat.le_succ piece)
  have high : piece * m.pieceLength.toNat + (min m.totalSize.toNat
      ((piece + 1) * m.pieceLength.toNat) - piece * m.pieceLength.toNat) =
        min m.totalSize.toNat ((piece + 1) * m.pieceLength.toNat) := by
    omega
  have fileEnd : min (f.offset.toNat + f.size.toNat) maxSize = f.stop :=
    Nat.min_eq_left (stop.trans bound)
  rw [Metadata.card_filter_pieceOf positive, overlap, Metadata.pieceSize?_eq fits.consistent below,
    Option.getD_some, low, high, fileEnd]
  generalize (piece + 1) * m.pieceLength.toNat = limit
  omega

lemma fileProgress_eq (known : t.metadata = some m) : t.fileProgress =
    m.files.map fun f => (t.finishedBytes m f.offset.toNat f.stop).card := by
  simp only [fileProgress, known]
  refine List.map_congr_left fun f there => ?_
  rw [card_finishedBytes, ← List.sum_eq_foldr]
  refine congrArg List.sum (List.map_congr_left fun piece inside => ?_)
  exact overlap_eq_card fits there (Std.ExtTreeSet.mem_toList.1 inside)

lemma bytesDownloaded_eq (known : t.metadata = some m) :
    t.bytesDownloaded = (t.finishedBytes m 0 m.totalSize.toNat).card := by
  simp only [bytesDownloaded, known]
  rw [← List.sum_eq_foldr, Metadata.sum_pieceSize? fits.consistent t.nodup_finished, finishedBytes]
  simp only [Std.ExtTreeSet.mem_toList]

end Reports

/-- The reports of a torrent's progress add up. -/
structure AddsUp (t : Torrent) (m : Metadata) : Prop where
  /-- There is one entry per file. -/
  length : t.fileProgress.length = m.files.length
  /-- The entry of a file is the number of its bytes in finished pieces. -/
  entry : ∀ (i : ℕ) (f : FileEntry), m.files[i]? = some f →
    t.fileProgress[i]? = some (t.finishedBytes m f.offset.toNat f.stop).card
  le_size : ∀ (i : ℕ) (f : FileEntry) (n : ℕ), m.files[i]? = some f →
    t.fileProgress[i]? = some n → n ≤ f.size.toNat
  sum : t.fileProgress.sum = t.bytesDownloaded
  le_total : t.bytesDownloaded ≤ t.bytesTotal

/-- No number on the way to the reports is larger than a size may be: places of pieces and files,
and every sum, added up from its first number on. -/
structure StaysInRange (t : Torrent) (m : Metadata) : Prop where
  start : ∀ piece ∈ t.finished, piece * m.pieceLength.toNat ≤ maxSize
  stop : ∀ piece ∈ t.finished,
    piece * m.pieceLength.toNat + (m.pieceSize? piece).getD 0 ≤ maxSize
  fileStop : ∀ f ∈ m.files, f.stop ≤ maxSize
  downloaded : ∀ count, ((t.finished.toList.filterMap m.pieceSize?).take count).sum ≤ maxSize
  entry : ∀ f ∈ m.files, ∀ count,
    ((t.finished.toList.map (overlap m f)).take count).sum ≤ maxSize
  entries : ∀ count, (t.fileProgress.take count).sum ≤ maxSize

section Sums

variable (fits : t.Fits m) (known : t.metadata = some m)
include fits known

theorem addsUp : t.AddsUp m := by
  have progress := fileProgress_eq fits known
  have entry : ∀ (i : ℕ) (f : FileEntry), m.files[i]? = some f →
      t.fileProgress[i]? = some (t.finishedBytes m f.offset.toNat f.stop).card := by
    intro i f there
    rw [progress, List.getElem?_map, there, Option.map_some]
  refine ⟨by rw [progress, List.length_map], entry, ?_, ?_, ?_⟩
  · intro i f n there reported
    rw [entry i f there] at reported
    have count : (t.finishedBytes m f.offset.toNat f.stop).card = n := Option.some.inj reported
    have bound : (t.finishedBytes m f.offset.toNat f.stop).card ≤ f.stop - f.offset.toNat :=
      card_finishedBytes_le
    unfold FileEntry.stop at bound count
    omega
  · rw [progress, bytesDownloaded_eq fits known]
    have empty : ∀ a, (t.finishedBytes m a a).card = 0 := by simp [finishedBytes]
    exact Metadata.sum_of_filesEnd empty (fun a b c => card_finishedBytes_add)
      (Metadata.filesEnd_of_isConsistent fits.consistent)
  · rw [bytesDownloaded_eq fits known, bytesTotal, known]
    exact card_finishedBytes_le

theorem staysInRange : t.StaysInRange m := by
  have bound := m.totalSize_le
  have sums := addsUp fits known
  have most : t.bytesDownloaded ≤ maxSize := by
    have below := sums.le_total
    rw [bytesTotal, known] at below
    exact below.trans bound
  refine ⟨?_, ?_, ?_, ?_, ?_, ?_⟩
  · intro piece inside
    have start := Metadata.piece_start_lt fits.consistent (fits.finished piece inside)
    omega
  · intro piece inside
    have below := fits.finished piece inside
    have start := Metadata.piece_start_lt fits.consistent below
    rw [Metadata.pieceSize?_eq fits.consistent below, Option.getD_some]
    omega
  · intro f there
    exact (Metadata.stop_le_totalSize fits.consistent there).trans bound
  · intro count
    have whole : (t.finished.toList.filterMap m.pieceSize?).sum = t.bytesDownloaded := by
      rw [bytesDownloaded, known, List.sum_eq_foldr]
    exact (sum_take_le _ count).trans (whole ▸ most)
  · intro f there count
    have inside : (t.finished.toList.map (overlap m f)).sum ∈ t.fileProgress := by
      simp only [fileProgress, known, ← List.sum_eq_foldr]
      exact List.mem_map_of_mem there
    have part := List.le_sum_of_mem inside
    rw [sums.sum] at part
    exact (sum_take_le _ count).trans (part.trans most)
  · intro count
    exact (sum_take_le _ count).trans (sums.sum ▸ most)

end Sums

end Torrent

end TorrentHandle
