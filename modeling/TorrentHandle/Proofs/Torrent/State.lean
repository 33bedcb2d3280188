import TorrentHandle.Proofs.Torrent.Progress

/-!
The state of a torrent and its bytes. The state is derived by counting finished pieces and by
looking at the pieces of each wanted file; this says the same as comparing bytes, since every piece
has bytes and since the pieces of a file are those of its bytes.
-/

namespace TorrentHandle.Torrent

variable {t : Torrent} {m : Metadata} {f : FileEntry} {i : ℕ}

/-! ### Whole payload -/

section Whole

variable (fits : t.Fits m)
include fits

lemma size_finished_eq_iff : t.finished.size = m.pieceCount.toNat ↔
    ∀ piece, piece < m.pieceCount.toNat → piece ∈ t.finished := by
  have sub : t.finished.toList.toFinset ⊆ Finset.range m.pieceCount.toNat := by
    intro piece inside
    rw [List.mem_toFinset, Std.ExtTreeSet.mem_toList] at inside
    exact Finset.mem_range.2 (fits.finished piece inside)
  have card : t.finished.toList.toFinset.card = t.finished.size := by
    rw [List.toFinset_card_of_nodup t.nodup_finished, Std.ExtTreeSet.length_toList]
  constructor
  · intro all piece below
    have same : t.finished.toList.toFinset = Finset.range m.pieceCount.toNat :=
      Finset.eq_of_subset_of_card_le sub (by rw [card, all, Finset.card_range])
    have inside : piece ∈ t.finished.toList.toFinset := same ▸ Finset.mem_range.2 below
    rwa [List.mem_toFinset, Std.ExtTreeSet.mem_toList] at inside
  · intro all
    have same : t.finished.toList.toFinset = Finset.range m.pieceCount.toNat := by
      refine sub.antisymm fun piece inside => ?_
      rw [List.mem_toFinset, Std.ExtTreeSet.mem_toList]
      exact all piece (Finset.mem_range.1 inside)
    rw [← card, same, Finset.card_range]

/-- Every piece is finished iff every byte is in a finished piece: a piece has bytes. -/
lemma all_finished_iff : (∀ piece, piece < m.pieceCount.toNat → piece ∈ t.finished) ↔
    ∀ byte, byte < m.totalSize.toNat → m.pieceOf byte ∈ t.finished := by
  constructor
  · intro all byte inside
    exact all _ (Metadata.pieceOf_lt fits.consistent inside)
  · intro all piece below
    have start := Metadata.piece_start_lt fits.consistent below
    have positive := Metadata.pieceLength_pos fits.consistent start
    have held := all _ start
    rwa [Metadata.pieceOf, Nat.mul_div_cancel _ positive] at held

lemma size_finished_eq_iff_bytes (known : t.metadata = some m) :
    t.finished.size = m.pieceCount.toNat ↔ t.bytesDownloaded = t.bytesTotal := by
  have whole : (t.finishedBytes m 0 m.totalSize.toNat).card = m.totalSize.toNat ↔
      ∀ byte, byte < m.totalSize.toNat → m.pieceOf byte ∈ t.finished := by
    have counted : (t.finishedBytes m 0 m.totalSize.toNat).card = m.totalSize.toNat - 0 ↔ _ :=
      card_finishedBytes_eq_iff
    simpa using counted
  rw [size_finished_eq_iff fits, all_finished_iff fits, bytesDownloaded_eq fits known, bytesTotal,
    known, whole]

end Whole

/-! ### One file -/

lemma hasFile_iff (fits : t.Fits m) (there : m.files[i]? = some f) : t.hasFile m i = true ↔
    (t.finishedBytes m f.offset.toNat f.stop).card = f.size.toNat := by
  have size : f.stop - f.offset.toNat = f.size.toNat := by
    unfold FileEntry.stop
    omega
  rw [← size, card_finishedBytes_eq_iff, FileEntry.stop]
  rcases Nat.eq_zero_or_pos f.size.toNat with none | some
  · have empty := (Metadata.filePieces?_eq_none_iff fits.consistent there).2
      (UInt64.toNat_inj.1 none)
    simp only [hasFile, empty, none, Nat.add_zero, true_iff]
    omega
  · obtain ⟨positive, pieces⟩ := Metadata.filePieces?_eq fits.consistent there some
    simp only [hasFile, pieces, Metadata.pieceOf]
    rw [PieceSet.covers_iff]
    constructor
    · intro held byte low high
      obtain ⟨above, below⟩ := (between_iff positive some).2 ⟨byte, low, high, rfl⟩
      exact held _ above (by omega)
    · intro held piece low high
      obtain ⟨byte, above, below, rfl⟩ := (between_iff positive some).1 ⟨low, by omega⟩
      exact held byte above below

/-! ### State -/

/-- Every wanted file is there: its progress is its size. -/
def HasWanted (t : Torrent) (m : Metadata) : Prop :=
  ∀ (i : ℕ) (f : FileEntry) (p : FilePriority), m.files[i]? = some f → t.priorities[i]? = some p →
    p.isWanted = true → t.fileProgress[i]? = some f.size.toNat

lemma hasWanted_iff (fits : t.Fits m) (known : t.metadata = some m) : t.HasWanted m ↔
    (m.files.all fun f =>
      !(t.priority f.index.toNat).isWanted || t.hasFile m f.index.toNat) = true := by
  have progress := (addsUp fits known).entry
  rw [List.all_eq_true]
  constructor
  · intro wanted f inside
    obtain ⟨i, there⟩ := List.mem_iff_getElem?.1 inside
    have index := Metadata.index_eq fits.consistent there
    obtain ⟨below, -⟩ := List.getElem?_eq_some_iff.1 there
    have prioritized : t.priorities[i]? = some (t.priority i) := by
      rw [← fits.priorities] at below
      simp [priority, below]
    rw [index, Bool.or_eq_true, Bool.not_eq_true', hasFile_iff fits there]
    cases choice : (t.priority i).isWanted with
    | false => exact .inl rfl
    | true =>
      have reported := wanted i f _ there prioritized choice
      rw [progress i f there] at reported
      exact .inr (Option.some.inj reported)
  · intro held i f p there prioritized choice
    have index := Metadata.index_eq fits.consistent there
    have looked : t.priority i = p := by
      simp [priority, prioritized]
    have checked := held f (List.mem_of_getElem? there)
    rw [index, looked, choice, Bool.not_true, Bool.false_or, hasFile_iff fits there] at checked
    rw [progress i f there, checked]

lemma hasWanted_of_bytes (fits : t.Fits m) (known : t.metadata = some m)
    (all : t.bytesDownloaded = t.bytesTotal) : t.HasWanted m := by
  rw [← size_finished_eq_iff_bytes fits known, size_finished_eq_iff fits, all_finished_iff fits]
    at all
  intro i f p there _ _
  have inside := Metadata.stop_le_totalSize fits.consistent (List.mem_of_getElem? there)
  have held : (t.finishedBytes m f.offset.toNat f.stop).card = f.stop - f.offset.toNat :=
    card_finishedBytes_eq_iff.2 fun byte _ high => all byte (by omega)
  rw [(addsUp fits known).entry i f there, held]
  unfold FileEntry.stop
  simp

lemma state_cases (fits : t.Fits m) (known : t.metadata = some m)
    (current : t.state = t.derivedState) :
    t.state = .seeding ∧ t.bytesDownloaded = t.bytesTotal ∨
      t.state = .finished ∧ t.bytesDownloaded ≠ t.bytesTotal ∧ t.HasWanted m ∨
      t.state = .downloading ∧ t.bytesDownloaded ≠ t.bytesTotal ∧ ¬ t.HasWanted m := by
  have bytes := size_finished_eq_iff_bytes fits known
  have wanted := hasWanted_iff fits known
  simp only [derivedState, known] at current
  split at current
  · rename_i whole
    exact .inl ⟨current, bytes.1 whole⟩
  · rename_i partly
    split at current
    · rename_i held
      exact .inr (.inl ⟨current, mt bytes.2 partly, wanted.2 held⟩)
    · rename_i missing
      exact .inr (.inr ⟨current, mt bytes.2 partly, mt wanted.1 missing⟩)

/-- The state says what the bytes say. -/
structure StateTells (t : Torrent) : Prop where
  downloadingMetadata : t.state = .downloadingMetadata ↔ t.metadata = none
  seeding : ∀ m, t.metadata = some m →
    (t.state = .seeding ↔ t.bytesDownloaded = t.bytesTotal)
  complete : ∀ m, t.metadata = some m →
    (t.state = .finished ∨ t.state = .seeding ↔ t.HasWanted m)
  downloading : ∀ m, t.metadata = some m →
    (t.state = .downloading ↔ t.bytesDownloaded ≠ t.bytesTotal ∧ ¬ t.HasWanted m)
  checking : t.state ≠ .checkingFiles ∧ t.state ≠ .checkingResumeData

theorem stateTells (coherent : t.Coherent) (current : t.state = t.derivedState) :
    t.StateTells := by
  cases known : t.metadata with
  | none =>
    have state : t.state = .downloadingMetadata := by simp [current, derivedState, known]
    exact ⟨by simp [state, known], by simp [known], by simp [known], by simp [known],
      by simp [state]⟩
  | some m =>
    have fits := coherent.fits m known
    have held := hasWanted_of_bytes fits known
    rcases state_cases fits known current with
      ⟨state, all⟩ | ⟨state, part, wanted⟩ | ⟨state, part, missing⟩
    · exact ⟨by simp [state, known], by simp [state, all], by simp [state, known, held all],
        by simp [state, all], by simp [state]⟩
    · exact ⟨by simp [state, known], by simp [state, part], by simp [state, known, wanted],
        by simp [state, known, wanted], by simp [state]⟩
    · exact ⟨by simp [state, known], by simp [state, part], by simp [state, known, missing],
        by simp [state, known, part, missing], by simp [state]⟩

end TorrentHandle.Torrent
