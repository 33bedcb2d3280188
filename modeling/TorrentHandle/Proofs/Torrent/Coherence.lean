import TorrentHandle.Torrent.Basic
import Mathlib.Data.Nat.Notation
import Mathlib.Tactic.Lemma

/-!
What the parts of a torrent have to do with one another. Each operation that may fail is opened
once, by what follows if it succeeds; `Coherent` is kept by every one of them, most often because
no deadline is added and nothing else of it changes (`Coherent.of_less`).
-/

namespace TorrentHandle.Torrent

variable {t t' : Torrent} {m : Metadata} {piece : UInt32}

/-! ### What success means -/

lemma setMetadata_eq_ok : t.setMetadata m = .ok t' ↔
    m.isConsistent = true ∧ t' = refresh { t with
      infoHash := m.infoHash
      name := some (t.name.getD m.name)
      metadata := some m
      priorities := m.files.map fun _ => .standard
      finished := t.finished.filter (· < m.pieceCount.toNat) } := by
  unfold setMetadata
  split
  · rename_i consistent
    rw [Except.ok.injEq, eq_comm, and_iff_right consistent]
  · rename_i broken
    exact ⟨nofun, fun ⟨consistent, _⟩ => absurd consistent broken⟩

lemma requireMetadata_eq_ok : t.requireMetadata = .ok m ↔ t.metadata = some m := by
  unfold requireMetadata
  cases t.metadata <;> simp

lemma checkPiece_eq_ok :
    t.checkPiece piece = .ok () ↔ ∃ m, t.metadata = some m ∧ piece < m.pieceCount := by
  unfold checkPiece
  cases known : t.requireMetadata with
  | error err =>
    refine ⟨nofun, fun ⟨m, there, _⟩ => ?_⟩
    rw [requireMetadata_eq_ok.2 there] at known
    cases known
  | ok m =>
    rw [requireMetadata_eq_ok] at known
    change (if piece < m.pieceCount then _ else _) = _ ↔ _
    split <;> simp_all

lemma finishPiece_eq_ok : t.finishPiece piece = .ok t' ↔
    t.checkPiece piece = .ok () ∧ t' = refresh { t with
      finished := t.finished.insert piece.toNat
      deadlines := t.deadlines.erase piece.toNat } := by
  unfold finishPiece
  cases t.checkPiece piece with
  | error err => exact ⟨nofun, nofun⟩
  | ok u => exact ⟨fun | rfl => ⟨rfl, rfl⟩, fun | ⟨_, rfl⟩ => rfl⟩

lemma setDeadline_eq_ok {milliseconds : UInt32} : t.setDeadline piece milliseconds = .ok t' ↔
    t.checkPiece piece = .ok () ∧ t' = if piece.toNat ∈ t.finished then t
      else { t with deadlines := t.deadlines.insert piece.toNat milliseconds } := by
  unfold setDeadline
  cases t.checkPiece piece with
  | error err => exact ⟨nofun, nofun⟩
  | ok u =>
    change (if t.finished.contains piece.toNat then _ else _) = _ ↔ _
    by_cases there : piece.toNat ∈ t.finished
    · rw [if_pos (Std.ExtTreeSet.mem_iff_contains.1 there), if_pos there]
      exact ⟨fun | rfl => ⟨rfl, rfl⟩, fun | ⟨_, rfl⟩ => rfl⟩
    · rw [if_neg (mt Std.ExtTreeSet.mem_iff_contains.2 there), if_neg there]
      exact ⟨fun | rfl => ⟨rfl, rfl⟩, fun | ⟨_, rfl⟩ => rfl⟩

lemma setPriority_eq_ok {index : UInt32} {p : FilePriority} :
    t.setPriority index p = .ok t' ↔
      t.metadata.isSome ∧ index.toNat < t.priorities.length ∧
        t' = refresh { t with priorities := t.priorities.set index.toNat p } := by
  unfold setPriority requireMetadata
  cases t.metadata with
  | none => exact ⟨nofun, nofun⟩
  | some m =>
    change (if index.toNat < t.priorities.length then _ else _) = _ ↔ _
    split
    · rename_i below
      exact ⟨fun | rfl => ⟨rfl, below, rfl⟩, fun | ⟨_, _, rfl⟩ => rfl⟩
    · rename_i above
      exact ⟨nofun, fun ⟨_, below, _⟩ => absurd below above⟩

lemma ignoreFiles_eq_ok : t.ignoreFiles = .ok t' ↔
    t.metadata.isSome ∧
      t' = refresh { t with priorities := t.priorities.map fun _ => .dontDownload } := by
  unfold ignoreFiles requireMetadata
  cases t.metadata with
  | none => exact ⟨nofun, nofun⟩
  | some m => exact ⟨fun | rfl => ⟨rfl, rfl⟩, fun | ⟨_, rfl⟩ => rfl⟩

/-! ### Coherence -/

/-- The torrent goes with metadata. -/
structure Fits (t : Torrent) (m : Metadata) : Prop where
  consistent : m.isConsistent = true
  infoHash : t.infoHash = m.infoHash
  named : t.name.isSome
  priorities : t.priorities.length = m.files.length
  finished : ∀ piece ∈ t.finished, piece < m.pieceCount.toNat
  apart : ∀ piece ∈ t.finished, piece ∉ t.deadlines

/-- The parts of the torrent go together: it goes with its metadata, or has nothing that needs
metadata. -/
structure Coherent (t : Torrent) : Prop where
  bare : t.metadata = none → t.finished = ∅ ∧ t.deadlines = ∅ ∧ t.priorities = []
  fits : ∀ m, t.metadata = some m → t.Fits m

namespace Coherent

lemma of_less (h : t.Coherent) (metadata : t'.metadata = t.metadata)
    (infoHash : t'.infoHash = t.infoHash) (name : t'.name = t.name)
    (priorities : t'.priorities.length = t.priorities.length) (finished : t'.finished = t.finished)
    (deadlines : ∀ piece ∈ t'.deadlines, piece ∈ t.deadlines) : t'.Coherent := by
  refine ⟨fun unknown => ?_, fun m known => ?_⟩
  · obtain ⟨noPieces, noDeadlines, noPriorities⟩ := h.bare (metadata ▸ unknown)
    refine ⟨finished.trans noPieces, ?_, ?_⟩
    · rw [Std.ExtTreeMap.eq_empty_iff_forall_not_mem]
      intro piece inside
      simpa [noDeadlines] using deadlines piece inside
    · rw [noPriorities] at priorities
      exact List.eq_nil_of_length_eq_zero priorities
  · have fits := h.fits m (metadata ▸ known)
    exact ⟨fits.consistent, infoHash.trans fits.infoHash, name ▸ fits.named,
      priorities.trans fits.priorities, finished ▸ fits.finished,
      fun piece inside due => fits.apart piece (finished ▸ inside) (deadlines piece due)⟩

lemma of_fits (known : t.metadata = some m) (fits : t.Fits m) : t.Coherent where
  bare unknown := absurd (known.symm.trans unknown) nofun
  fits _ known' := Option.some.inj (known.symm.trans known') ▸ fits

lemma ofFresh (infoHash : InfoHash) (name : Option String) (paused : Bool) :
    Coherent { infoHash, name, paused } where
  bare _ := ⟨rfl, rfl, rfl⟩
  fits _ known := nomatch known

lemma withTracker (h : t.Coherent) (tracker : Tracker) : (t.withTracker tracker).Coherent :=
  h.of_less rfl rfl rfl rfl rfl fun _ => id

lemma resetDeadline (h : t.Coherent) (piece : UInt32) : (t.resetDeadline piece).Coherent :=
  h.of_less rfl rfl rfl rfl rfl fun _ due => Std.ExtTreeMap.mem_of_mem_erase due

lemma clearDeadlines (h : t.Coherent) : Coherent { t with deadlines := .empty } :=
  h.of_less rfl rfl rfl rfl rfl fun _ due => absurd due Std.ExtTreeMap.not_mem_empty

lemma setPriority (h : t.Coherent) {index : UInt32} {p : FilePriority}
    (done : t.setPriority index p = .ok t') : t'.Coherent := by
  obtain ⟨-, -, rfl⟩ := setPriority_eq_ok.1 done
  exact h.of_less rfl rfl rfl List.length_set rfl fun _ => id

lemma ignoreFiles (h : t.Coherent) (done : t.ignoreFiles = .ok t') : t'.Coherent := by
  obtain ⟨-, rfl⟩ := ignoreFiles_eq_ok.1 done
  exact h.of_less rfl rfl rfl (List.length_map _) rfl fun _ => id

lemma setMetadata (h : t.Coherent) (done : t.setMetadata m = .ok t') : t'.Coherent := by
  obtain ⟨consistent, rfl⟩ := setMetadata_eq_ok.1 done
  refine .of_fits rfl ⟨consistent, rfl, rfl, List.length_map _, ?_, ?_⟩
  · intro piece inside
    obtain ⟨_, below⟩ := Std.ExtTreeSet.mem_filter.1 inside
    simpa using below
  · intro piece inside due
    have before : piece ∈ t.finished := Std.ExtTreeSet.mem_of_mem_filter inside
    cases unknown : t.metadata with
    | none => simp [(h.bare unknown).1] at before
    | some m₀ => exact (h.fits m₀ unknown).apart piece before due

lemma finishPiece (h : t.Coherent) (done : t.finishPiece piece = .ok t') : t'.Coherent := by
  obtain ⟨check, rfl⟩ := finishPiece_eq_ok.1 done
  obtain ⟨m, known, below⟩ := checkPiece_eq_ok.1 check
  have fits := h.fits m known
  refine .of_fits known ⟨fits.consistent, fits.infoHash, fits.named, fits.priorities, ?_, ?_⟩
  · intro other inside
    obtain same | inside := Std.ExtTreeSet.mem_insert.1 inside
    · rwa [← Nat.compare_eq_eq.1 same]
    · exact fits.finished other inside
  · intro other inside due
    obtain ⟨differ, due⟩ := Std.ExtTreeMap.mem_erase.1 due
    obtain same | inside := Std.ExtTreeSet.mem_insert.1 inside
    · exact differ same
    · exact fits.apart other inside due

lemma setDeadline (h : t.Coherent) {milliseconds : UInt32}
    (done : t.setDeadline piece milliseconds = .ok t') : t'.Coherent := by
  obtain ⟨check, rfl⟩ := setDeadline_eq_ok.1 done
  obtain ⟨m, known, -⟩ := checkPiece_eq_ok.1 check
  have fits := h.fits m known
  split
  · exact h
  · rename_i unfinished
    refine .of_fits known ⟨fits.consistent, fits.infoHash, fits.named, fits.priorities,
      fits.finished, ?_⟩
    intro other inside due
    obtain same | due := Std.ExtTreeMap.mem_insert.1 due
    · rw [Nat.compare_eq_eq.1 same] at unfinished
      exact unfinished inside
    · exact fits.apart other inside due

end Coherent

end TorrentHandle.Torrent
