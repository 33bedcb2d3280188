import TorrentHandle.Proofs.Json.RoundTrip
import TorrentHandle.Torrent.Basic

/-!
What is saved of a torrent. Its text has a member for each part of the torrent, and each of them is
read back by the form of its type, also where the members of a record are written in another order
than that of the form. So a torrent is known from the text, as far as it is saved.
-/

namespace TorrentHandle

open TorrentHandle.Json

/-! ### Saved data -/

/-- What is saved of a torrent. -/
structure ResumeData where
  endgame : Bool
  priorities : List FilePriority
  finished : List UInt32
  infoHash : InfoHash
  name : Option String
  paused : Bool
  deadlines : List PieceDeadline
  trackers : List Tracker
  deriving DecidableEq

instance : Form ResumeData where
  reader := .record [.of Bool "endgame", .of (List FilePriority) "file_priorities",
    .of (List UInt32) "finished_pieces", .of InfoHash "info_hash", .of (Option String) "name",
    .of Bool "paused", .of (List PieceDeadline) "piece_deadlines", .of (List Tracker) "trackers"]
  toValue d := .record [
    ("endgame", Form.toValue d.endgame),
    ("file_priorities", Form.toValue d.priorities),
    ("finished_pieces", Form.toValue d.finished),
    ("info_hash", Form.toValue d.infoHash),
    ("name", Form.toValue d.name),
    ("paused", Form.toValue d.paused),
    ("piece_deadlines", Form.toValue d.deadlines),
    ("trackers", Form.toValue d.trackers)]
  ofValue?
    | .record [(_, endgame), (_, priorities), (_, finished), (_, infoHash), (_, name),
        (_, paused), (_, deadlines), (_, trackers)] => do
      some {
        endgame := ← Form.ofValue? endgame
        priorities := ← Form.ofValue? priorities
        finished := ← Form.ofValue? finished
        infoHash := ← Form.ofValue? infoHash
        name := ← Form.ofValue? name
        paused := ← Form.ofValue? paused
        deadlines := ← Form.ofValue? deadlines
        trackers := ← Form.ofValue? trackers }
    | _ => none

lemma ResumeData.means (d : ResumeData) : Form.ofValue? (Form.toValue d) = some d := by
  delta instFormResumeData
  simp

namespace Torrent

variable {t t' : Torrent}

def resumeData (t : Torrent) : ResumeData where
  endgame := t.endgame
  priorities := t.priorities
  finished := t.finished.toList.map UInt32.ofNat
  infoHash := t.infoHash
  name := t.name
  paused := t.paused
  deadlines := t.pieceDeadlines
  trackers := t.trackers

/-- Every piece of the torrent has a number of 32 bits. -/
structure Numbered (t : Torrent) : Prop where
  finished : ∀ piece ∈ t.finished, piece < UInt32.size
  deadlines : ∀ piece ∈ t.deadlines, piece < UInt32.size

/-! ### Reading it back -/

lemma trackerResume_readAs (t : Tracker) :
    (trackerResume t).ReadAs (Form.reader Tracker) 1 (Form.toValue t) := by
  refine .reorder (by decide) ?_ (List.reverse_perm [_, _, _])
  repeat refine .cons (.of _ _ (by decide)) ?_
  exact .nil

lemma deadlineResume_readAs (d : PieceDeadline) :
    (deadlineResume d).ReadAs (Form.reader PieceDeadline) 1 (Form.toValue d) := by
  refine .reorder (by decide) ?_ (List.reverse_perm [_, _])
  repeat refine .cons (.of _ _ (by decide)) ?_
  exact .nil

lemma map_readAs {α : Type} [Form α] {levels : ℕ} {write : α → Value}
    (each : ∀ a, (write a).ReadAs (Form.reader α) levels (Form.toValue a)) (as : List α) :
    (Value.list (as.map write)).ReadAs (Form.reader (List α)) (levels + 1) (Form.toValue as) := by
  refine .list ?_
  rw [List.forall₂_map_left_iff, List.forall₂_map_right_iff, List.forall₂_same]
  intro a _
  exact each a

lemma finished_toValue (finished : ∀ piece ∈ t.finished, piece < UInt32.size) :
    Form.toValue (t.finished.toList.map UInt32.ofNat) =
      .list (t.finished.toList.map fun (piece : ℕ) => .integer piece) := by
  have numbers : (t.finished.toList.map UInt32.ofNat).map Form.toValue =
      t.finished.toList.map fun (piece : ℕ) => Value.integer piece := by
    rw [List.map_map]
    refine List.map_congr_left fun piece inside => ?_
    have small := finished piece (Std.ExtTreeSet.mem_toList.1 inside)
    exact congrArg (fun n : ℕ => Value.integer n) (UInt32.toNat_ofNat_of_lt' small)
  exact congrArg Value.list numbers

lemma resumeValue_readAs (finished : ∀ piece ∈ t.finished, piece < UInt32.size) :
    t.resumeValue.ReadAs (Form.reader ResumeData) 3 (Form.toValue t.resumeData) := by
  let readings : List Reading := [
    .plain ("endgame", Form.toValue t.endgame),
    .plain ("file_priorities", Form.toValue t.priorities),
    .plain ("finished_pieces", Form.toValue (t.finished.toList.map UInt32.ofNat)),
    .plain ("info_hash", Form.toValue t.infoHash),
    .plain ("name", Form.toValue t.name),
    .plain ("paused", Form.toValue t.paused),
    ⟨"piece_deadlines", .list (t.pieceDeadlines.map deadlineResume), Form.toValue t.pieceDeadlines⟩,
    ⟨"trackers", .list (t.trackers.map trackerResume), Form.toValue t.trackers⟩]
  have written : t.resumeValue = .record (readings.map Reading.member) := by
    rw [resumeValue, ← finished_toValue finished]
    rfl
  rw [written]
  refine .record (by decide) ?_ (List.Perm.refl readings)
  iterate 6 refine .cons (.of _ _ (by decide)) ?_
  refine .cons ⟨rfl, map_readAs deadlineResume_readAs _⟩ (.cons ⟨rfl, ?_⟩ .nil)
  exact map_readAs trackerResume_readAs _

theorem decode_resumePayload (finished : ∀ piece ∈ t.finished, piece < UInt32.size) :
    decode t.resumePayload = .ok t.resumeData :=
  decode_render (resumeValue_readAs finished) (by decide) t.resumeData.means

end Torrent

/-! ### What the data tell of the torrent -/

/-- The data are exactly those of the torrent: its finished pieces and its deadlines, both in
ascending order, and each other part as it is. -/
structure ResumeData.Describes (d : ResumeData) (t : Torrent) : Prop where
  infoHash : d.infoHash = t.infoHash
  name : d.name = t.name
  paused : d.paused = t.paused
  endgame : d.endgame = t.endgame
  trackers : d.trackers = t.trackers
  priorities : d.priorities = t.priorities
  deadlinesAscend : d.deadlines.Pairwise fun due due' => due.piece < due'.piece
  deadlines : ∀ piece milliseconds, t.deadlines[piece]? = some milliseconds ↔
    ∃ due ∈ d.deadlines, due.piece.toNat = piece ∧ due.milliseconds = milliseconds
  finishedAscend : d.finished.Pairwise (· < ·)
  finished : ∀ piece, piece ∈ t.finished ↔ ∃ number ∈ d.finished, number.toNat = piece

namespace Torrent

variable {t t' : Torrent} {d : ResumeData}

/-- The torrents agree on all that is saved. -/
structure SavedAlike (t t' : Torrent) : Prop where
  infoHash : t.infoHash = t'.infoHash
  name : t.name = t'.name
  paused : t.paused = t'.paused
  endgame : t.endgame = t'.endgame
  trackers : t.trackers = t'.trackers
  deadlines : t.deadlines = t'.deadlines
  priorities : t.priorities = t'.priorities
  finished : t.finished = t'.finished

lemma mem_deadlines_of_mem_toList {piece : ℕ} {milliseconds : UInt32}
    (inside : (piece, milliseconds) ∈ t.deadlines.toList) : piece ∈ t.deadlines := by
  rw [Std.ExtTreeMap.mem_toList_iff_getElem?_eq_some] at inside
  rw [Std.ExtTreeMap.mem_iff_isSome_getElem?, inside]
  rfl

/-- Numbers of 32 bits are ordered as they are written. -/
lemma ofNat_lt_ofNat {n n' : ℕ} (less : n < n') (small : n' < UInt32.size) :
    UInt32.ofNat n < UInt32.ofNat n' := by
  rw [UInt32.lt_iff_toNat_lt, UInt32.toNat_ofNat_of_lt' small,
    UInt32.toNat_ofNat_of_lt' (Nat.lt_trans less small)]
  exact less

section Numbered

variable (numbered : t.Numbered)

include numbered

lemma ascending_pieceDeadlines :
    t.pieceDeadlines.Pairwise fun due due' => due.piece < due'.piece := by
  rw [pieceDeadlines, List.pairwise_map]
  refine List.Pairwise.imp_of_mem ?_ Std.ExtTreeMap.ordered_keys_toList
  intro due due' _ inside ascends
  exact ofNat_lt_ofNat (Nat.compare_eq_lt.1 ascends)
    (numbered.deadlines _ (mem_deadlines_of_mem_toList inside))

lemma deadline_iff {piece : ℕ} {milliseconds : UInt32} :
    t.deadlines[piece]? = some milliseconds ↔
      ∃ due ∈ t.pieceDeadlines, due.piece.toNat = piece ∧ due.milliseconds = milliseconds := by
  have exact : ∀ {piece milliseconds}, (piece, milliseconds) ∈ t.deadlines.toList →
      (UInt32.ofNat piece).toNat = piece := fun inside =>
    UInt32.toNat_ofNat_of_lt' (numbered.deadlines _ (mem_deadlines_of_mem_toList inside))
  rw [← Std.ExtTreeMap.mem_toList_iff_getElem?_eq_some]
  constructor
  · intro inside
    exact ⟨_, List.mem_map_of_mem inside, exact inside, rfl⟩
  · rintro ⟨due, listed, rfl, rfl⟩
    obtain ⟨⟨piece, milliseconds⟩, inside, rfl⟩ := List.mem_map.1 listed
    rw [exact inside]
    exact inside

lemma ascending_finished : (t.finished.toList.map UInt32.ofNat).Pairwise (· < ·) := by
  rw [List.pairwise_map]
  refine List.Pairwise.imp_of_mem ?_ (PieceSet.ascending_toList t.finished)
  intro piece piece' _ inside ascends
  exact ofNat_lt_ofNat ascends (numbered.finished _ (Std.ExtTreeSet.mem_toList.1 inside))

lemma finished_iff {piece : ℕ} : piece ∈ t.finished ↔
    ∃ number ∈ t.finished.toList.map UInt32.ofNat, number.toNat = piece := by
  constructor
  · intro inside
    refine ⟨_, List.mem_map_of_mem (Std.ExtTreeSet.mem_toList.2 inside), ?_⟩
    exact UInt32.toNat_ofNat_of_lt' (numbered.finished piece inside)
  · rintro ⟨number, listed, rfl⟩
    obtain ⟨piece, inside, rfl⟩ := List.mem_map.1 listed
    rw [Std.ExtTreeSet.mem_toList] at inside
    rwa [UInt32.toNat_ofNat_of_lt' (numbered.finished piece inside)]

theorem describes_resumeData : t.resumeData.Describes t where
  infoHash := rfl
  name := rfl
  paused := rfl
  endgame := rfl
  trackers := rfl
  priorities := rfl
  deadlinesAscend := ascending_pieceDeadlines numbered
  deadlines _ _ := deadline_iff numbered
  finishedAscend := ascending_finished numbered
  finished _ := finished_iff numbered

end Numbered

lemma savedAlike_of_describes (describes : d.Describes t) (describes' : d.Describes t') :
    t.SavedAlike t' where
  infoHash := describes.infoHash.symm.trans describes'.infoHash
  name := describes.name.symm.trans describes'.name
  paused := describes.paused.symm.trans describes'.paused
  endgame := describes.endgame.symm.trans describes'.endgame
  trackers := describes.trackers.symm.trans describes'.trackers
  deadlines := by
    refine Std.ExtTreeMap.ext_getElem? fun piece => Option.ext fun milliseconds => ?_
    rw [describes.deadlines, describes'.deadlines]
  priorities := describes.priorities.symm.trans describes'.priorities
  finished := by
    refine Std.ExtTreeSet.ext_mem fun piece => ?_
    rw [describes.finished, describes'.finished]

theorem resumePayload_eq_iff (numbered : t.Numbered) (numbered' : t'.Numbered) :
    t.resumePayload = t'.resumePayload ↔ t.SavedAlike t' := by
  constructor
  · intro same
    have read := decode_resumePayload numbered.finished
    rw [same, decode_resumePayload numbered'.finished, Except.ok.injEq] at read
    exact savedAlike_of_describes (describes_resumeData numbered)
      (read ▸ describes_resumeData numbered')
  · rintro ⟨infoHash, name, paused, endgame, trackers, deadlines, priorities, finished⟩
    rw [resumePayload, resumePayload, resumeValue, resumeValue, pieceDeadlines, pieceDeadlines,
      infoHash, name, paused, endgame, trackers, deadlines, priorities, finished]

end Torrent

end TorrentHandle
