import TorrentHandle.Proofs.Engine.Torrents
import TorrentHandle.Proofs.Torrent.Geometry

/-!
Metadata laid out from files. Laying out caps an index, an offset and a number of pieces that do not
fit, and the check of the result refuses what was capped, also where only empty files follow. So
metadata made from files is consistent, and an engine accepts it, exactly when nothing is capped and
there are pieces for the bytes (`Describable`).
-/

namespace TorrentHandle

namespace Metadata

variable {index offset stop : ℕ} {pieceLength : UInt32} {path : String} {size : UInt64}
  {files : List (String × UInt64)}

def payload (files : List (String × UInt64)) : ℕ := (files.map fun file => file.2.toNat).sum

/-- Files and a piece length that metadata can describe. -/
structure Describable (pieceLength : UInt32) (files : List (String × UInt64)) : Prop where
  /-- Every file has an index. -/
  count : files.length ≤ maxIndex + 1
  bytes : payload files ≤ maxSize
  unpieced : pieceLength.toNat = 0 → payload files = 0
  pieces : 0 < pieceLength.toNat → payload files ⌈/⌉ pieceLength.toNat ≤ maxIndex

/-! ### Laying out -/

lemma layOut_cons : layOut index offset ((path, size) :: files) =
    (⟨UInt32.ofNat (min index maxIndex), baseName path, path, UInt64.ofNat offset, size⟩ ::
        (layOut (index + 1) (min (offset + size.toNat) maxSize) files).1,
      (layOut (index + 1) (min (offset + size.toNat) maxSize) files).2) :=
  rfl

lemma payload_cons : payload ((path, size) :: files) = size.toNat + payload files := rfl

/-- The offset after the files is the sum of their sizes as far as it goes. -/
lemma layOut_snd (fits : offset ≤ maxSize) :
    (layOut index offset files).2 = min (offset + payload files) maxSize := by
  induction files generalizing index offset with
  | nil => exact (Nat.min_eq_left fits).symm
  | cons file files ih =>
    obtain ⟨path, size⟩ := file
    rw [layOut_cons, payload_cons, ih (Nat.min_le_right _ _)]
    omega

lemma filesEnd?_layOut (low : index ≤ maxIndex + 1) (fits : offset ≤ maxSize) :
    filesEnd? index offset (layOut index offset files).1 = some stop ↔
      index + files.length ≤ maxIndex + 1 ∧ offset + payload files ≤ maxSize ∧
        stop = offset + payload files := by
  induction files generalizing index offset with
  | nil =>
    simp only [layOut, filesEnd?, payload, List.map_nil, List.sum_nil, List.length_nil, Nat.add_zero, low,
      fits, true_and, Option.some.injEq]
    exact eq_comm
  | cons file files ih =>
    obtain ⟨path, size⟩ := file
    rw [layOut_cons, filesEnd?_cons, FileEntry.stop, payload_cons, List.length_cons]
    dsimp only
    rw [toNat_ofNat_index (Nat.min_le_right _ _), toNat_ofNat_size fits]
    by_cases room : index ≤ maxIndex ∧ offset + size.toNat ≤ maxSize
    · obtain ⟨numbered, within⟩ := room
      rw [Nat.min_eq_left within, ih (by omega) within]
      omega
    · -- a number is capped at this file, and both sides see it here
      refine iff_of_false ?_ ?_
      · rintro ⟨⟨here, -, within⟩, -⟩
        exact room ⟨by omega, within⟩
      · rintro ⟨count, bytes, -⟩
        exact room ⟨by omega, by omega⟩

/-- The pieces that are counted are those that begin in the payload iff their number is not capped
and there are some if there are bytes. -/
lemma forall_lt_piecesFor_iff {bytes length : ℕ} :
    (∀ piece, piece < piecesFor bytes length ↔ piece * length < bytes) ↔
      (length = 0 → bytes = 0) ∧ (0 < length → bytes ⌈/⌉ length ≤ maxIndex) := by
  unfold piecesFor
  rcases Nat.eq_zero_or_pos length with rfl | positive
  · simp
  · rw [if_neg positive.ne', ← Nat.ceilDiv_eq_add_pred_div]
    simp only [← lt_ceilDiv_iff positive]
    constructor
    · intro begins
      exact ⟨fun none => by omega, fun _ => min_eq_left_iff.1 (eq_of_forall_lt_iff begins)⟩
    · rintro ⟨-, most⟩ piece
      rw [Nat.min_eq_left (most positive)]

section OfFiles

variable (name : String) (infoHash : InfoHash) (pieceLength : UInt32)
  (files : List (String × UInt64))

lemma toNat_totalSize_ofFiles : (ofFiles name infoHash pieceLength files).totalSize.toNat =
    min (payload files) maxSize := by
  change (UInt64.ofNat (layOut 0 0 files).2).toNat = _
  rw [layOut_snd (Nat.zero_le _), Nat.zero_add, toNat_ofNat_size (Nat.min_le_right _ _)]

lemma toNat_pieceCount_ofFiles : (ofFiles name infoHash pieceLength files).pieceCount.toNat =
    piecesFor (min (payload files) maxSize) pieceLength.toNat := by
  have fits : piecesFor (min (payload files) maxSize) pieceLength.toNat ≤ maxIndex := by
    unfold piecesFor
    split
    · exact Nat.zero_le _
    · exact Nat.min_le_right _ _
  change (UInt32.ofNat (piecesFor (layOut 0 0 files).2 pieceLength.toNat)).toNat = _
  rw [layOut_snd (Nat.zero_le _), Nat.zero_add, toNat_ofNat_index fits]

theorem isConsistent_ofFiles_iff :
    (ofFiles name infoHash pieceLength files).isConsistent = true ↔
      Describable pieceLength files := by
  have laid : filesEnd? 0 0 (ofFiles name infoHash pieceLength files).files =
      some (min (payload files) maxSize) ↔ files.length ≤ maxIndex + 1 ∧
        payload files ≤ maxSize ∧ min (payload files) maxSize = payload files := by
    refine (filesEnd?_layOut (Nat.zero_le _) (Nat.zero_le _)).trans ?_
    rw [Nat.zero_add, Nat.zero_add]
  rw [isConsistent_iff, toNat_totalSize_ofFiles, toNat_pieceCount_ofFiles, laid]
  constructor
  · rintro ⟨⟨count, bytes, exact⟩, begins⟩
    rw [exact] at begins
    obtain ⟨unpieced, pieces⟩ := forall_lt_piecesFor_iff.1 begins
    exact ⟨count, bytes, unpieced, pieces⟩
  · rintro ⟨count, bytes, unpieced, pieces⟩
    rw [Nat.min_eq_left bytes]
    exact ⟨⟨count, bytes, rfl⟩, forall_lt_piecesFor_iff.2 ⟨unpieced, pieces⟩⟩

end OfFiles

end Metadata

/-! ### Acceptance -/

namespace Engine

open Metadata

lemma isSome_revise_startDownload {m : Metadata} (defaults : List Tracker) :
    ((SessionCall.startDownload (.ofMetadata m)).revise defaults none).isSome ↔
      m.isConsistent = true := by
  simp only [SessionCall.revise, Option.isSome_map, Torrent.ofParams, TorrentParams.ofMetadata,
    Torrent.setMetadata]
  split <;> simp_all [Except.toOption]

/-- **What an engine accepts of metadata made from files.** It is consistent, and a download of it
starts at any handle that has no torrent, iff the files can be described. -/
theorem ofFiles_accepted_iff (name : String) (infoHash : InfoHash) (pieceLength : UInt32)
    (files : List (String × UInt64)) :
    let m := Metadata.ofFiles name infoHash pieceLength files
    (m.isConsistent = true ↔ Describable pieceLength files) ∧
      ∀ (e : Engine) (a : Address) (h : HandleObject), e.objects.get? a = some h →
        h.torrent = none →
        ((e.session a (.startDownload (.ofMetadata m))).1 = .ok () ↔
          Describable pieceLength files) := by
  intro m
  have described := isConsistent_ofFiles_iff name infoHash pieceLength files
  refine ⟨described, fun e a h found detached => ?_⟩
  rw [startDownload_eq_ok found, and_iff_right detached, isSome_revise_startDownload, described]

theorem largest_payload_accepted :
    let e := (create 1 {} ⟨1, by decide, #[], 1⟩).newHandle.2
    let start := fun files => (e.session ⟨1, 0, 1⟩ (.startDownload (.ofMetadata
      (.ofFiles "archive" .sample 0xffffffff files)))).1
    e.objects.get? ⟨1, 0, 1⟩ = some {} ∧
      start [("a.bin", 0xfffffffe00000001), ("empty.txt", 0)] = .ok () ∧
      start [("a.bin", 0xfffffffe00000001), ("b.bin", 1), ("empty.txt", 0)] ≠ .ok () := by
  intro e start
  have found : e.objects.get? ⟨1, 0, 1⟩ = some {} := by decide +kernel
  have accepts := fun files =>
    (ofFiles_accepted_iff "archive" .sample 0xffffffff files).2 e ⟨1, 0, 1⟩ {} found rfl
  refine ⟨found, (accepts _).2 ⟨by decide, by decide +kernel, by decide, fun _ => ?_⟩, ?_⟩
  · decide +kernel
  · intro accepted
    exact absurd (((accepts _).1 accepted).pieces (by decide)) (by decide +kernel)

end Engine

end TorrentHandle
