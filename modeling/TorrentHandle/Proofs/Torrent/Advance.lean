import TorrentHandle.Proofs.Torrent.State

/-!
How the state of a torrent moves. A torrent whose metadata is known is downloading, finished or
seeding; finished pieces and files that are wanted no more only take it further in this order. What
a row of finished pieces, or a row of priorities, makes of a torrent is told in one step, whatever
the order in which they came.
-/

namespace TorrentHandle

/-- The states of a torrent whose metadata is known, in the order of their codes. -/
def TorrentState.phases : List TorrentState := [downloading, finished, seeding]

lemma TorrentState.code_injective : Function.Injective code := by
  intro s s' same
  cases s <;> cases s' <;> first | rfl | cases same

/-- A torrent that was complete is so in every later state. -/
lemma TorrentState.complete_of_le {s s' : TorrentState} (later : s.code ≤ s'.code)
    (complete : s = finished ∨ s = seeding) (inside : s' ∈ phases) :
    s' = finished ∨ s' = seeding := by
  obtain rfl | rfl | rfl : s' = downloading ∨ s' = finished ∨ s' = seeding := by
    simpa [phases] using inside
  · rcases complete with rfl | rfl <;> exact absurd later (by decide)
  · exact .inl rfl
  · exact .inr rfl

namespace Torrent

variable {t t' : Torrent} {m : Metadata}

/-! ### Forward -/

lemma derivedState_mem_phases (known : t.metadata = some m) :
    t.derivedState ∈ TorrentState.phases := by
  simp only [derivedState, known]
  split
  · decide
  · split <;> decide

lemma hasFile_of_subset (more : ∀ piece ∈ t.finished, piece ∈ t'.finished) {index : ℕ}
    (held : t.hasFile m index = true) : t'.hasFile m index = true := by
  unfold hasFile at *
  split
  · rename_i first last pieces
    simp only [pieces, PieceSet.covers_iff] at held ⊢
    exact fun piece above below => more piece (held piece above below)
  · rfl

theorem code_derivedState_le (fits : t.Fits m) (fits' : t'.Fits m) (known : t.metadata = some m)
    (known' : t'.metadata = some m) (more : ∀ piece ∈ t.finished, piece ∈ t'.finished)
    (fewer : ∀ index, (t'.priority index).isWanted = true → (t.priority index).isWanted = true) :
    t.derivedState.code ≤ t'.derivedState.code := by
  have whole : t.finished.size = m.pieceCount.toNat → t'.finished.size = m.pieceCount.toNat := by
    rw [size_finished_eq_iff fits, size_finished_eq_iff fits']
    exact fun all piece below => more piece (all piece below)
  have wanted : (m.files.all fun f =>
        !(t.priority f.index.toNat).isWanted || t.hasFile m f.index.toNat) = true →
      (m.files.all fun f =>
        !(t'.priority f.index.toNat).isWanted || t'.hasFile m f.index.toNat) = true := by
    simp only [List.all_eq_true, Bool.or_eq_true, Bool.not_eq_true']
    intro held f inside
    rcases held f inside with ignored | there
    · refine .inl (Bool.eq_false_iff.2 fun wants => ?_)
      rw [fewer _ wants] at ignored
      cases ignored
    · exact .inr (hasFile_of_subset more there)
  -- both conditions of the state are kept, and the one for seeding is asked first
  simp only [derivedState, known, known']
  by_cases all : t.finished.size = m.pieceCount.toNat
  · rw [if_pos all, if_pos (whole all)]
    exact Int32.le_refl _
  · rw [if_neg all]
    split
    · rename_i held
      rw [if_pos (wanted held)]
      split <;> decide
    · split
      · decide
      · split <;> decide

/-! ### Finished pieces -/

def withFinished (t : Torrent) (pieces : List UInt32) : Torrent :=
  refresh { t with
    finished := t.finished.insertMany (pieces.map UInt32.toNat)
    deadlines := t.deadlines.filter fun piece _ => piece ∉ pieces.map UInt32.toNat }

section Finished

variable {pieces : List UInt32} {piece : ℕ} {last : UInt32}

lemma mem_finished_withFinished : piece ∈ (t.withFinished pieces).finished ↔
    piece ∈ t.finished ∨ piece ∈ pieces.map UInt32.toNat := by
  rw [← List.contains_iff_mem]
  exact Std.ExtTreeSet.mem_insertMany_list

lemma getElem?_deadlines_withFinished : (t.withFinished pieces).deadlines[piece]? =
    if piece ∈ pieces.map UInt32.toNat then none else t.deadlines[piece]? := by
  have found : (t.withFinished pieces).deadlines[piece]? = _ := Std.ExtTreeMap.getElem?_filter'
  rw [found]
  by_cases inside : piece ∈ pieces.map UInt32.toNat
  · rw [if_pos inside, decide_eq_false (not_not_intro inside)]
    exact Option.filter_eq_none_iff.2 fun _ _ => Bool.false_ne_true
  · rw [if_neg inside, decide_eq_true inside]
    cases t.deadlines[piece]? <;> rfl

lemma priority_withFinished (index : ℕ) :
    (t.withFinished pieces).priority index = t.priority index := rfl

/-- Whatever sets have these members, they make the same torrent. -/
lemma refresh_eq_withFinished {finished : PieceSet} {deadlines : PieceMap UInt32}
    (members : ∀ piece, piece ∈ finished ↔ piece ∈ t.finished ∨ piece ∈ pieces.map UInt32.toNat)
    (due : ∀ piece, deadlines[piece]? =
      if piece ∈ pieces.map UInt32.toNat then none else t.deadlines[piece]?) :
    refresh { t with finished, deadlines } = t.withFinished pieces := by
  have sameFinished : finished = (t.withFinished pieces).finished :=
    Std.ExtTreeSet.ext_mem fun piece => (members piece).trans mem_finished_withFinished.symm
  have sameDeadlines : deadlines = (t.withFinished pieces).deadlines :=
    Std.ExtTreeMap.ext_getElem? fun piece => (due piece).trans getElem?_deadlines_withFinished.symm
  rw [sameFinished, sameDeadlines]
  rfl

/-- Nothing but the members counts, neither their order nor how often they come. -/
lemma withFinished_congr {pieces' : List UInt32}
    (same : ∀ piece, piece ∈ pieces' ↔ piece ∈ pieces) :
    t.withFinished pieces' = t.withFinished pieces := by
  have members : ∀ piece, piece ∈ pieces'.map UInt32.toNat ↔ piece ∈ pieces.map UInt32.toNat := by
    simp only [List.mem_map, same, implies_true]
  refine refresh_eq_withFinished (fun piece => ?_) fun piece => ?_
  · rw [← members piece]
    exact mem_finished_withFinished (t := t)
  · simp only [← members piece]
    exact getElem?_deadlines_withFinished (t := t)

lemma withFinished_nil (current : t.state = t.derivedState) : t.withFinished [] = t := by
  have same : refresh { t with finished := t.finished, deadlines := t.deadlines } =
      t.withFinished [] := refresh_eq_withFinished (by simp) (by simp)
  rw [← same, refresh, ← current]

lemma finishPiece_withFinished (known : t.metadata = some m) (below : last < m.pieceCount) :
    (t.withFinished pieces).finishPiece last = .ok (t.withFinished (pieces ++ [last])) := by
  have members : ∀ piece, piece ∈ (pieces ++ [last]).map UInt32.toNat ↔
      last.toNat = piece ∨ piece ∈ pieces.map UInt32.toNat := by
    intro piece
    rw [List.map_append, List.mem_append, or_comm, List.map_singleton, List.mem_singleton, eq_comm]
  refine finishPiece_eq_ok.2 ⟨checkPiece_eq_ok.2 ⟨m, known, below⟩, ?_⟩
  refine (refresh_eq_withFinished (t := t) (fun piece => ?_) fun piece => ?_).symm
  · rw [Std.ExtTreeSet.mem_insert, mem_finished_withFinished, Nat.compare_eq_eq, members]
    exact or_left_comm
  · rw [Std.ExtTreeMap.getElem?_erase, getElem?_deadlines_withFinished]
    simp only [Nat.compare_eq_eq, members]
    by_cases here : last.toNat = piece
    · rw [if_pos here, if_pos (.inl here)]
    · simp only [here, if_false, false_or]

section Fits

variable (fits : t.Fits m) (inRange : ∀ piece ∈ pieces, piece < m.pieceCount)
include fits inRange

lemma Fits.withFinished : (t.withFinished pieces).Fits m := by
  refine ⟨fits.consistent, fits.infoHash, fits.named, fits.priorities, fun piece inside => ?_,
    fun piece inside due => ?_⟩
  · rcases mem_finished_withFinished.1 inside with before | new
    · exact fits.finished piece before
    · obtain ⟨number, among, rfl⟩ := List.mem_map.1 new
      exact inRange number among
  · rw [Std.ExtTreeMap.mem_iff_isSome_getElem?, getElem?_deadlines_withFinished] at due
    split at due
    · cases due
    · rename_i old
      have before := (mem_finished_withFinished.1 inside).resolve_right old
      exact fits.apart piece before (Std.ExtTreeMap.mem_iff_isSome_getElem?.2 due)

lemma code_withFinished_le {fewer : List UInt32} (known : t.metadata = some m)
    (among : fewer ⊆ pieces) :
    (t.withFinished fewer).derivedState.code ≤ (t.withFinished pieces).derivedState.code := by
  have fitsFewer := fits.withFinished fun piece inside => inRange piece (among inside)
  refine code_derivedState_le fitsFewer (fits.withFinished inRange) known known
    (fun piece inside => ?_) fun index wants => ?_
  · rw [mem_finished_withFinished] at inside ⊢
    exact inside.imp_right fun new => List.map_subset _ among new
  · rwa [priority_withFinished] at wants ⊢

/-- With all pieces finished there is nothing left to download. -/
lemma withFinished_all (known : t.metadata = some m)
    (all : ∀ piece < m.pieceCount, piece ∈ pieces) :
    (t.withFinished pieces).derivedState = .seeding ∧
      (t.withFinished pieces).bytesDownloaded = (t.withFinished pieces).bytesTotal := by
  have fits' := fits.withFinished inRange
  have known' : (t.withFinished pieces).metadata = some m := known
  have whole : (t.withFinished pieces).finished.size = m.pieceCount.toNat := by
    refine (size_finished_eq_iff fits').2 fun piece below => mem_finished_withFinished.2 (.inr ?_)
    have number : (UInt32.ofNat piece).toNat = piece :=
      UInt32.toNat_ofNat_of_lt' (below.trans m.pieceCount.toNat_lt)
    refine List.mem_map.2 ⟨.ofNat piece, all _ ?_, number⟩
    rwa [UInt32.lt_iff_toNat_lt, number]
  refine ⟨?_, (size_finished_eq_iff_bytes fits' known').1 whole⟩
  simp only [derivedState, known', if_pos whole]

end Fits

end Finished

end Torrent

/-! ### Written priorities -/

/-- A write of priorities: to one file, or to all that they are not to be downloaded. -/
inductive PriorityWrite where
  | one (index : UInt32) (priority : FilePriority)
  | ignoreAll

namespace PriorityWrite

def priority : PriorityWrite → FilePriority
  | one _ priority => priority
  | ignoreAll => .dontDownload

/-- Whether a file is written. -/
def reaches (index : ℕ) : PriorityWrite → Bool
  | one here _ => here.toNat = index
  | ignoreAll => true

def Valid (count : ℕ) : PriorityWrite → Prop
  | one index _ => index.toNat < count
  | ignoreAll => True

/-- The priority written last to a file, if one was. -/
def last? (writes : List PriorityWrite) (index : ℕ) : Option FilePriority :=
  (writes.reverse.find? (·.reaches index)).map (·.priority)

def apply (t : Torrent) : PriorityWrite → Except NativeError Torrent
  | one index priority => t.setPriority index priority
  | ignoreAll => t.ignoreFiles

variable {writes : List PriorityWrite} {w : PriorityWrite} {index : ℕ}

lemma last?_concat : last? (writes ++ [w]) index =
    if w.reaches index then some w.priority else last? writes index := by
  rw [last?, List.reverse_concat, List.find?_cons]
  cases w.reaches index <;> rfl

lemma mem_of_last? {priority : FilePriority} (written : last? writes index = some priority) :
    ∃ w ∈ writes, w.priority = priority := by
  obtain ⟨w, found, rfl⟩ := Option.map_eq_some_iff.1 written
  exact ⟨w, List.mem_reverse.1 (List.mem_of_find?_eq_some found), rfl⟩

/-- Where all writes are of one priority, it is what a file that was written has. -/
lemma last?_eq_some {p : FilePriority} (same : ∀ w ∈ writes, w.priority = p)
    (reached : ∃ w ∈ writes, w.reaches index) : last? writes index = some p := by
  obtain ⟨w, inside, here⟩ := reached
  cases written : last? writes index with
  | none =>
    have nowhere := List.find?_eq_none.1 (Option.map_eq_none_iff.1 written)
    exact absurd here (nowhere w (List.mem_reverse.2 inside))
  | some p' =>
    obtain ⟨w', inside', rfl⟩ := mem_of_last? written
    rw [same w' inside']

end PriorityWrite

namespace Torrent

open PriorityWrite (last?)

variable {t : Torrent} {m : Metadata} {writes writes' : List PriorityWrite} {w : PriorityWrite}

/-- The torrent with priorities written: the last write to each file stands. -/
def withPriorities (t : Torrent) (writes : List PriorityWrite) : Torrent :=
  refresh { t with
    priorities := t.priorities.mapIdx fun index priority => (last? writes index).getD priority }

lemma getElem?_withPriorities (index : ℕ) : (t.withPriorities writes).priorities[index]? =
    t.priorities[index]?.map fun priority => (last? writes index).getD priority :=
  List.getElem?_mapIdx

lemma length_withPriorities : (t.withPriorities writes).priorities.length = t.priorities.length :=
  List.length_mapIdx

/-- Whatever priorities these are, they make the same torrent. -/
lemma refresh_eq_withPriorities {priorities : List FilePriority} (written : ∀ index : ℕ,
    priorities[index]? = t.priorities[index]?.map fun priority =>
      (last? writes index).getD priority) :
    refresh { t with priorities } = t.withPriorities writes := by
  have same : priorities = (t.withPriorities writes).priorities :=
    List.ext_getElem? fun index => (written index).trans (getElem?_withPriorities index).symm
  rw [same]
  rfl

/-- Nothing but the last write to each file of the torrent counts. -/
lemma withPriorities_congr (same : ∀ index < t.priorities.length,
    last? writes' index = last? writes index) :
    t.withPriorities writes' = t.withPriorities writes := by
  refine refresh_eq_withPriorities fun index => ?_
  rw [List.getElem?_mapIdx]
  by_cases below : index < t.priorities.length
  · rw [same index below]
  · rw [List.getElem?_eq_none (Nat.le_of_not_lt below)]
    rfl

lemma withPriorities_nil (current : t.state = t.derivedState) : t.withPriorities [] = t := by
  have same : refresh { t with priorities := t.priorities } = t.withPriorities [] :=
    refresh_eq_withPriorities fun index => Option.map_id'.symm
  rw [← same, refresh, ← current]

lemma apply_withPriorities (known : t.metadata.isSome) (valid : w.Valid t.priorities.length) :
    w.apply (t.withPriorities writes) = .ok (t.withPriorities (writes ++ [w])) := by
  cases w with
  | one index priority =>
    have below : index.toNat < (t.withPriorities writes).priorities.length :=
      length_withPriorities.symm ▸ valid
    refine setPriority_eq_ok.2 ⟨known, below, (refresh_eq_withPriorities (t := t) ?_).symm⟩
    intro i
    rw [List.getElem?_set, PriorityWrite.last?_concat]
    by_cases here : index.toNat = i
    · subst here
      have reached : (PriorityWrite.one index priority).reaches index.toNat = true :=
        decide_eq_true rfl
      rw [if_pos rfl, if_pos below, if_pos reached, List.getElem?_eq_getElem valid]
      rfl
    · rw [if_neg here, if_neg (by simpa [PriorityWrite.reaches] using here)]
      exact getElem?_withPriorities i
  | ignoreAll =>
    refine ignoreFiles_eq_ok.2 ⟨known, (refresh_eq_withPriorities (t := t) ?_).symm⟩
    intro i
    rw [List.getElem?_map, getElem?_withPriorities, Option.map_map, PriorityWrite.last?_concat]
    rfl

lemma Fits.withPriorities (fits : t.Fits m) : (t.withPriorities writes).Fits m :=
  ⟨fits.consistent, fits.infoHash, fits.named, length_withPriorities.trans fits.priorities,
    fits.finished, fits.apart⟩

/-- A file that is still wanted was wanted before, if nothing was written but that files are not to
be downloaded. -/
lemma isWanted_of_ignored (ignored : ∀ w ∈ writes, w.priority = .dontDownload) {index : ℕ}
    (wants : ((t.withPriorities writes).priority index).isWanted = true) :
    (t.priority index).isWanted = true := by
  rw [priority, List.getD_eq_getElem?_getD, getElem?_withPriorities] at wants
  rw [priority, List.getD_eq_getElem?_getD]
  cases there : t.priorities[index]? with
  | none => rfl
  | some p =>
    rw [there, Option.map_some, Option.getD_some] at wants
    cases written : last? writes index with
    | none => rwa [written] at wants
    | some p' =>
      obtain ⟨w, inside, rfl⟩ := PriorityWrite.mem_of_last? written
      rw [written, Option.getD_some, ignored w inside] at wants
      cases wants

lemma code_withPriorities_le (fits : t.Fits m) (known : t.metadata = some m)
    (ignored : ∀ w ∈ writes, w.priority = .dontDownload) :
    t.derivedState.code ≤ (t.withPriorities writes).derivedState.code :=
  code_derivedState_le fits fits.withPriorities known known (fun _ => id)
    fun _ => isWanted_of_ignored ignored

end Torrent

end TorrentHandle
