import TorrentHandle.Proofs.Torrent.Words

/-!
The geometry of metadata in words, operation by operation. Metadata may come from anywhere, and its
numbers need not fit together; still no operation faults. Divisors and what one is subtracted from
are guarded, a product of two half words is a word, and positions go no further than indices do.

Two results may be capped: the bytes from the start of a piece on, where the piece begins beyond the
payload (`StartsBeyond`), and the place of the last byte of a file, where it is no offset
(`EndsBeyond`). No other results need to be, and neither cap shows: such a piece has no bytes, and
such a file no pieces.
-/

namespace TorrentHandle.Metadata

open Word

/-- A piece begins beyond the end of the payload. -/
def StartsBeyond (m : Metadata) (piece : UInt32) : Prop :=
  piece < m.pieceCount ∧ m.totalSize.toNat < piece.toNat * m.pieceLength.toNat

instance (m : Metadata) (piece : UInt32) : Decidable (m.StartsBeyond piece) :=
  inferInstanceAs (Decidable (_ ∧ _))

/-- A file in pieces has its last byte beyond all offsets. -/
def EndsBeyond (m : Metadata) (index : UInt32) : Prop :=
  ∃ f ∈ m.file? index.toNat, f.size ≠ 0 ∧ m.pieceLength ≠ 0 ∧
    maxSize < f.offset.toNat + (f.size.toNat - 1)

instance (m : Metadata) (index : UInt32) : Decidable (m.EndsBeyond index) :=
  inferInstanceAs (Decidable (∃ f ∈ m.file? index.toNat, _))

/-! ### Geometry in words -/

namespace Words

/-- The end of files that are counted from `position` and lie back to back from `offset`; none if
they do not. Whether the end of a file is a word is asked for, so it is no fault where it is not. -/
def filesEnd (position offset : UInt64) : List FileEntry → Except Fault (Option UInt64)
  | [] => .ok (some offset)
  | f :: rest => do
    let next ← add position 1
    if f.index.toUInt64 = position ∧ f.offset = offset then
      match add offset f.size with
      | .ok stop => filesEnd next stop rest
      | .error _ => return none
    else return none

def isConsistent (m : Metadata) : Except Fault Bool := do
  match ← filesEnd 0 0 m.files with
  | none => return false
  | some total =>
    if total ≠ m.totalSize then return false
    else if m.pieceLength = 0 then return m.pieceCount == 0 && m.totalSize == 0
    else
      let needed ← divCeil m.totalSize m.pieceLength.toUInt64
      return m.pieceCount.toUInt64 == needed

def pieceSize (excess : Excess) (m : Metadata) (piece : UInt32) :
    Except Fault (Option UInt64) := do
  if piece < m.pieceCount then
    let start ← mul piece.toUInt64 m.pieceLength.toUInt64
    let left ← excess.settle 0 (sub m.totalSize start)
    return some (min left m.pieceLength.toUInt64)
  else return none

/-- The first and the last piece that hold bytes of a file. -/
def filePieces (excess : Excess) (m : Metadata) (index : UInt32) :
    Except Fault (Option (UInt32 × UInt32)) := do
  match m.file? index.toNat with
  | none => return none
  | some f =>
    if f.size = 0 ∨ m.pieceLength = 0 then return none
    else
      let length := m.pieceLength.toUInt64
      let first ← div f.offset length
      let lastByte ← excess.settle (.ofNat maxSize) (add f.offset (← sub f.size 1))
      let last ← div lastByte length
      return (half? first).bind fun first => (half? last).map fun last => (first, last)

end Words

variable {m : Metadata} {f : FileEntry} {piece index : UInt32}

lemma pieceLength_toUInt64_ne (some : m.pieceLength ≠ 0) : m.pieceLength.toUInt64 ≠ 0 :=
  fun none => some (UInt32.toUInt64_inj.1 none)

/-! ### Files end to end -/

lemma Words.filesEnd_cons {position offset : UInt64} (low : position.toNat ≤ maxIndex + 1)
    (files : List FileEntry) : Words.filesEnd position offset (f :: files) =
      if f.index.toNat = position.toNat ∧ f.offset.toNat = offset.toNat ∧
          offset.toNat + f.size.toNat ≤ maxSize then
        Words.filesEnd (.ofNat (position.toNat + 1)) (.ofNat (offset.toNat + f.size.toNat)) files
      else .ok none := by
  have next : add position 1 = .ok (.ofNat (position.toNat + 1)) := by
    unfold maxIndex at low
    exact add_of_le (by unfold maxSize; rw [UInt64.toNat_one]; omega)
  have same : f.index.toUInt64 = position ∧ f.offset = offset ↔
      f.index.toNat = position.toNat ∧ f.offset.toNat = offset.toNat := by
    rw [← UInt64.toNat_inj, UInt32.toNat_toUInt64, UInt64.toNat_inj]
  rw [Words.filesEnd, next, ok_bind]
  simp only [same, ← and_assoc]
  by_cases placed : f.index.toNat = position.toNat ∧ f.offset.toNat = offset.toNat
  · rcases Nat.lt_or_ge maxSize (offset.toNat + f.size.toNat) with past | fits
    · rw [if_pos placed, add_of_lt past, if_neg (by omega)]
      rfl
    · rw [if_pos placed, add_of_le fits, if_pos ⟨placed, fits⟩]
  · rw [if_neg placed, if_neg fun there => placed there.1]
    rfl

/-- Positions stay in the words: files are looked at only as long as their indices are their
positions. -/
lemma filesEnd_words (position offset : UInt64) (low : position.toNat ≤ maxIndex + 1)
    (files : List FileEntry) : ∃ stop, Words.filesEnd position offset files = .ok stop ∧
      stop.map UInt64.toNat = filesEnd? position.toNat offset.toNat files := by
  induction files generalizing position offset with
  | nil => exact ⟨some offset, rfl, rfl⟩
  | cons f files ih =>
    rw [Words.filesEnd_cons low, filesEnd?]
    split
    · rename_i placed
      obtain ⟨here, -, fits⟩ := placed
      have small := toNat_le_maxIndex f.index
      have next : (UInt64.ofNat (position.toNat + 1)).toNat = position.toNat + 1 :=
        toNat_ofNat_size (by unfold maxSize; unfold maxIndex at small; omega)
      have rest := ih (.ofNat (position.toNat + 1)) (.ofNat (offset.toNat + f.size.toNat)) (by omega)
      rwa [next, toNat_ofNat_size fits] at rest
    · exact ⟨none, rfl, rfl⟩

theorem isConsistent_words (m : Metadata) : Words.isConsistent m = .ok m.isConsistent := by
  obtain ⟨stop, filled, same⟩ := filesEnd_words 0 0 (Nat.zero_le _) m.files
  rw [UInt64.toNat_zero] at same
  rw [Words.isConsistent, isConsistent, filled, ok_bind, ← same]
  cases stop with
  | none => rfl
  | some stop =>
    dsimp only [Option.map_some]
    by_cases sum : stop = m.totalSize
    · rw [if_neg (not_not.2 sum), sum, beq_self_eq_true, Bool.true_and]
      split
      · rfl
      · rename_i some
        have needed := toNat_ofNat_of_le (w := m.totalSize) (ceilDiv_le (pieceLength_toNat_pos some))
        rw [divCeil_of_ne (pieceLength_toUInt64_ne some), UInt32.toNat_toUInt64, ok_bind]
        refine congrArg Except.ok (Bool.eq_iff_iff.2 ?_)
        rw [beq_iff_eq, beq_iff_eq, ← UInt64.toNat_inj, UInt32.toNat_toUInt64, needed,
          Nat.ceilDiv_eq_add_pred_div]
    · have apart : (stop.toNat == m.totalSize.toNat) = false := by
        rw [beq_eq_false_iff_ne, Ne, UInt64.toNat_inj]
        exact sum
      rw [if_pos sum, apart]
      rfl

/-! ### Sizes of pieces -/

lemma product_le (m : Metadata) (piece : UInt32) :
    piece.toNat * m.pieceLength.toNat ≤ maxSize :=
  (Nat.mul_le_mul (toNat_le_maxIndex _) (toNat_le_maxIndex _)).trans (by decide)

lemma Words.pieceSize_of_lt (excess : Excess) (inside : piece < m.pieceCount) :
    Words.pieceSize excess m piece =
      (excess.settle 0 (sub m.totalSize (.ofNat (piece.toNat * m.pieceLength.toNat)))).map
        fun left => some (min left m.pieceLength.toUInt64) := by
  have start := mul_of_le (a := piece.toUInt64) (b := m.pieceLength.toUInt64)
  rw [UInt32.toNat_toUInt64, UInt32.toNat_toUInt64] at start
  rw [Words.pieceSize, if_pos inside, start (product_le m piece)]
  rfl

lemma Words.pieceSize_of_le (excess : Excess) (outside : ¬ piece < m.pieceCount) :
    Words.pieceSize excess m piece = .ok none :=
  if_neg outside

theorem pieceSize_words (m : Metadata) (piece : UInt32) :
    (Words.pieceSize .capped m piece).map (Option.map UInt64.toNat) =
      .ok (m.pieceSize? piece.toNat) := by
  have count : piece < m.pieceCount ↔ piece.toNat < m.pieceCount.toNat := UInt32.lt_iff_toNat_lt
  by_cases inside : piece < m.pieceCount
  · have start := product_le m piece
    have left := toNat_ofNat_of_le (w := m.totalSize)
      (Nat.sub_le _ (piece.toNat * m.pieceLength.toNat))
    rw [Words.pieceSize_of_lt _ inside, settle_sub, pieceSize?, if_pos (count.1 inside),
      toNat_ofNat_size start, Nat.min_eq_left start]
    refine congrArg (Except.ok ∘ some) ?_
    rw [UInt64.toNat_min, left, UInt32.toNat_toUInt64]
  · rw [Words.pieceSize_of_le _ inside, pieceSize?, if_neg (count.not.1 inside)]
    rfl

/-- Without the cap there is no answer where a piece begins beyond the payload, and only there. -/
lemma pieceSize_refused (m : Metadata) (piece : UInt32) : Words.pieceSize .refused m piece =
    if m.StartsBeyond piece then .error .underflow else Words.pieceSize .capped m piece := by
  by_cases inside : piece < m.pieceCount
  · have start := toNat_ofNat_size (product_le m piece)
    rw [Words.pieceSize_of_lt _ inside, Words.pieceSize_of_lt _ inside, settle_refused]
    split
    · rename_i beyond
      rw [sub_of_lt (by rw [start]; exact beyond.2)]
      rfl
    · rename_i within
      have order := Nat.le_of_not_lt fun under => within ⟨inside, under⟩
      rw [sub_of_le (by rwa [start]), settle_ok]
  · rw [if_neg fun beyond => inside beyond.1, Words.pieceSize_of_le _ inside,
      Words.pieceSize_of_le _ inside]

/-! ### Pieces of files -/

lemma Words.filePieces_of_shown (excess : Excess) (there : m.file? index.toNat = some f)
    (bytes : f.size ≠ 0) (pieces : m.pieceLength ≠ 0) : Words.filePieces excess m index =
      (excess.settle (.ofNat maxSize) (add f.offset (.ofNat (f.size.toNat - 1)))).map
        fun lastByte =>
          (half? (.ofNat (f.offset.toNat / m.pieceLength.toNat))).bind fun first =>
            (half? (.ofNat (lastByte.toNat / m.pieceLength.toNat))).map fun last =>
              (first, last) := by
  have divides (byte : UInt64) : div byte m.pieceLength.toUInt64 =
      .ok (.ofNat (byte.toNat / m.pieceLength.toNat)) := by
    rw [div_of_ne (pieceLength_toUInt64_ne pieces), UInt32.toNat_toUInt64]
  have before : sub f.size 1 = .ok (.ofNat (f.size.toNat - 1)) := sub_of_le (toNat_pos bytes)
  simp only [Words.filePieces, there, bytes, pieces, divides, before, ok_bind, or_self, if_false]
  cases excess.settle (.ofNat maxSize) (add f.offset (.ofNat (f.size.toNat - 1))) <;> rfl

section Unshown

variable (unshown : ¬ ∃ f ∈ m.file? index.toNat, f.size ≠ 0 ∧ m.pieceLength ≠ 0)
include unshown

lemma Words.filePieces_of_unshown (excess : Excess) :
    Words.filePieces excess m index = .ok none := by
  unfold Words.filePieces
  split
  · rfl
  · rename_i f there
    rw [if_pos (by_contra fun shown => unshown ⟨f, there, not_or.1 shown⟩)]
    rfl

lemma filePieces?_of_unshown : m.filePieces? index.toNat = none := by
  refine Option.eq_none_iff_forall_ne_some.2 fun range known => unshown ?_
  obtain ⟨f, there, bytes, pieces, -⟩ := filePieces?_eq_some_iff.1 known
  exact ⟨f, there, bytes, pieces⟩

end Unshown

theorem filePieces_words (m : Metadata) (index : UInt32) :
    (Words.filePieces .capped m index).map (Option.map (Prod.map UInt32.toNat UInt32.toNat)) =
      .ok (m.filePieces? index.toNat) := by
  by_cases shown : ∃ f ∈ m.file? index.toNat, f.size ≠ 0 ∧ m.pieceLength ≠ 0
  · obtain ⟨f, there, bytes, pieces⟩ := shown
    have byte := Nat.min_le_right (f.offset.toNat + (f.size.toNat - 1)) maxSize
    rw [Words.filePieces_of_shown _ there bytes pieces, settle_add,
      toNat_ofNat_of_le (Nat.sub_le _ 1), filePieces?, there]
    dsimp only
    rw [if_neg (not_or.2 ⟨bytes, pieces⟩)]
    refine congrArg Except.ok ?_
    rw [map_halves, toNat_ofNat_of_le (Nat.div_le_self _ _), toNat_ofNat_of_le (Nat.div_le_self _ _),
      toNat_ofNat_size byte]
  · rw [Words.filePieces_of_unshown shown, filePieces?_of_unshown shown]
    rfl

/-- Without the cap there is no answer where a file ends beyond all offsets, and only there. -/
lemma filePieces_refused (m : Metadata) (index : UInt32) : Words.filePieces .refused m index =
    if m.EndsBeyond index then .error .overflow else Words.filePieces .capped m index := by
  by_cases shown : ∃ f ∈ m.file? index.toNat, f.size ≠ 0 ∧ m.pieceLength ≠ 0
  · obtain ⟨f, there, bytes, pieces⟩ := shown
    have size := toNat_ofNat_of_le (Nat.sub_le f.size.toNat 1)
    rw [Words.filePieces_of_shown _ there bytes pieces,
      Words.filePieces_of_shown _ there bytes pieces, settle_refused]
    split
    · rename_i beyond
      obtain ⟨g, there', -, -, past⟩ := beyond
      obtain rfl : f = g := Option.some.inj (there.symm.trans there')
      rw [add_of_lt (by rwa [size])]
      rfl
    · rename_i within
      have fits := Nat.le_of_not_lt fun past => within ⟨f, there, bytes, pieces, past⟩
      rw [add_of_le (by rwa [size]), settle_ok]
  · rw [Words.filePieces_of_unshown shown, Words.filePieces_of_unshown shown,
      if_neg fun ⟨f, there, bytes, pieces, _⟩ => shown ⟨f, there, bytes, pieces⟩]

/-! ### Neither cap shows -/

lemma pieceSize?_of_startsBeyond (beyond : m.StartsBeyond piece) :
    m.pieceSize? piece.toNat = some 0 := by
  have start := product_le m piece
  rw [pieceSize?, if_pos (UInt32.lt_iff_toNat_lt.1 beyond.1), Nat.min_eq_left start,
    Nat.sub_eq_zero_of_le beyond.2.le, Nat.zero_min]

/-- Three pieces too many for ten bytes. -/
example :
    let m := { ofFiles "demo" .sample 16 [("a.bin", 10)] with pieceCount := 4 }
    m.StartsBeyond 3 ∧ m.pieceSize? 3 = some 0 ∧
      Words.pieceSize .refused m 3 = .error .underflow := by decide +kernel

/-- A file that ends beyond all offsets has no pieces: the cap is in none that has an index. -/
lemma filePieces?_of_endsBeyond (beyond : m.EndsBeyond index) :
    m.filePieces? index.toNat = none := by
  obtain ⟨f, there, -, pieces, past⟩ := beyond
  refine Option.eq_none_iff_forall_ne_some.2 fun range known => ?_
  obtain ⟨g, there', -, -, -, last, indexed⟩ := filePieces?_eq_some_iff.1 known
  obtain rfl : f = g := Option.some.inj (there.symm.trans there')
  exact (lt_maxSize_of_pieceOf_le pieces (last ▸ indexed)).not_gt past

/-- Ten bytes from the largest offset on. -/
example :
    let m := { ofFiles "demo" .sample 16 [] with
      files := [⟨0, "a.bin", "a.bin", 0xffffffffffffffff, 10⟩] }
    m.EndsBeyond 0 ∧ m.filePieces? 0 = none ∧
      Words.filePieces .refused m 0 = .error .overflow := by decide +kernel

lemma uncapped_of_isConsistent (consistent : m.isConsistent = true) :
    Words.pieceSize .refused m piece = Words.pieceSize .capped m piece ∧
      Words.filePieces .refused m index = Words.filePieces .capped m index := by
  constructor
  · rw [pieceSize_refused, if_neg]
    rintro ⟨inside, beyond⟩
    exact (piece_start_lt consistent (UInt32.lt_iff_toNat_lt.1 inside)).not_gt beyond
  · rw [filePieces_refused, if_neg]
    rintro ⟨f, there, -, -, past⟩
    have inside := stop_le_totalSize consistent (List.mem_of_getElem? there)
    have fits := m.totalSize_le
    unfold FileEntry.stop at inside
    omega

/-! ### Safety -/

/-- The geometry of metadata can be computed in words, one operation at a time. -/
structure Safe (m : Metadata) : Prop where
  isConsistent : Words.isConsistent m = .ok m.isConsistent
  pieceSize : ∀ piece, (Words.pieceSize .capped m piece).map (Option.map UInt64.toNat) =
    .ok (m.pieceSize? piece.toNat)
  filePieces : ∀ index, (Words.filePieces .capped m index).map
    (Option.map (Prod.map UInt32.toNat UInt32.toNat)) = .ok (m.filePieces? index.toNat)
  /-- The one difference that a piece may need a cap for. -/
  pieceSize_refused : ∀ piece, Words.pieceSize .refused m piece =
    if m.StartsBeyond piece then .error .underflow else Words.pieceSize .capped m piece
  /-- The one sum that a file may need a cap for. -/
  filePieces_refused : ∀ index, Words.filePieces .refused m index =
    if m.EndsBeyond index then .error .overflow else Words.filePieces .capped m index
  /-- Neither cap shows. -/
  pieceSize?_eq_zero : ∀ piece, m.StartsBeyond piece → m.pieceSize? piece.toNat = some 0
  filePieces?_eq_none : ∀ index, m.EndsBeyond index → m.filePieces? index.toNat = none
  uncapped : m.isConsistent = true → ∀ piece index,
    Words.pieceSize .refused m piece = Words.pieceSize .capped m piece ∧
      Words.filePieces .refused m index = Words.filePieces .capped m index
  product_le : ∀ piece : UInt32, piece.toNat * m.pieceLength.toNat ≤ maxSize
  size_le : ∀ piece size, m.pieceSize? piece = some size → size ≤ m.pieceLength.toNat
  first_le_last : ∀ index first last, m.filePieces? index = some (first, last) → first ≤ last

/-- **Geometry is safe on any metadata.** In words no operation faults, and the answers are the
numbers of `isConsistent`, `pieceSize?` and `filePieces?`. Two results are capped, and without the
caps exactly these are faults: none in consistent metadata, and elsewhere the answers are no bytes
and no pieces. Where a piece begins is always a word, no piece is larger than the length of pieces,
and no file ends in a piece before the one it begins in. -/
theorem geometry_safe (m : Metadata) : m.Safe where
  isConsistent := isConsistent_words m
  pieceSize := pieceSize_words m
  filePieces := filePieces_words m
  pieceSize_refused := Metadata.pieceSize_refused m
  filePieces_refused := Metadata.filePieces_refused m
  pieceSize?_eq_zero _ := pieceSize?_of_startsBeyond
  filePieces?_eq_none _ := filePieces?_of_endsBeyond
  uncapped consistent _ _ := uncapped_of_isConsistent consistent
  product_le := Metadata.product_le m
  size_le := by
    intro piece size known
    obtain ⟨-, same⟩ := Option.ite_none_right_eq_some.1 known
    obtain rfl := Option.some.inj same
    exact Nat.min_le_right _ _
  first_le_last := by
    intro index first last known
    obtain ⟨f, -, -, -, rfl, rfl, -⟩ := filePieces?_eq_some_iff.1 known
    exact Nat.div_le_div_right (Nat.le_add_right _ _)

end TorrentHandle.Metadata
