import TorrentHandle.Torrent.InfoHash

/-!
Metadata of a torrent: its files, back to back in one payload, and the pieces the payload is cut
into. A snapshot may come from anywhere, so its numbers need not fit together; `isConsistent` says
when they do. Sizes are computed in natural numbers, and what does not fit 64 bits is capped where
the rule says so.
-/

namespace TorrentHandle

/-- Largest size and offset. -/
def maxSize : Nat := 0xffffffffffffffff

/-- Largest index and number of pieces. -/
def maxIndex : Nat := 0xffffffff

/-- One file of a torrent. -/
structure FileEntry where
  /-- Position in the torrent. -/
  index : UInt32
  /-- Name without folders. -/
  name : String
  /-- Path inside the torrent. -/
  path : String
  /-- Where the file begins in the payload. -/
  offset : UInt64
  size : UInt64
  deriving DecidableEq

/-- What is known of a torrent's content. -/
structure Metadata where
  name : String
  infoHash : InfoHash
  totalSize : UInt64
  /-- Size of every piece but the last. -/
  pieceLength : UInt32
  pieceCount : UInt32
  files : List FileEntry
  deriving DecidableEq

/-- The part of a path after its last slash. -/
def baseName (path : String) : String :=
  String.ofList (path.toList.reverse.takeWhile (· != '/')).reverse

namespace Metadata

/-! ### From files -/

/-- The entries of files that begin at `offset`, and the offset after them. -/
def layOut (index offset : Nat) : List (String × UInt64) → List FileEntry × Nat
  | [] => ([], offset)
  | (path, size) :: rest =>
    let (entries, total) := layOut (index + 1) (min (offset + size.toNat) maxSize) rest
    (⟨UInt32.ofNat (min index maxIndex), baseName path, path, UInt64.ofNat offset, size⟩ :: entries,
      total)

/-- Pieces needed for a payload, the last one perhaps short; none when pieces have no length. -/
def piecesFor (total length : Nat) : Nat :=
  if length = 0 then 0 else min ((total + length - 1) / length) maxIndex

/-- The metadata of files laid out back to back. -/
def ofFiles (name : String) (infoHash : InfoHash) (pieceLength : UInt32)
    (files : List (String × UInt64)) : Metadata :=
  let (entries, total) := layOut 0 0 files
  { name, infoHash, totalSize := UInt64.ofNat total, pieceLength,
    pieceCount := UInt32.ofNat (piecesFor total pieceLength.toNat), files := entries }

/-! ### Geometry -/

def file? (m : Metadata) (index : Nat) : Option FileEntry := m.files[index]?

/-- The end of files that are numbered from `index` and lie back to back from `offset`; none if
they do not. -/
def filesEnd? (index offset : Nat) : List FileEntry → Option Nat
  | [] => some offset
  | f :: rest =>
    if f.index.toNat = index ∧ f.offset.toNat = offset ∧ offset + f.size.toNat ≤ maxSize then
      filesEnd? (index + 1) (offset + f.size.toNat) rest
    else none

/-- Whether files, total size and pieces fit together: the files are in order, back to back and sum
to the total, and the pieces are as many as cover it. -/
def isConsistent (m : Metadata) : Bool :=
  match filesEnd? 0 0 m.files with
  | none => false
  | some total =>
    total == m.totalSize.toNat &&
      if m.pieceLength = 0 then m.pieceCount == 0 && m.totalSize == 0
      else
        m.pieceCount.toNat == (m.totalSize.toNat + m.pieceLength.toNat - 1) / m.pieceLength.toNat

/-- Size of a piece. The last one may be shorter. -/
def pieceSize? (m : Metadata) (piece : Nat) : Option Nat :=
  if piece < m.pieceCount.toNat then
    some (min (m.totalSize.toNat - min (piece * m.pieceLength.toNat) maxSize) m.pieceLength.toNat)
  else none

/-- The first and the last piece that hold bytes of a file. -/
def filePieces? (m : Metadata) (index : Nat) : Option (Nat × Nat) :=
  match m.file? index with
  | none => none
  | some f =>
    if f.size = 0 ∨ m.pieceLength = 0 then none
    else
      let first := f.offset.toNat / m.pieceLength.toNat
      let last := min (f.offset.toNat + (f.size.toNat - 1)) maxSize / m.pieceLength.toNat
      if first ≤ maxIndex ∧ last ≤ maxIndex then some (first, last) else none

end Metadata

/-! ### Sample -/

def samplePieceLength : UInt32 := 16

def InfoHash.sample : InfoHash := ⟨Vector.replicate 20 0xab⟩

/-- Two files of 24 bytes in three pieces: file 0 has pieces 0 and 1, file 1 pieces 1 and 2. -/
def Metadata.sample : Metadata :=
  .ofFiles "Sample Show" .sample samplePieceLength
    [("Sample Show/01.mkv", 24), ("Sample Show/01.ass", 24)]

end TorrentHandle
